/-!
# TOML values and tables

A document is built up as one table. Each table remembers how it came about, since that decides
which later lines may add to it.
-/
namespace TestBench.Toml

/-- How a table came about: by a header of its own, as a step on the way to another header, by a
dotted key, or in braces. -/
inductive Origin where
  | header
  | implied
  | dotted
  | inline
deriving DecidableEq, Repr

inductive Value where
  | string (s : String)
  | integer (n : Int)
  | float
  | boolean (b : Bool)
  | moment
  | array (items : List Value)
  | table (origin : Origin) (entries : List (String × Value))
  | rows (tables : List (List (String × Value)))
deriving Repr

abbrev Table := List (String × Value)

/-- Whether a value, with all that is in it, takes up no more than a number of levels. The rows of
an array of tables are a level of their own. -/
def Value.fits : Nat → Value → Bool
  | 0, _ => false
  | n + 1, .array vs => vs.all (fits n)
  | n + 1, .table _ t => t.all fun entry => fits n entry.2
  | 1, .rows ts => ts.isEmpty
  | n + 2, .rows ts => ts.all fun t => t.all fun entry => fits n entry.2
  | _ + 1, _ => true

namespace Table

def replace (k : String) (v : Value) : Table → Table
  | [] => []
  | t :: ts => if t.1 = k then (k, v) :: ts else t :: replace k v ts

/-- Changes the table at the end of a path. Missing tables on the way are made; a key that is
dotted may only pass through tables that no header has opened. -/
def descend (dotted : Bool) (act : Origin → Table → Option (Origin × Table)) :
    List String → Origin → Table → Option (Origin × Table)
  | [], o, t => act o t
  | k :: ks, o, t =>
    match t.lookup k with
    | none =>
      (descend dotted act ks (if dotted then .dotted else .implied) []).map fun r =>
        (o, t ++ [(k, .table r.1 r.2)])
    | some (.table inner entries) =>
      if inner = .inline || (dotted && inner = .header) then none
      else (descend dotted act ks inner entries).map fun r => (o, replace k (.table r.1 r.2) t)
    | some (.rows ts) =>
      match ts.getLast? with
      | none => none
      | some last => (descend dotted act ks .header last).map fun r =>
          (o, replace k (.rows (ts.dropLast ++ [r.2])) t)
    | some _ => none

/-- Puts a value under a dotted key. Its last table is either the one at hand or one that dotted
keys have made. -/
def assign (key : List String) (v : Value) (o : Origin) (t : Table) : Option (Origin × Table) :=
  match key.getLast? with
  | none => none
  | some name =>
    descend true (fun inner entries =>
      if (inner == .dotted) == key.dropLast.isEmpty then none
      else if (entries.lookup name).isSome then none
      else some (inner, entries ++ [(name, v)])) key.dropLast o t

/-- Opens the table of a header. A table that is there already must only have been implied. -/
def openTable (path : List String) (t : Table) : Option Table :=
  match path.getLast? with
  | none => none
  | some name =>
    (descend false (fun o entries =>
      match entries.lookup name with
      | none => some (o, entries ++ [(name, .table .header [])])
      | some (.table .implied inner) => some (o, replace name (.table .header inner) entries)
      | some _ => none) path.dropLast .header t).map (·.2)

def openRow (path : List String) (t : Table) : Option Table :=
  match path.getLast? with
  | none => none
  | some name =>
    (descend false (fun o entries =>
      match entries.lookup name with
      | none => some (o, entries ++ [(name, .rows [[]])])
      | some (.rows ts) => some (o, replace name (.rows (ts ++ [[]])) entries)
      | some _ => none) path.dropLast .header t).map (·.2)

def assignIn (path key : List String) (v : Value) (t : Table) : Option Table :=
  (descend false (assign key v) path .header t).map (·.2)

end Table
end TestBench.Toml
