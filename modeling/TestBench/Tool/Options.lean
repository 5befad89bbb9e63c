import TestBench.Tool.Desk
/-!
# Options of tools

Options may stand before and after operands. A short one is a letter after a dash, a long one a name
after two, which may be cut short as long as it is told from the others.
-/
namespace TestBench.Tool

inductive Takes where
  | nothing
  | argument
  | perhaps
deriving DecidableEq, Repr

/-- The options of a tool. Long ones stand for a letter, which need not be a short option. -/
structure Options where
  short : List (Char × Takes)
  long : List (String × Takes × Char)
  inOrder : Bool

inductive Met where
  | option (letter : Char) (argument : Chars)
  | fault (message : Chars)
deriving DecidableEq, Repr

structure Parsed where
  met : List Met
  operands : List Chars
deriving DecidableEq, Repr

namespace Options

def helpLetter : Char := '\x01'

def common : List (String × Takes × Char) :=
  [("help", .nothing, helpLetter), ("version", .nothing, helpLetter)]

def quoted (name : String) : Chars := str "'--" ++ str name ++ ['\'']

def candidates (o : Options) (name : Chars) : List (String × Takes × Char) :=
  match o.long.filter fun l => str l.1 == name with
  | [] => o.long.filter fun l => name.isPrefixOf (str l.1)
  | exact => exact

def takeLong (o : Options) (word : Chars) (rest : List Chars) : Met × List Chars :=
  let name := word.takeWhile (· != '=')
  let given := word.drop name.length
  match o.candidates name with
  | [] => (.fault (str "unrecognized option '--" ++ word ++ ['\'']), rest)
  | l :: ls =>
    if ls.any fun m => m.2 != l.2 then
      (.fault (str "option '--" ++ word ++ str "' is ambiguous; possibilities:"
        ++ (l :: ls).flatMap fun m => ' ' :: quoted m.1), rest)
    else match l.2.1, given with
      | .nothing, [] => (.option l.2.2 [], rest)
      | .nothing, _ => (.fault (str "option " ++ quoted l.1 ++ str " doesn't allow an argument"), rest)
      | _, _ :: value => (.option l.2.2 value, rest)
      | .perhaps, [] => (.option l.2.2 [], rest)
      | .argument, [] =>
        match rest with
        | value :: rest => (.option l.2.2 value, rest)
        | [] => (.fault (str "option " ++ quoted l.1 ++ str " requires an argument"), [])

def takeShort (o : Options) : Chars → List Chars → List Met × List Chars
  | [], rest => ([], rest)
  | c :: cs, rest =>
    match o.short.lookup c with
    | none =>
      let t := takeShort o cs rest
      (.fault (str "invalid option -- '" ++ [c, '\'']) :: t.1, t.2)
    | some .nothing =>
      let t := takeShort o cs rest
      (.option c [] :: t.1, t.2)
    | some .perhaps => ([.option c cs], rest)
    | some .argument =>
      if !cs.isEmpty then ([.option c cs], rest)
      else match rest with
        | value :: rest => ([.option c value], rest)
        | [] => ([.fault (str "option requires an argument -- '" ++ [c, '\''])], [])

/-- Takes arguments apart; `stops` tells of a word that begins the operands. -/
def parseFrom (o : Options) (stops : Chars → Bool) : Nat → List Chars → Parsed
  | 0, words => ⟨[], words⟩
  | _, [] => ⟨[], []⟩
  | n + 1, w :: ws =>
    if stops w then ⟨[], w :: ws⟩
    else match w with
      | ['-', '-'] => ⟨[], ws⟩
      | '-' :: '-' :: name =>
        let t := o.takeLong name ws
        let p := parseFrom o stops n t.2
        ⟨t.1 :: p.met, p.operands⟩
      | '-' :: c :: cs =>
        let t := o.takeShort (c :: cs) ws
        let p := parseFrom o stops n t.2
        ⟨t.1 ++ p.met, p.operands⟩
      | w =>
        if o.inOrder then ⟨[], w :: ws⟩
        else
          let p := parseFrom o stops n ws
          ⟨p.met, w :: p.operands⟩

def parse (o : Options) (words : List Chars) : Parsed :=
  o.parseFrom (fun _ => false) (words.length + 1) words

end Options

def eachOption {σ : Type} (met : List Met) (start : σ) (take : σ → Char → Chars → Job σ) : Job σ :=
  met.foldlM (fun s m => do
    match m with
    | .fault message =>
      remark ((← get).name ++ str ": " ++ message ++ ['\n'])
      hint
      finish (← get).failure
    | .option letter argument =>
      if letter = Options.helpLetter then finish 0 else take s letter argument) start

end TestBench.Tool
