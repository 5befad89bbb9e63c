import Mathlib.Data.List.Nodup
import TestBench.Proofs.Entries
import TestBench.Toml.Document
/-!
# Keys of a document

No table of a document has two entries of one key, at whatever depth it lies: an entry is put where
its key is free, and otherwise only the value under a key is changed.
-/
namespace TestBench.Toml

open Entries (Distinct)

/-- A value in which no table has two entries of one key. -/
inductive Regular : Value → Prop
  | string (s : String) : Regular (.string s)
  | integer (n : Int) : Regular (.integer n)
  | float : Regular .float
  | boolean (b : Bool) : Regular (.boolean b)
  | moment : Regular .moment
  | array {vs : List Value} (items : ∀ v ∈ vs, Regular v) : Regular (.array vs)
  | table {o : Origin} {t : Table} (keys : Distinct t) (values : ∀ e ∈ t, Regular e.2) :
    Regular (.table o t)
  | rows {ts : List Table} (keys : ∀ t ∈ ts, Distinct t) (values : ∀ t ∈ ts, ∀ e ∈ t, Regular e.2) :
    Regular (.rows ts)

structure Table.IsRegular (t : Table) : Prop where
  keys : Distinct t
  values : ∀ e ∈ t, Regular e.2

theorem Regular.of_scalarValue {cs : List Char} {v : Value} (h : scalarValue cs = some v) :
    Regular v := by
  unfold scalarValue at h
  split at h
  · exact Option.some.inj h ▸ .boolean true
  split at h
  · exact Option.some.inj h ▸ .boolean false
  split at h
  · exact Option.some.inj h ▸ .integer _
  split at h
  · exact Option.some.inj h ▸ .float
  split at h
  · exact Option.some.inj h ▸ .moment
  · cases h

namespace Table

variable {t : Table} {k : String} {v : Value} {o : Origin}

theorem IsRegular.nil : IsRegular [] := ⟨List.nodup_nil, List.forall_mem_nil _⟩

theorem IsRegular.table (h : t.IsRegular) (o : Origin) : Regular (.table o t) :=
  .table h.keys h.values

theorem IsRegular.append (h : t.IsRegular) (free : t.lookup k = none) (value : Regular v) :
    IsRegular (t ++ [(k, v)]) :=
  ⟨h.keys.append free, List.forall_mem_append.mpr ⟨h.values, List.forall_mem_singleton.mpr value⟩⟩

theorem keys_replace (k : String) (v : Value) (t : Table) :
    (replace k v t).map Prod.fst = t.map Prod.fst := by
  fun_induction replace k v t with
  | case1 => rfl
  | case2 e t same => rw [List.map_cons, List.map_cons, same]
  | case3 e t other ih => rw [List.map_cons, List.map_cons, ih]

theorem mem_replace {e : String × Value} (h : e ∈ replace k v t) : e = (k, v) ∨ e ∈ t := by
  fun_induction replace k v t with
  | case1 => cases h
  | case2 d t _ => exact (List.mem_cons.mp h).imp_right (List.mem_cons_of_mem _)
  | case3 d t other ih =>
    rcases List.mem_cons.mp h with rfl | h
    · exact .inr List.mem_cons_self
    · exact (ih h).imp_right (List.mem_cons_of_mem _)

theorem IsRegular.replace (h : t.IsRegular) (k : String) (value : Regular v) :
    IsRegular (replace k v t) := by
  refine ⟨?_, fun e he => ?_⟩
  · rw [Distinct, keys_replace]
    exact h.keys
  · rcases mem_replace he with rfl | there
    · exact value
    · exact h.values e there

theorem IsRegular.of_lookup (h : t.IsRegular) (found : t.lookup k = some v) : Regular v :=
  h.values _ (Entries.mem_of_lookup found)

theorem IsRegular.inner {own : Table} (h : t.IsRegular) (found : t.lookup k = some (.table o own)) :
    own.IsRegular := by
  cases h.of_lookup found with
  | table keys values => exact ⟨keys, values⟩

theorem IsRegular.row {ts : List Table} {own : Table} (h : t.IsRegular)
    (found : t.lookup k = some (.rows ts)) (there : own ∈ ts) : own.IsRegular := by
  cases h.of_lookup found with
  | rows keys values => exact ⟨keys own there, values own there⟩

theorem regular_rows {ts : List Table} (h : ∀ t ∈ ts, t.IsRegular) : Regular (.rows ts) :=
  .rows (fun t ht => (h t ht).keys) fun t ht => (h t ht).values

/-- What is done to the table at the end of a path leaves the whole regular, if it leaves that table
regular. -/
theorem IsRegular.descend {dotted : Bool} {act : Origin → Table → Option (Origin × Table)}
    (kept : ∀ o t r, IsRegular t → act o t = some r → IsRegular r.2) {path : List String}
    {r : Origin × Table} (h : t.IsRegular) (done : descend dotted act path o t = some r) :
    r.2.IsRegular := by
  induction path generalizing o t r with
  | nil => exact kept o t r h done
  | cons k path ih =>
    rw [Table.descend] at done
    split at done
    · rename_i free
      obtain ⟨inner, onward, rfl⟩ := Option.map_eq_some_iff.mp done
      exact h.append free ((ih .nil onward).table _)
    · rename_i found
      split at done
      · cases done
      · obtain ⟨inner, onward, rfl⟩ := Option.map_eq_some_iff.mp done
        exact h.replace k ((ih (h.inner found) onward).table _)
    · rename_i ts found
      split at done
      · cases done
      · rename_i last isLast
        have there := List.mem_of_getLast? isLast
        obtain ⟨inner, onward, rfl⟩ := Option.map_eq_some_iff.mp done
        refine h.replace k (regular_rows fun row hr => ?_)
        rcases List.mem_append.mp hr with hr | hr
        · exact h.row found (List.dropLast_subset ts hr)
        · obtain rfl := List.mem_singleton.mp hr
          exact ih (h.row found there) onward
    · cases done

theorem IsRegular.assign {key : List String} (h : t.IsRegular) (value : Regular v)
    {r : Origin × Table} (done : Table.assign key v o t = some r) : r.2.IsRegular := by
  unfold Table.assign at done
  split at done
  · cases done
  refine h.descend (fun inner entries r own act => ?_) done
  split at act
  · cases act
  split at act
  · cases act
  · rename_i free
    obtain rfl := Option.some.inj act
    exact own.append (Option.not_isSome_iff_eq_none.mp free) value

theorem IsRegular.assignIn {path key : List String} {t' : Table} (h : t.IsRegular)
    (value : Regular v) (done : Table.assignIn path key v t = some t') : t'.IsRegular := by
  obtain ⟨r, whole, rfl⟩ := Option.map_eq_some_iff.mp done
  exact h.descend (fun o own r regular act => regular.assign value act) whole

theorem IsRegular.openTable {path : List String} {t' : Table} (h : t.IsRegular)
    (done : Table.openTable path t = some t') : t'.IsRegular := by
  unfold Table.openTable at done
  split at done
  · cases done
  obtain ⟨r, whole, rfl⟩ := Option.map_eq_some_iff.mp done
  refine h.descend (fun o own r regular act => ?_) whole
  split at act
  · rename_i free
    obtain rfl := Option.some.inj act
    exact regular.append free (IsRegular.nil.table _)
  · rename_i found
    obtain rfl := Option.some.inj act
    exact regular.replace _ ((regular.inner found).table _)
  · cases act

theorem IsRegular.openRow {path : List String} {t' : Table} (h : t.IsRegular)
    (done : Table.openRow path t = some t') : t'.IsRegular := by
  unfold Table.openRow at done
  split at done
  · cases done
  obtain ⟨r, whole, rfl⟩ := Option.map_eq_some_iff.mp done
  refine h.descend (fun o own r regular act => ?_) whole
  split at act
  · rename_i free
    obtain rfl := Option.some.inj act
    exact regular.append free (regular_rows (List.forall_mem_singleton.mpr .nil))
  · rename_i found
    obtain rfl := Option.some.inj act
    exact regular.replace _ (regular_rows (List.forall_mem_append.mpr
      ⟨fun row hr => regular.row found hr, List.forall_mem_singleton.mpr .nil⟩))
  · cases act

end Table

/-- Whatever is read of a text with a bound on the steps is regular, and so is a table with the
entries that are read into it. -/
structure ReadsRegular (n : Nat) : Prop where
  value {depth cs v rest} : value n depth cs = some (v, rest) → Regular v
  items {depth cs vs rest} : items n depth cs = some (vs, rest) → ∀ v ∈ vs, Regular v
  pairs {depth seen cs t rest} : seen.IsRegular → pairs n depth seen cs = some (t, rest) →
    t.IsRegular

namespace ReadsRegular

variable {n depth : Nat} {cs rest : List Char}

theorem value_succ (ih : ReadsRegular n) {v : Value}
    (h : Toml.value (n + 1) depth cs = some (v, rest)) : Regular v := by
  unfold Toml.value at h
  split at h
  · split at h
    · cases h
    · obtain ⟨r, read, same⟩ := Option.map_eq_some_iff.mp h
      cases same
      exact .array (ih.items read)
  · split at h
    · cases h
    · obtain ⟨r, read, same⟩ := Option.map_eq_some_iff.mp h
      cases same
      exact (ih.pairs .nil read).table _
  · obtain ⟨r, _, same⟩ := Option.map_eq_some_iff.mp h
    cases same
    exact .string _
  · obtain ⟨r, _, same⟩ := Option.map_eq_some_iff.mp h
    cases same
    exact .string _
  · obtain ⟨v, read, same⟩ := Option.map_eq_some_iff.mp h
    cases same
    exact .of_scalarValue read

theorem items_succ (ih : ReadsRegular n) {vs : List Value}
    (h : Toml.items (n + 1) depth cs = some (vs, rest)) : ∀ v ∈ vs, Regular v := by
  unfold Toml.items at h
  split at h
  · cases h
  · cases h
    exact List.forall_mem_nil _
  split at h
  · cases h
  rename_i first
  split at h
  · obtain ⟨t, others, same⟩ := Option.map_eq_some_iff.mp h
    cases same
    exact List.forall_mem_cons.mpr ⟨ih.value first, ih.items others⟩
  · cases h
    exact List.forall_mem_singleton.mpr (ih.value first)
  · cases h

theorem pairs_succ (ih : ReadsRegular n) {seen t : Table} (regular : seen.IsRegular)
    (h : Toml.pairs (n + 1) depth seen cs = some (t, rest)) : t.IsRegular := by
  unfold Toml.pairs at h
  split at h
  · cases h
  · cases h
    exact regular
  split at h
  · cases h
  split at h
  · split at h
    · cases h
    rename_i given
    obtain ⟨own, _, given⟩ := Option.bind_eq_some_iff.mp given
    split at h
    · rename_i put _
      exact ih.pairs (regular.assign (ih.value given) put) h
    · rename_i put _
      cases h
      exact regular.assign (ih.value given) put
    · cases h
  · cases h

end ReadsRegular

theorem readsRegular (n : Nat) : ReadsRegular n := by
  induction n with
  | zero =>
    refine ⟨?_, ?_, ?_⟩
    · intro depth cs v rest h
      cases h
    · intro depth cs vs rest h
      cases h
    · intro depth seen cs t rest _ h
      cases h
  | succ n ih => exact ⟨ih.value_succ, ih.items_succ, ih.pairs_succ⟩

theorem Table.IsRegular.lines {n : Nat} {path : List String} {t t' : Table} {cs : List Char}
    (h : t.IsRegular) (read : Toml.lines n path t cs = some t') : t'.IsRegular := by
  induction n generalizing path t cs with
  | zero => cases read
  | succ n ih =>
    unfold Toml.lines at read
    split at read
    · exact Option.some.inj read ▸ h
    · split at read
      · split at read
        · rename_i opened _
          exact ih (h.openRow opened) read
        · cases read
      · cases read
    · split at read
      · split at read
        · rename_i opened _
          exact ih (h.openTable opened) read
        · cases read
      · cases read
    split at read
    · exact ih h read
    split at read
    · split at read
      · cases read
      rename_i given
      split at read
      · rename_i put _
        exact ih (h.assignIn ((readsRegular n).value given) put) read
      · cases read
    · cases read

/-- No table of a document has two entries of one key. -/
theorem isRegular_parse {s : String} {t : Table} (h : parse s = some t) : t.IsRegular := by
  obtain ⟨read, -⟩ := Option.filter_eq_some_iff.mp h
  exact Table.IsRegular.nil.lines read

end TestBench.Toml
