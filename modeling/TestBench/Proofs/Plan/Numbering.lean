import Mathlib.Data.List.Basic
import TestBench.Proofs.Plan.Reading
/-!
# The numbers of lines

What a reader gives out at each of its reads, one line of the file after the other: which lines it
passes over, and which number each of the others has.
-/
namespace TestBench.Plan

open Text (splitOn)

/-- The lines of a file are what stands between its line ends. What stands after the last of them is
a line if it is anything at all. -/
def fileLines (content : Bytes) : List Bytes :=
  let pieces := splitOn newline content
  if pieces.getLast? = some [] then pieces.dropLast else pieces

def isText (line : Bytes) : Bool := (Utf8.decode? line).isSome

/-- What a reader gives out for a line, by the lines before it: the reason why it is no text, or
nothing if it is blank, or else its fields, with a number that counts the texts up to it. -/
def itemAfter (path : Path) (before : List Bytes) (line : Bytes) : Option Item :=
  match Utf8.decode? line with
  | none => some (.error (.planUnreadable path .notUtf8))
  | some cs => if isBlank cs then none else some (.ok (parseChars (1 + before.countP isText) cs))

def itemsAlong (path : Path) (lines : List Bytes) : List Item :=
  lines.zipIdx.filterMap fun t => itemAfter path (lines.take t.2) t.1

def Line.number : Line → Nat
  | .row r => r.lineNumber
  | .malformed m => m.lineNumber

/-- The numbers of the lines among some items. -/
def numbers (items : List Item) : List Nat :=
  items.filterMap fun item => item.toOption.map Line.number

/-- A line that is where its number says, with as many lines before it. -/
def StandsIn (lines : List Bytes) (line : Line) : Prop :=
  ∃ k bytes cs, lines[k]? = some bytes ∧ Utf8.decode? bytes = some cs ∧ isBlank cs = false ∧
    line = parseChars (k + 1) cs ∧ line.number = k + 1

theorem number_parseChars (n : Nat) (cs : List Char) : (parseChars n cs).number = n := by
  unfold parseChars
  dsimp only
  split <;> rfl

theorem itemsOf_append (path : Path) (n : Nat) (xs ys : List Bytes) :
    itemsOf path n (xs ++ ys) = itemsOf path n xs ++ itemsOf path (n + xs.countP isText) ys := by
  induction xs generalizing n with
  | nil => rfl
  | cons line xs ih =>
    rw [List.cons_append, itemsOf, itemsOf, List.countP_cons, isText]
    cases Utf8.decode? line with
    | none => simp only [ih, Option.isSome_none, Bool.false_eq_true, if_false, Nat.add_zero,
        List.cons_append]
    | some cs =>
      have counted : n + 1 + xs.countP isText = n + (xs.countP isText + 1) := by omega
      simp only [ih, Option.isSome_some, if_true, counted]
      split
      · rfl
      · rfl

theorem itemsOf_append_nil (path : Path) (n : Nat) (lines : List Bytes) :
    itemsOf path n (lines ++ [[]]) = itemsOf path n lines := by
  rw [itemsOf_append]
  exact List.append_nil _

theorem itemsOf_fileLines (path : Path) (n : Nat) (content : Bytes) :
    itemsOf path n (fileLines content) = itemsOf path n (splitOn newline content) := by
  unfold fileLines
  dsimp only
  split
  · rename_i last
    have whole := List.dropLast_append_getLast? [] last
    rw [← itemsOf_append_nil, whole]
  · rfl

theorem itemsOf_eq_filterMap (path : Path) (before rest : List Bytes) :
    itemsOf path (before.countP isText) rest =
      (rest.zipIdx before.length).filterMap fun t =>
        itemAfter path ((before ++ rest).take t.2) t.1 := by
  induction rest generalizing before with
  | nil => rfl
  | cons line rest ih =>
    have later := ih (before ++ [line])
    rw [List.append_assoc, List.singleton_append, List.length_append, List.countP_append] at later
    rw [List.zipIdx_cons, List.filterMap_cons]
    dsimp only
    rw [List.take_left, itemAfter, itemsOf]
    cases decoded : Utf8.decode? line with
    | none =>
      have flawed : List.countP isText [line] = 0 := by
        rw [List.countP_singleton, isText, decoded]
        rfl
      rw [flawed, Nat.add_zero] at later
      rw [later]
      rfl
    | some cs =>
      have counted : List.countP isText [line] = 1 := by
        rw [List.countP_singleton, isText, decoded]
        rfl
      rw [counted] at later
      dsimp only
      by_cases blank : isBlank cs = true
      · rw [if_pos blank, if_pos blank, later]
        rfl
      · rw [if_neg blank, if_neg blank, later, Nat.add_comm 1]
        rfl

theorem itemsIn_eq_itemsAlong (path : Path) (content : Bytes) :
    itemsIn path content = itemsAlong path (fileLines content) := by
  have along := itemsOf_eq_filterMap path [] (fileLines content)
  rw [List.nil_append] at along
  exact (itemsOf_fileLines path 0 content).symm.trans along

theorem pairwise_numbers_itemsOf (path : Path) (n : Nat) (lines : List Bytes) :
    (numbers (itemsOf path n lines)).Pairwise (· < ·) ∧
      ∀ k ∈ numbers (itemsOf path n lines), n < k := by
  induction lines generalizing n with
  | nil => exact ⟨List.Pairwise.nil, fun k hk => absurd hk List.not_mem_nil⟩
  | cons line rest ih =>
    obtain ⟨sorted, above⟩ := ih (n + 1)
    unfold itemsOf
    cases Utf8.decode? line with
    | none => exact ih n
    | some cs =>
      dsimp only
      by_cases blank : isBlank cs = true
      · rw [if_pos blank]
        exact ⟨sorted, fun k hk => Nat.lt_of_succ_lt (above k hk)⟩
      · rw [if_neg blank]
        have first : numbers (.ok (parseChars (n + 1) cs) :: itemsOf path (n + 1) rest) =
            (n + 1) :: numbers (itemsOf path (n + 1) rest) :=
          congrArg (· :: numbers (itemsOf path (n + 1) rest)) (number_parseChars (n + 1) cs)
        rw [first]
        refine ⟨List.pairwise_cons.mpr ⟨above, sorted⟩, ?_⟩
        intro k hk
        rcases List.mem_cons.mp hk with rfl | hk
        · exact Nat.lt_succ_self n
        · exact Nat.lt_of_succ_lt (above k hk)

/-- As long as every line was a text, the count of the texts is the count of the lines. -/
theorem exists_getElem?_of_itemsOf {path : Path} {n : Nat} {lines : List Bytes}
    {front : List Line} {line : Line} {after : List Item}
    (h : itemsOf path n lines = front.map .ok ++ .ok line :: after) :
    ∃ k bytes cs, lines[k]? = some bytes ∧ Utf8.decode? bytes = some cs ∧ isBlank cs = false ∧
      line = parseChars (n + k + 1) cs := by
  induction lines generalizing n front with
  | nil => exact absurd h.symm (List.append_ne_nil_of_right_ne_nil _ (List.cons_ne_nil _ _))
  | cons bytes rest ih =>
    have later {front : List Line}
        (h : itemsOf path (n + 1) rest = front.map .ok ++ .ok line :: after) :
        ∃ k bs cs, (bytes :: rest)[k]? = some bs ∧ Utf8.decode? bs = some cs ∧
          isBlank cs = false ∧ line = parseChars (n + k + 1) cs := by
      obtain ⟨k, bs, cs, there, decoded, solid, rfl⟩ := ih h
      refine ⟨k + 1, bs, cs, there, decoded, solid, ?_⟩
      rw [Nat.add_right_comm n 1 k]
      rfl
    unfold itemsOf at h
    cases decoded : Utf8.decode? bytes with
    | none =>
      simp only [decoded] at h
      cases front with
      | nil => cases (List.cons.inj h).1
      | cons first front => cases (List.cons.inj h).1
    | some cs =>
      simp only [decoded] at h
      by_cases blank : isBlank cs = true
      · rw [if_pos blank] at h
        exact later h
      · rw [if_neg blank] at h
        cases front with
        | nil =>
          have first := Except.ok.inj (List.cons.inj h).1
          exact ⟨0, bytes, cs, rfl, decoded, Bool.eq_false_iff.mpr blank, first.symm⟩
        | cons first front => exact later (List.cons.inj h).2

theorem standsIn_of_itemsIn {path : Path} {content : Bytes} {front : List Line} {line : Line}
    {after : List Item} (h : itemsIn path content = front.map .ok ++ .ok line :: after) :
    StandsIn (fileLines content) line := by
  rw [itemsIn, ← itemsOf_fileLines] at h
  obtain ⟨k, bytes, cs, there, decoded, solid, rfl⟩ := exists_getElem?_of_itemsOf h
  rw [Nat.zero_add]
  exact ⟨k, bytes, cs, there, decoded, solid, rfl, number_parseChars _ _⟩

theorem Cut.rest_eq_nil {left rest : Bytes} (h : Cut left [] rest) : rest = [] := by
  generalize he : ([] : Bytes) = line at h
  cases h with
  | ended plain split => exact absurd he.symm (List.append_ne_nil_of_right_ne_nil _ (by simp))
  | last plain => exact he

namespace Reader

/-- A reader after some reads, each of which finds the files as they are by then. -/
def after (r : Reader) (files : Nat → FileSystem) : Nat → Reader
  | 0 => r
  | k + 1 => ((r.after files k).next (files k)).2

variable {content : Bytes} {r left : Reader} {files : Nat → FileSystem}

/-- A reader that has come to the end of a file stays there. -/
theorem ahead_of_end (h : r.nextFrom content = (none, left)) : left.ahead content = [] := by
  fun_induction nextFrom content r with
  | case1 r t after empty =>
    obtain rfl := (Prod.mk.inj h).2
    have cut : Cut (r.unread content) t.line (t.buffer ++ content.drop t.position) :=
      takeLine_cut content r.position r.buffer
    rw [List.isEmpty_iff.mp empty] at cut
    rw [ahead, unread, cut.rest_eq_nil]
    rfl
  | case2 r t after full flawed => cases h
  | case3 r t after full cs decoded counted blank ih => exact ih h
  | case4 r t after full cs decoded counted solid => cases h

/-- A read of a file that can be read gives out the first of the items ahead and leaves the others,
also if there are none. -/
theorem next_spec {fs : FileSystem} (h : r.handle.readAll fs = .ok content) :
    (r.next fs).1 = (r.ahead content).head? ∧
      (r.next fs).2.ahead content = (r.ahead content).tail := by
  have ahead := ahead_eq content r
  rw [next_eq h]
  cases ht : r.nextFrom content with
  | mk next left =>
    rw [ht] at ahead
    cases next with
    | none =>
      rw [ahead, ahead_of_end ht]
      exact ⟨rfl, rfl⟩
    | some item =>
      rw [ahead]
      exact ⟨rfl, rfl⟩

theorem after_handle (r : Reader) (files : Nat → FileSystem) (k : Nat) :
    (r.after files k).handle = r.handle := by
  induction k with
  | zero => rfl
  | succ k ih => rw [after, next_handle, ih]

theorem ahead_after (held : ∀ k, r.handle.readAll (files k) = .ok content) (k : Nat) :
    (r.after files k).ahead content = (r.ahead content).drop k := by
  induction k with
  | zero => rfl
  | succ k ih =>
    have same : (r.after files k).handle.readAll (files k) = .ok content := by
      rw [after_handle, held]
    rw [after, (next_spec same).2, ih, List.tail_drop]

/-- As long as a file stays the same, each read gives out the next of its items, and when these are
all given out there is nothing more. -/
theorem next_after (held : ∀ k, r.handle.readAll (files k) = .ok content) (k : Nat) :
    ((r.after files k).next (files k)).1 = (r.ahead content)[k]? := by
  have same : (r.after files k).handle.readAll (files k) = .ok content := by
    rw [after_handle, held]
  rw [(next_spec same).1, ahead_after held, List.head?_drop]

end Reader

end TestBench.Plan
