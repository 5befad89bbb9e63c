import Mathlib
import TestBench.Proofs.FileSystem.Growth
import TestBench.Proofs.Plan.Numbering
/-!
# Line ends and white space

Which changes of a plan file its items do not show: how its lines end, what white space stands at
their ends, and whether the last of them has a line end. A line of white space that is put in shows
in the numbers of the lines after it only.
-/
namespace TestBench.Plan

open Text (splitOn isSpace trimEnd)
open Utf8 (encode)

variable {path : Path} {n : Nat} {blanks : List Char} {a b front rest line : Bytes}
  {xs ys : List Bytes}

/-- White space within a line. -/
def IsMargin (blanks : List Char) : Prop := ∀ c ∈ blanks, isSpace c = true ∧ c ≠ '\n'

instance (blanks : List Char) : Decidable (IsMargin blanks) :=
  List.decidableBAll _ blanks

def carriageReturn : UInt8 := 13

/-- One change at the end of a line: a newline becomes a carriage return and a newline, white space
is put before a newline or at the end of the file, or the file gets a newline at its end. -/
inductive Respaced : Bytes → Bytes → Prop where
  | returned (front rest : Bytes) :
      Respaced (front ++ newline :: rest) (front ++ carriageReturn :: newline :: rest)
  | spaced {blanks : List Char} (margin : IsMargin blanks) (front rest : Bytes) :
      Respaced (front ++ newline :: rest) (front ++ encode blanks ++ newline :: rest)
  | spacedLast {blanks : List Char} (margin : IsMargin blanks) (front : Bytes) :
      Respaced front (front ++ encode blanks)
  | ended (front : Bytes) : Respaced front (front ++ [newline])

/-- A plan file that holds these bytes, and goes on to hold them, gives out these items, and then
nothing. -/
def Yields (path : Path) (content : Bytes) (items : List Item) : Prop :=
  ∀ (fs : FileSystem) (id : Nat) (x : Bool), fs.stat path = .ok (.file id x) →
    fs.content id = content → ∃ r, Reader.open fs path = .ok r ∧
      ∀ files : Nat → FileSystem, (∀ k, (files k).content id = content) →
        ∀ k, ((r.after files k).next (files k)).1 = items[k]?

/-- The same line one line further on. -/
def Line.moved : Line → Line
  | .row r => .row { r with lineNumber := r.lineNumber + 1 }
  | .malformed m => .malformed { m with lineNumber := m.lineNumber + 1 }

def Item.moved (item : Item) : Item := item.map Line.moved

theorem yields_itemsIn (path : Path) (content : Bytes) :
    Yields path content (itemsIn path content) := by
  intro fs id x regular held
  have opened : Reader.open fs path = .ok ⟨path, .file id, 0, [], 0⟩ := by
    rw [Reader.open, FileSystem.openRead_of_stat regular]
  refine ⟨_, opened, fun files same k => ?_⟩
  have reads (k : Nat) : FileSystem.Handle.readAll (files k) (.file id) = .ok content :=
    congrArg Except.ok (same k)
  rw [← Reader.ahead_open opened content]
  exact Reader.next_after reads k

/-- White space at the end of a line of the file, whatever lines follow it. -/
theorem itemsOf_splitOn_margin (margin : IsMargin blanks) (path : Path) (n : Nat) (front : Bytes)
    (more : List Bytes) :
    itemsOf path n (splitOn newline (front ++ encode blanks) ++ more) =
      itemsOf path n (splitOn newline front ++ more) := by
  have plain : newline ∉ encode blanks := Utf8.notMem_encode fun inside => (margin _ inside).2 rfl
  obtain ⟨before, last, whole, spaced⟩ := Text.splitOn_append_of_notMem plain front
  rw [whole, spaced, List.append_assoc, List.append_assoc, List.singleton_append,
    List.singleton_append, itemsOf_append, itemsOf_append,
    itemsOf_append_spaces fun c hc => (margin c hc).1]

theorem itemsIn_spaced (margin : IsMargin blanks) (path : Path) (front rest : Bytes) :
    itemsIn path (front ++ encode blanks ++ newline :: rest) =
      itemsIn path (front ++ newline :: rest) := by
  rw [itemsIn, itemsIn, Text.splitOn_append, Text.splitOn_append, itemsOf_splitOn_margin margin]

theorem itemsIn_spacedLast (margin : IsMargin blanks) (path : Path) (front : Bytes) :
    itemsIn path (front ++ encode blanks) = itemsIn path front := by
  have last := itemsOf_splitOn_margin margin path 0 front []
  rwa [List.append_nil, List.append_nil] at last

theorem itemsIn_ended (path : Path) (front : Bytes) :
    itemsIn path (front ++ [newline]) = itemsIn path front := by
  rw [itemsIn, Text.splitOn_append]
  exact itemsOf_append_nil path 0 _

theorem itemsIn_of_respaced (path : Path) (h : Respaced a b) : itemsIn path a = itemsIn path b := by
  cases h with
  | returned front rest =>
    have alone : IsMargin ['\r'] := by decide
    have spaced := itemsIn_spaced alone path front rest
    rw [List.append_assoc] at spaced
    exact spaced.symm
  | spaced margin front rest => exact (itemsIn_spaced margin path front rest).symm
  | spacedLast margin => exact (itemsIn_spacedLast margin path a).symm
  | ended => exact (itemsIn_ended path a).symm

/-- Any such changes, made and undone in any order. -/
theorem itemsIn_of_eqvGen (path : Path) (h : Relation.EqvGen Respaced a b) :
    itemsIn path a = itemsIn path b := by
  induction h with
  | rel a b once => exact itemsIn_of_respaced path once
  | refl a => rfl
  | symm a b _ ih => exact ih.symm
  | trans a b c _ _ first second => exact first.trans second

theorem parseChars_succ (n : Nat) (cs : List Char) :
    parseChars (n + 1) cs = (parseChars n cs).moved := by
  unfold parseChars
  dsimp only
  split
  · rfl
  · rfl

theorem itemsOf_succ (path : Path) (n : Nat) (lines : List Bytes) :
    itemsOf path (n + 1) lines = (itemsOf path n lines).map Item.moved := by
  induction lines generalizing n with
  | nil => rfl
  | cons line rest ih =>
    unfold itemsOf
    cases Utf8.decode? line with
    | none => exact congrArg (_ :: ·) (ih n)
    | some cs =>
      dsimp only
      by_cases blank : isBlank cs = true
      · rw [if_pos blank, if_pos blank, ih]
      · rw [if_neg blank, if_neg blank, ih, parseChars_succ]
        rfl

/-- A line of white space is no item, and counts. -/
theorem itemsOf_blank (margin : IsMargin blanks) (path : Path) (n : Nat) (lines : List Bytes) :
    itemsOf path n (encode blanks :: lines) = (itemsOf path n lines).map Item.moved := by
  have blank : isBlank blanks = true := by
    rw [← List.nil_append blanks, isBlank_append_spaces fun c hc => (margin c hc).1]
    rfl
  simp only [itemsOf, Utf8.decode?_encode, blank, if_true, itemsOf_succ]

theorem splitOn_blank (margin : IsMargin blanks) (rest : Bytes) :
    splitOn newline (encode blanks ++ newline :: rest) = encode blanks :: splitOn newline rest :=
  Text.splitOn_append_cons (Utf8.notMem_encode fun inside => (margin _ inside).2 rfl) rest

/-- A line of white space put in where a line begins. -/
theorem exists_itemsIn_put (margin : IsMargin blanks) (begins : ∀ x ∈ front.getLast?, x = newline)
    (path : Path) (rest : Bytes) :
    ∃ later, itemsIn path (front ++ rest) = itemsIn path front ++ later ∧
      itemsIn path (front ++ (encode blanks ++ newline :: rest)) =
        itemsIn path front ++ later.map Item.moved := by
  rcases List.eq_nil_or_concat' front with rfl | ⟨before, last, rfl⟩
  · refine ⟨itemsIn path rest, rfl, ?_⟩
    rw [List.nil_append, itemsIn, splitOn_blank margin, itemsOf_blank margin]
    rfl
  · obtain rfl := begins last (by simp)
    refine ⟨itemsOf path (0 + (splitOn newline before).countP isText) (splitOn newline rest),
      ?_, ?_⟩
    · rw [itemsIn_ended, List.append_assoc, List.singleton_append, itemsIn, Text.splitOn_append,
        itemsOf_append]
      rfl
    · rw [itemsIn_ended, List.append_assoc, List.singleton_append, itemsIn, Text.splitOn_append,
        itemsOf_append, splitOn_blank margin, itemsOf_blank margin]
      rfl

/-- Plan files that differ in nothing but how their lines end, in the white space at the ends of
their lines, and in whether the last line has an end, give out the same items, whether or not their
lines are texts. A line of white space put in before any line, or at the end of the file, is no
item: what is given out for the lines before it stays, and each of the later items has a number that
is greater by one, and is otherwise the same. -/
theorem items_do_not_show_line_ends (path : Path) :
    (∀ a b, Relation.EqvGen Respaced a b → ∃ items, Yields path a items ∧ Yields path b items) ∧
    ∀ front rest blanks, (∀ x ∈ front.getLast?, x = newline) → IsMargin blanks →
      ∃ before later, Yields path front before ∧ Yields path (front ++ rest) (before ++ later) ∧
        Yields path (front ++ (encode blanks ++ newline :: rest))
          (before ++ later.map Item.moved) := by
  constructor
  · intro a b same
    refine ⟨itemsIn path a, yields_itemsIn path a, ?_⟩
    rw [itemsIn_of_eqvGen path same]
    exact yields_itemsIn path b
  · intro front rest blanks begins margin
    obtain ⟨later, whole, put⟩ := exists_itemsIn_put margin begins path rest
    exact ⟨itemsIn path front, later, yields_itemsIn path front, whole ▸ yields_itemsIn path _,
      put ▸ yields_itemsIn path _⟩

/-- A file yields nothing but its items. -/
theorem Yields.unique {content : Bytes} {items others : List Item} {fs : FileSystem} {id : Nat}
    {x : Bool} (regular : fs.stat path = .ok (.file id x)) (held : fs.content id = content)
    (h : Yields path content items) (g : Yields path content others) : items = others := by
  obtain ⟨r, opened, given⟩ := h fs id x regular held
  obtain ⟨r', opened', given'⟩ := g fs id x regular held
  obtain rfl := Except.ok.inj (opened.symm.trans opened')
  refine List.ext_getElem? fun k => ?_
  rw [← given (fun _ => fs) (fun _ => held) k, given' (fun _ => fs) (fun _ => held) k]

namespace Mixed

/-- A line that is no text, and one that is malformed. -/
def tail : Bytes := [255, newline, 120]

def row : Bytes := Utf8.ofText "a,none,1,2,enabled"

/-- White space after the last line, which has no line end. -/
def spaced : Bytes := row ++ newline :: tail ++ encode [' ', '\t']

def returned : Bytes := row ++ encode ['\u2003', '\r'] ++ newline :: tail

def gap : List Char := ['\u3000', '\r']

def files : FileSystem := ⟨[([Utf8.ofText "p"], .file 0 false)], [(0, returned)], 1, []⟩

def filesPut : FileSystem :=
  ⟨[([Utf8.ofText "p"], .file 0 false)],
    [(0, row ++ [newline] ++ (encode gap ++ newline :: tail))], 1, []⟩

def place : Path := .ofText "p"

def items (n : Nat) : List Item :=
  [.error (.planUnreadable place .notUtf8), .ok (.malformed ⟨n, 1, "x"⟩)]

def first : Item := .ok (.row ⟨1, "a", "none", "1", "2", "enabled"⟩)

theorem respaced : Relation.EqvGen Respaced spaced returned :=
  .trans _ _ _ (.symm _ _ (.rel _ _ (.spacedLast (by decide) _)))
    (.rel _ _ (.spaced (by decide) row tail))

theorem itemsIn_returned : itemsIn place returned = first :: items 2 := by rfl

theorem itemsIn_put :
    itemsIn place (row ++ [newline] ++ (encode gap ++ newline :: tail)) = first :: items 3 := by rfl

theorem regular : files.stat place = .ok (.file 0 false) := by cbv

theorem regular_put : filesPut.stat place = .ok (.file 0 false) := by cbv

end Mixed

theorem items_do_not_show_line_ends_of_mixed :
    Relation.EqvGen Respaced Mixed.spaced Mixed.returned ∧
      Yields Mixed.place Mixed.spaced (Mixed.first :: Mixed.items 2) ∧
      Yields Mixed.place Mixed.returned (Mixed.first :: Mixed.items 2) ∧
      (∀ x ∈ (Mixed.row ++ [newline]).getLast?, x = newline) ∧ IsMargin Mixed.gap ∧
      Yields Mixed.place (Mixed.row ++ [newline] ++ (encode Mixed.gap ++ newline :: Mixed.tail))
        (Mixed.first :: Mixed.items 3) := by
  obtain ⟨items, unchanged, changed⟩ := (items_do_not_show_line_ends Mixed.place).1 _ _ Mixed.respaced
  have given := yields_itemsIn Mixed.place Mixed.returned
  rw [Mixed.itemsIn_returned] at given
  obtain rfl := changed.unique Mixed.regular rfl given
  have begins : ∀ x ∈ (Mixed.row ++ [newline]).getLast?, x = newline := by simp
  have margin : IsMargin Mixed.gap := by decide
  obtain ⟨before, later, _, _, put⟩ :=
    (items_do_not_show_line_ends Mixed.place).2 _ Mixed.tail _ begins margin
  have given := yields_itemsIn Mixed.place
    (Mixed.row ++ [newline] ++ (encode Mixed.gap ++ newline :: Mixed.tail))
  rw [Mixed.itemsIn_put] at given
  rw [put.unique Mixed.regular_put rfl given] at put
  exact ⟨Mixed.respaced, unchanged, changed, begins, margin, put⟩

end TestBench.Plan
