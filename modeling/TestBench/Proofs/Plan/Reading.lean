import TestBench.Plan.Reader
import TestBench.Proofs.Text.Utf8
/-!
# What a plan holds

The items of a plan are a function of its bytes. A reader takes them off in their order; where the
blocks are cut does not matter, and neither does what has been read already.
-/
namespace TestBench.Plan

open Text (splitOn)

/-- The items on the lines of a plan, with the number of lines counted before them. -/
def itemsOf (path : Path) : Nat → List Bytes → List Item
  | _, [] => []
  | n, line :: rest =>
    match Utf8.decode? line with
    | none => .error (.planUnreadable path .notUtf8) :: itemsOf path n rest
    | some cs =>
      if isBlank cs then itemsOf path (n + 1) rest
      else .ok (parseChars (n + 1) cs) :: itemsOf path (n + 1) rest

def itemsIn (path : Path) (content : Bytes) : List Item := itemsOf path 0 (splitOn newline content)

def isBlankLine (line : Bytes) : Bool :=
  match Utf8.decode? line with
  | none => false
  | some cs => isBlank cs

/-- How many lines of a plan file are not blank. -/
def nonBlank (content : Bytes) : Nat := (splitOn newline content).countP (!isBlankLine ·)

def linesOf : Nat → List (List Char) → List Line
  | _, [] => []
  | n, cs :: rest =>
    if isBlank cs then linesOf (n + 1) rest else parseChars (n + 1) cs :: linesOf (n + 1) rest

/-- The lines of a plan that is a text, the blank ones left out. -/
def linesIn (text : List Char) : List Line := linesOf 0 (splitOn '\n' text)

theorem itemsOf_length (path : Path) (n : Nat) (lines : List Bytes) :
    (itemsOf path n lines).length = lines.countP (!isBlankLine ·) := by
  induction lines generalizing n with
  | nil => rfl
  | cons line rest ih =>
    simp only [itemsOf]
    cases hc : Utf8.decode? line with
    | none =>
      have hl : isBlankLine line = false := by rw [isBlankLine, hc]
      rw [List.countP_cons_of_pos (by simpa using hl), List.length_cons, ih]
    | some cs =>
      have hl : isBlankLine line = isBlank cs := by rw [isBlankLine, hc]
      dsimp only
      by_cases hb : isBlank cs = true
      · rw [if_pos hb, List.countP_cons_of_neg (by simpa [hl] using hb), ih]
      · rw [if_neg hb, List.countP_cons_of_pos (by simpa [hl] using hb), List.length_cons, ih]

theorem itemsIn_length (path : Path) (content : Bytes) :
    (itemsIn path content).length = nonBlank content := itemsOf_length path 0 _

theorem itemsOf_of_decode? {path : Path} {lines : List Bytes} {texts : List (List Char)}
    (h : lines.mapM Utf8.decode? = some texts) (n : Nat) :
    itemsOf path n lines = (linesOf n texts).map .ok := by
  induction lines generalizing n texts with
  | nil =>
    obtain rfl := Option.some.inj h
    rfl
  | cons line rest ih =>
    rw [List.mapM_cons] at h
    obtain ⟨cs, hc, h⟩ := Option.bind_eq_some_iff.mp h
    obtain ⟨css, hr, h⟩ := Option.bind_eq_some_iff.mp h
    obtain rfl := Option.some.inj h
    simp only [itemsOf, linesOf, hc]
    by_cases hb : isBlank cs = true
    · rw [if_pos hb, if_pos hb, ih hr]
    · rw [if_neg hb, if_neg hb, ih hr, List.map_cons]

/-- The items of a plan that is a text are its lines. -/
theorem itemsIn_of_decode? {content : Bytes} {text : List Char}
    (h : Utf8.decode? content = some text) (path : Path) :
    itemsIn path content = (linesIn text).map .ok :=
  itemsOf_of_decode? (Utf8.mapM_decode?_splitOn h) 0

theorem isBlank_append_spaces {blanks : List Char} (spaces : ∀ c ∈ blanks, Text.isSpace c = true)
    (cs : List Char) : isBlank (cs ++ blanks) = isBlank cs := by
  rw [isBlank, isBlank, Text.trimEnd_append_spaces spaces]

theorem parseChars_append_spaces {blanks : List Char}
    (spaces : ∀ c ∈ blanks, Text.isSpace c = true) (n : Nat) (cs : List Char) :
    parseChars n (cs ++ blanks) = parseChars n cs := by
  simp only [parseChars, Text.trimEnd_append_spaces spaces]

/-- White space at the end of a line does not count, whether the line is a text or not. -/
theorem itemsOf_append_spaces {blanks : List Char} (spaces : ∀ c ∈ blanks, Text.isSpace c = true)
    (path : Path) (n : Nat) (line : Bytes) (rest : List Bytes) :
    itemsOf path n ((line ++ Utf8.encode blanks) :: rest) = itemsOf path n (line :: rest) := by
  simp only [itemsOf, Utf8.decode?_append_encode]
  cases Utf8.decode? line with
  | none => rfl
  | some cs =>
    simp only [Option.map_some, isBlank_append_spaces spaces, parseChars_append_spaces spaces]

theorem isSpace_newline : ∀ c ∈ ['\n'], Text.isSpace c = true :=
  List.forall_mem_singleton.mpr (by decide)

theorem isBlank_newline (cs : List Char) : isBlank (cs ++ ['\n']) = isBlank cs :=
  isBlank_append_spaces isSpace_newline cs

theorem parseChars_newline (n : Nat) (cs : List Char) :
    parseChars n (cs ++ ['\n']) = parseChars n cs :=
  parseChars_append_spaces isSpace_newline n cs

/-- A line end does not count. -/
theorem itemsOf_newline (path : Path) (n : Nat) (line : Bytes) (rest : List Bytes) :
    itemsOf path n ((line ++ [newline]) :: rest) = itemsOf path n (line :: rest) :=
  itemsOf_append_spaces isSpace_newline path n line rest

/-- What it is to take a line off the bytes that are left: everything up to a line end, or all of
them. -/
inductive Cut (left : Bytes) : Bytes → Bytes → Prop where
  | ended {xs rest : Bytes} (plain : newline ∉ xs) (split : left = xs ++ newline :: rest) :
      Cut left (xs ++ [newline]) rest
  | last (plain : newline ∉ left) : Cut left left []

theorem Cut.eq_nil {left rest : Bytes} (h : Cut left [] rest) : left = [] := by
  generalize he : ([] : Bytes) = line at h
  cases h with
  | ended plain split => exact absurd he.symm (List.append_ne_nil_of_right_ne_nil _ (by simp))
  | last plain => rfl

theorem Cut.eq_ended {xs line rest after : Bytes} (plain : newline ∉ xs)
    (h : Cut (xs ++ newline :: after) line rest) : line = xs ++ [newline] ∧ rest = after := by
  generalize he : xs ++ newline :: after = left at h
  cases h with
  | @ended ys after' plain' split =>
    rw [split] at he
    have first := congrArg (splitOn newline) he
    rw [Text.splitOn_append_cons plain, Text.splitOn_append_cons plain'] at first
    obtain rfl := (List.cons.inj first).1
    exact ⟨rfl, (List.cons.inj (List.append_cancel_left he)).2.symm⟩
  | last plain' =>
    rw [← he] at plain'
    exact absurd (List.mem_append_right xs List.mem_cons_self) plain'

theorem cutLine_eq_none {bs : Bytes} : cutLine bs = none ↔ newline ∉ bs := by
  induction bs with
  | nil => simp only [cutLine, List.not_mem_nil, not_false_eq_true]
  | cons b bs ih =>
    simp only [cutLine, List.mem_cons, not_or]
    by_cases hb : b = newline
    · rw [if_pos hb]
      exact iff_of_false (fun h => by cases h) fun h => h.1 hb.symm
    · rw [if_neg hb, Option.map_eq_none_iff, ih]
      exact ⟨fun h => ⟨fun he => hb he.symm, h⟩, fun h => h.2⟩

theorem cutLine_eq_some {bs line rest : Bytes} (h : cutLine bs = some (line, rest)) :
    ∃ xs, line = xs ++ [newline] ∧ newline ∉ xs := by
  induction bs generalizing line with
  | nil => cases h
  | cons b bs ih =>
    simp only [cutLine] at h
    by_cases hb : b = newline
    · rw [if_pos hb] at h
      obtain ⟨rfl, rfl⟩ := Prod.mk.inj (Option.some.inj h)
      exact ⟨[], by rw [hb, List.nil_append], List.not_mem_nil⟩
    · rw [if_neg hb] at h
      obtain ⟨⟨line', rest'⟩, ht, he⟩ := Option.map_eq_some_iff.mp h
      obtain ⟨rfl, rfl⟩ := Prod.mk.inj he
      obtain ⟨xs, rfl, hx⟩ := ih ht
      refine ⟨b :: xs, rfl, ?_⟩
      rintro (_ | ⟨_, hm⟩)
      · exact hb rfl
      · exact hx hm

/-- Reading block by block takes a line off what is left, in the buffer and in the file. -/
theorem takeLine_cut (content : Bytes) (position : Nat) (buffer : Bytes) :
    let t := takeLine content position buffer
    Cut (buffer ++ content.drop position) t.line (t.buffer ++ content.drop t.position) := by
  fun_induction takeLine content position buffer with
  | case1 position buffer line rest h =>
    obtain ⟨xs, rfl, hx⟩ := cutLine_eq_some h
    refine .ended hx ?_
    rw [← cutLine_append h]
    simp only [List.append_assoc, List.cons_append, List.nil_append]
  | case2 position buffer h hb =>
    have hd : content.drop position = [] := by
      have : min blockSize (content.length - position) = 0 := by
        simpa only [nextBlock, List.length_take, List.length_drop] using hb
      apply List.drop_eq_nil_of_le
      simp only [blockSize] at this
      omega
    simp only [hd, List.append_nil]
    exact .last (cutLine_eq_none.mp h)
  | case3 position buffer h hb hl ih =>
    have hd : nextBlock content position ++
        content.drop (position + (nextBlock content position).length) = content.drop position := by
      rw [← List.drop_drop]
      unfold nextBlock
      rw [List.length_take]
      by_cases hs : blockSize ≤ (content.drop position).length
      · rw [Nat.min_eq_left hs, List.take_append_drop]
      · have hs' : (content.drop position).length ≤ blockSize := Nat.le_of_not_le hs
        rw [Nat.min_eq_right hs', List.drop_length, List.append_nil, List.take_of_length_le hs']
    rw [List.append_assoc, hd] at ih
    exact ih

theorem takeLine_position {content : Bytes} {position : Nat} (h : position ≤ content.length)
    (buffer : Bytes) : (takeLine content position buffer).position ≤ content.length := by
  fun_induction takeLine content position buffer with
  | case1 => exact h
  | case2 => exact h
  | case3 position buffer _ _ _ ih =>
    have hn := nextBlock_length content position
    exact ih (by omega)

namespace Reader

/-- The bytes of a file that a reader has not yet given out. -/
def unread (content : Bytes) (r : Reader) : Bytes := r.buffer ++ content.drop r.position

/-- The items that are ahead of a reader if the file stays as it is. -/
def ahead (content : Bytes) (r : Reader) : List Item :=
  itemsOf r.path r.lineNumber (splitOn newline (r.unread content))

theorem open_eq {fs : FileSystem} {p : Path} {r : Reader} (h : Reader.open fs p = .ok r) :
    ∃ handle, fs.openRead p = .ok handle ∧ r = ⟨p, handle, 0, [], 0⟩ := by
  unfold Reader.open at h
  cases ho : fs.openRead p with
  | error e =>
    rw [ho] at h
    cases h
  | ok handle =>
    rw [ho] at h
    exact ⟨handle, rfl, (Except.ok.inj h).symm⟩

theorem ahead_open {fs : FileSystem} {p : Path} {r : Reader} (h : Reader.open fs p = .ok r)
    (content : Bytes) : r.ahead content = itemsIn p content := by
  obtain ⟨handle, _, rfl⟩ := open_eq h
  rfl

theorem itemsOf_cut {left line rest : Bytes} (h : Cut left line rest) (ne : line ≠ [])
    (path : Path) (n : Nat) :
    itemsOf path n (splitOn newline left) = itemsOf path n (line :: splitOn newline rest) := by
  cases h with
  | ended plain split => rw [split, Text.splitOn_append_cons plain, itemsOf_newline]
  | last plain =>
    rw [Text.splitOn_of_notMem plain]
    cases hd : Utf8.decode? left with
    | none => simp only [itemsOf, splitOn, hd, Utf8.decode?_nil]; rfl
    | some cs => simp only [itemsOf, splitOn, hd, Utf8.decode?_nil]; rfl

theorem ne_nil_of_full {line : Bytes} (h : ¬line.isEmpty = true) : line ≠ [] := by
  rintro rfl
  exact h rfl

/-- A read gives out the first of the items ahead and leaves the others, or there are none. -/
theorem ahead_eq (content : Bytes) (r : Reader) :
    r.ahead content =
      match r.nextFrom content with
      | (none, _) => []
      | (some item, left) => item :: left.ahead content := by
  fun_induction nextFrom content r with
  | case1 r t left empty =>
    have cut : Cut (r.unread content) t.line (left.unread content) :=
      takeLine_cut content r.position r.buffer
    rw [List.isEmpty_iff.mp empty] at cut
    rw [ahead, cut.eq_nil]
    rfl
  | case2 r t left full flawed =>
    have cut : Cut (r.unread content) t.line (left.unread content) :=
      takeLine_cut content r.position r.buffer
    rw [ahead, itemsOf_cut cut (ne_nil_of_full full)]
    simp only [itemsOf, flawed]
    rfl
  | case3 r t left full cs decoded counted blank ih =>
    have cut : Cut (r.unread content) t.line (counted.unread content) :=
      takeLine_cut content r.position r.buffer
    rw [← ih, ahead, itemsOf_cut cut (ne_nil_of_full full)]
    simp only [itemsOf, decoded, blank, if_true]
    rfl
  | case4 r t left full cs decoded counted solid =>
    have cut : Cut (r.unread content) t.line (counted.unread content) :=
      takeLine_cut content r.position r.buffer
    rw [ahead, itemsOf_cut cut (ne_nil_of_full full)]
    simp only [itemsOf, decoded, solid]
    rfl

theorem nextFrom_fields (content : Bytes) (r : Reader) :
    (r.nextFrom content).2.path = r.path ∧ (r.nextFrom content).2.handle = r.handle ∧
      (r.position ≤ content.length → (r.nextFrom content).2.position ≤ content.length) := by
  fun_induction nextFrom content r with
  | case1 r t left empty => exact ⟨rfl, rfl, fun h => takeLine_position h _⟩
  | case2 r t left full flawed => exact ⟨rfl, rfl, fun h => takeLine_position h _⟩
  | case3 r t left full cs decoded counted blank ih =>
    exact ⟨ih.1, ih.2.1, fun h => ih.2.2 (takeLine_position h _)⟩
  | case4 r t left full cs decoded counted solid =>
    exact ⟨rfl, rfl, fun h => takeLine_position h _⟩

theorem nextFrom_item {content : Bytes} {r : Reader} {item : Item}
    (h : (r.nextFrom content).1 = some item) :
    (∃ f, item = .error f) ∨ ∃ n cs, item = .ok (parseChars n cs) := by
  fun_induction nextFrom content r with
  | case1 r t left empty => cases h
  | case2 r t left full flawed => exact .inl ⟨_, (Option.some.inj h).symm⟩
  | case3 r t left full cs decoded counted blank ih => exact ih h
  | case4 r t left full cs decoded counted solid => exact .inr ⟨_, cs, (Option.some.inj h).symm⟩

/-- A read that finds a line of text gives out that line and leaves what stands after it. -/
theorem nextFrom_line {content xs rest : Bytes} {r : Reader} {cs : List Char}
    (split : r.unread content = xs ++ newline :: rest) (plain : newline ∉ xs)
    (decoded : Utf8.decode? xs = some cs) (solid : isBlank cs = false) :
    (r.nextFrom content).1 = some (.ok (parseChars (r.lineNumber + 1) cs)) ∧
      (r.nextFrom content).2.unread content = rest := by
  have cut : Cut (r.unread content) _ _ := takeLine_cut content r.position r.buffer
  rw [split] at cut
  obtain ⟨hl, hr⟩ := cut.eq_ended plain
  have hd : Utf8.decode? (xs ++ [newline]) = some (cs ++ ['\n']) := by
    rw [show newline = 10 from rfl, Utf8.decode?_append_newline, decoded, Option.map_some]
  have hn : (xs ++ [newline]).isEmpty = false := List.isEmpty_eq_false_iff.mpr (by simp)
  rw [nextFrom]
  simp only [hl, hn, hd, isBlank_newline, solid, parseChars_newline, Bool.false_eq_true, if_false]
  exact ⟨trivial, hr⟩

variable {fs : FileSystem} {content : Bytes} {r : Reader}

theorem next_eq (h : r.handle.readAll fs = .ok content) : r.next fs = r.nextFrom content := by
  rw [next, h]

theorem next_item {item : Item} (h : (r.next fs).1 = some item) :
    (∃ f, item = .error f) ∨ ∃ n cs, item = .ok (parseChars n cs) := by
  unfold next at h
  cases hc : r.handle.readAll fs with
  | error e =>
    rw [hc] at h
    exact .inl ⟨_, (Option.some.inj h).symm⟩
  | ok content =>
    rw [hc] at h
    exact nextFrom_item h

theorem next_handle (fs : FileSystem) (r : Reader) : (r.next fs).2.handle = r.handle := by
  unfold next
  cases r.handle.readAll fs with
  | error e => rfl
  | ok content => exact (nextFrom_fields content r).2.1

/-- A reader of a file that can be read is at its end, or gives out the next item. -/
theorem next_cases (h : r.handle.readAll fs = .ok content) :
    (r.ahead content = [] ∧ ∃ left, r.next fs = (none, left)) ∨
      ∃ item left, r.next fs = (some item, left) ∧ r.ahead content = item :: left.ahead content ∧
        left.handle = r.handle := by
  have ahead := ahead_eq content r
  have fields := nextFrom_fields content r
  rw [next_eq h]
  generalize r.nextFrom content = t at ahead fields
  obtain ⟨next, left⟩ := t
  cases next with
  | none => exact .inl ⟨ahead, left, rfl⟩
  | some item => exact .inr ⟨item, left, rfl, ahead, fields.2.1⟩

end Reader

end TestBench.Plan
