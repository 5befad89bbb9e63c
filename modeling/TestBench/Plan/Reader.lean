import TestBench.Failure
import TestBench.FileSystem.Access
import TestBench.Plan.Line
/-!
# Reading a test plan

The plan file is opened once and read block by block while the run goes on, so what is written to it
meanwhile is seen if its block has not been read yet. Blank lines are passed over but counted; a
line that is not UTF-8 is an error and is not counted.
-/
namespace TestBench.Plan

open FileSystem (Handle)

/-- What a plan yields at a time: a line, or the reason why it could not be read. -/
abbrev Item := Except Failure Line

structure Reader where
  path : Path
  handle : Handle
  position : Nat
  buffer : Bytes
  lineNumber : Nat
deriving DecidableEq, Repr

def blockSize : Nat := 8192

def newline : UInt8 := 10

def Reader.open (fs : FileSystem) (p : Path) : Except Failure Reader :=
  match fs.openRead p with
  | .error e => .error (.planUnopened p e)
  | .ok h => .ok ⟨p, h, 0, [], 0⟩

/-- What a read leaves: the line with its line end, the rest of the block, and the position. -/
structure Taken where
  line : Bytes
  buffer : Bytes
  position : Nat

/-- The bytes of a line up to its line end, if the end is there. -/
def cutLine : Bytes → Option (Bytes × Bytes)
  | [] => none
  | b :: r =>
    if b = newline then some ([b], r) else (cutLine r).map fun t => (b :: t.1, t.2)

def nextBlock (content : Bytes) (position : Nat) : Bytes := (content.drop position).take blockSize

theorem nextBlock_length (content : Bytes) (position : Nat) :
    (nextBlock content position).length ≤ content.length - position := by
  simp only [nextBlock, List.length_take, List.length_drop]
  omega

def takeLine (content : Bytes) (position : Nat) (buffer : Bytes) : Taken :=
  match cutLine buffer with
  | some (line, rest) => ⟨line, rest, position⟩
  | none =>
    if _h : (nextBlock content position).length = 0 then ⟨buffer, [], position⟩
    else
      have := nextBlock_length content position
      takeLine content (position + (nextBlock content position).length)
        (buffer ++ nextBlock content position)
termination_by content.length - position
decreasing_by omega

theorem cutLine_append {bs line rest : Bytes} (h : cutLine bs = some (line, rest)) :
    line ++ rest = bs := by
  induction bs generalizing line with
  | nil => simp [cutLine] at h
  | cons b r ih =>
    simp only [cutLine] at h
    split at h
    · simp only [Option.some.injEq, Prod.mk.injEq] at h
      simp [← h.1, h.2]
    · obtain ⟨t, ht, he⟩ := Option.map_eq_some_iff.1 h
      simp only [Prod.mk.injEq] at he
      have := @ih t.1 (by rw [ht, ← he.2])
      simp [← he.1, this]

/-- A line that is taken leaves that much less to be read. -/
theorem takeLine_left (content : Bytes) (position : Nat) (buffer : Bytes) :
    let t := takeLine content position buffer
    t.line.length + t.buffer.length + (content.length - t.position)
      = buffer.length + (content.length - position) := by
  fun_induction takeLine content position buffer with
  | case1 position buffer line rest h =>
    have := congrArg List.length (cutLine_append h)
    simp only [List.length_append] at this
    simp only
    omega
  | case2 position buffer h hb => simp
  | case3 position buffer h hb hl ih =>
    simp only [List.length_append] at ih
    simp only
    omega

/-- Takes the next line that is not blank, from the contents of the file. -/
def Reader.nextFrom (content : Bytes) (r : Reader) : Option Item × Reader :=
  let t := takeLine content r.position r.buffer
  let left := { r with position := t.position, buffer := t.buffer }
  if t.line.isEmpty then (none, left)
  else match Utf8.decode? t.line with
    | none => (some (.error (.planUnreadable r.path .notUtf8)), left)
    | some cs =>
      let counted := { left with lineNumber := r.lineNumber + 1 }
      if isBlank cs then nextFrom content counted
      else (some (.ok (parseChars counted.lineNumber cs)), counted)
termination_by r.buffer.length + (content.length - r.position)
decreasing_by
  have hl := takeLine_left content r.position r.buffer
  have hn : t.line.length ≠ 0 := by
    intro h0
    simp_all [List.isEmpty_iff, List.length_eq_zero_iff]
  simp only [t] at hl hn ⊢
  omega

def Reader.next (fs : FileSystem) (r : Reader) : Option Item × Reader :=
  match r.handle.readAll fs with
  | .error e => (some (.error (.planUnreadable r.path e)), r)
  | .ok content => r.nextFrom content

end TestBench.Plan
