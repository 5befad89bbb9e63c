import TestBench.Proofs.Child.Lines
/-!
# One reader

What a reader may do without the lock, and what it keeps to: the lines that it has put and those
that it has still to put are the lines of its stream, until it ends.
-/
namespace TestBench.Child

variable {stream : Bytes} {done : List (List Char)} {r r' : Reader} {m : Move}

namespace Stage

/-- The line that a reader has made and not yet put. -/
def line : Stage → List (List Char)
  | .waiting raw | .holding raw | .putting raw => [normalLine raw]
  | .reading | .finished _ => []

def isLocked : Stage → Bool
  | .holding _ | .putting _ => true
  | .reading | .waiting _ | .finished _ => false

/-- What stands in the text of a line that is not finished. -/
def begun : Stage → List Char
  | .putting raw => bareLine raw
  | .reading | .waiting _ | .holding _ | .finished _ => []

theorem exists_of_isFinished {stage : Stage} (h : stage.isFinished = true) :
    ∃ whole, stage = .finished whole := by
  cases stage with
  | finished whole => exact ⟨whole, rfl⟩
  | reading | waiting raw | holding raw | putting raw => cases h

theorem begun_of_unlocked {stage : Stage} (h : stage.isLocked = false) : stage.begun = [] := by
  cases stage with
  | putting raw => cases h
  | reading | waiting raw | holding raw | finished whole => rfl

end Stage

namespace Reader

/-- The bytes that have not been made into lines. -/
def rest (r : Reader) : Bytes := r.drain.held.reverse ++ (r.block ++ r.unread)

def ahead (r : Reader) : List (List Char) := r.stage.line ++ lines r.rest

theorem isIdle_iff : r.isIdle = true ↔ r.stage = .reading ∧ r.block = [] := by
  simp [isIdle]

/-- What a reader may do without the lock. -/
inductive Moved (r : Reader) : Move → Reader → Prop where
  | read (size : Nat) (reading : r.stage = .reading) (looked : r.block = []) :
      Moved r (.read size) { r with unread := r.unread.drop size, block := r.unread.take size }
  | byte {b : UInt8} {more : Bytes} (reading : r.stage = .reading) (next : r.block = b :: more)
      (inside : b ≠ lineFeed) :
      Moved r .scan { r with block := more, drain := ⟨b :: r.drain.held⟩, stage := .reading }
  | line {more : Bytes} (reading : r.stage = .reading) (next : r.block = lineFeed :: more) :
      Moved r .scan { r with
        block := more, drain := .start, stage := .waiting (lineFeed :: r.drain.held).reverse }
  | last (reading : r.stage = .reading) (looked : r.block = []) (ended : r.unread = [])
      (held : r.drain.held ≠ []) :
      Moved r .close { r with drain := .start, stage := .waiting r.drain.held.reverse }
  | ended (reading : r.stage = .reading) (looked : r.block = []) (ended : r.unread = [])
      (none : r.drain.held = []) :
      Moved r .close { r with drain := .start, stage := .finished true }
  | failed (idle : r.isIdle = true) : Moved r .fail { r with stage := .finished false }
  | cut (told : r.aborted = true) (waits : r.isWaiting = true) :
      Moved r .cut { r with stage := .finished false }

theorem moved_of_move (h : r.move m = some r') : Moved r m r' := by
  cases m with
  | read size =>
    simp only [move] at h
    split at h
    · rename_i can
      obtain ⟨reading, looked⟩ := isIdle_iff.mp can.1
      exact Option.some.inj h ▸ .read size reading looked
    · cases h
  | scan =>
    simp only [move] at h
    split at h
    · rename_i b more reading next
      by_cases feed : b = lineFeed
      · subst feed
        rw [if_pos rfl, Drain.feedByte, if_pos rfl] at h
        exact Option.some.inj h ▸ .line reading next
      · rw [if_neg feed, Drain.feedByte, if_neg feed] at h
        exact Option.some.inj h ▸ .byte reading next feed
    · cases h
  | close =>
    simp only [move] at h
    split at h
    · rename_i can
      obtain ⟨reading, looked⟩ := isIdle_iff.mp can.1
      by_cases none : r.drain.held = []
      · rw [if_pos none] at h
        exact Option.some.inj h ▸ .ended reading looked can.2 none
      · rw [if_neg none] at h
        exact Option.some.inj h ▸ .last reading looked can.2 none
    · cases h
  | fail =>
    simp only [move] at h
    split at h
    · rename_i can
      exact Option.some.inj h ▸ .failed can
    · cases h
  | cut =>
    simp only [move] at h
    split at h
    · rename_i can
      exact Option.some.inj h ▸ .cut can.1 can.2
    · cases h

/-- The lines that a reader has put, as they stand to its stream. -/
inductive Faithful (stream : Bytes) (done : List (List Char)) (r : Reader) : Prop where
  | busy (going : r.stage.isFinished = false) (plain : lineFeed ∉ r.drain.held)
      (all : done ++ r.ahead = lines stream)
  | whole (finished : r.stage = .finished true) (all : done = lines stream)
  | left (finished : r.stage = .finished false) (some : done <+: lines stream)

theorem faithful_start (stream : Bytes) : (start stream).Faithful stream [] :=
  .busy rfl List.not_mem_nil rfl

theorem Faithful.le (h : r.Faithful stream done) : done <+: lines stream := by
  cases h with
  | busy _ _ all => exact ⟨_, all⟩
  | whole _ all => exact all ▸ List.prefix_rfl
  | left _ some => exact some

theorem Faithful.whole_of_finished (h : r.Faithful stream done)
    (finished : r.stage = .finished true) : done = lines stream := by
  cases h with
  | busy going _ _ => rw [finished] at going; cases going
  | whole _ all => exact all
  | left other _ => rw [finished] at other; cases other

theorem Faithful.of_going (h : r.Faithful stream done) (going : r.stage.isFinished = false) :
    lineFeed ∉ r.drain.held ∧ done ++ r.ahead = lines stream := by
  cases h with
  | busy _ plain all => exact ⟨plain, all⟩
  | whole finished _ | left finished _ => rw [finished] at going; cases going

/-- A reader that stays at work loses no line and makes none up. -/
theorem Faithful.keep (h : r.Faithful stream done) (going : r.stage.isFinished = false)
    (going' : r'.stage.isFinished = false)
    (plain : lineFeed ∉ r.drain.held → lineFeed ∉ r'.drain.held)
    (same : lineFeed ∉ r.drain.held → r'.ahead = r.ahead) : r'.Faithful stream done := by
  obtain ⟨clean, all⟩ := h.of_going going
  exact .busy going' (plain clean) (same clean ▸ all)

theorem Faithful.moved (h : r.Faithful stream done) (moved : Moved r m r') :
    r'.Faithful stream done := by
  -- A line that is made is the first of those that the bytes before it would have been cut into.
  cases moved with
  | read size reading looked =>
    have going : r.stage.isFinished = false := reading ▸ rfl
    refine h.keep going going id fun _ => ?_
    simp only [ahead, rest, looked, List.take_append_drop, List.nil_append]
  | @byte b more reading next inside =>
    refine h.keep (reading ▸ rfl) rfl (fun clean => ?_) fun _ => ?_
    · exact fun hm => (List.mem_cons.mp hm).elim (fun same => inside same.symm) clean
    · simp only [ahead, rest, reading, next, List.reverse_cons, List.append_assoc,
        List.cons_append, List.nil_append]
  | @line more reading next =>
    refine h.keep (reading ▸ rfl) rfl (fun _ => List.not_mem_nil) fun clean => ?_
    have clean' : lineFeed ∉ r.drain.held.reverse := fun hm => clean (List.mem_reverse.mp hm)
    simp only [ahead, rest, reading, next, List.reverse_cons, List.cons_append,
      lines_append_cons clean']
    rfl
  | last reading looked ended held =>
    refine h.keep (reading ▸ rfl) rfl (fun _ => List.not_mem_nil) fun clean => ?_
    have clean' : lineFeed ∉ r.drain.held.reverse := fun hm => clean (List.mem_reverse.mp hm)
    have held' : r.drain.held.reverse ≠ [] := fun none => held (List.reverse_eq_nil_iff.mp none)
    simp only [ahead, rest, reading, looked, ended, List.append_nil,
      lines_of_notMem clean' held']
    rfl
  | ended reading looked ended none =>
    obtain ⟨_, all⟩ := h.of_going (reading ▸ rfl)
    refine .whole rfl ?_
    simpa only [ahead, rest, reading, looked, ended, none, Stage.line, List.append_nil,
      List.reverse_nil, lines_nil] using all
  | failed idle => exact .left rfl h.le
  | cut told waits => exact .left rfl h.le

theorem unlocked_of_isWaiting (h : r.isWaiting = true) :
    r.stage.isLocked = false ∧ r.stage.isFinished = false := by
  unfold isWaiting at h
  split at h
  · rename_i raw waits
    rw [waits]
    exact ⟨rfl, rfl⟩
  · rw [(isIdle_iff.mp h).1]
    exact ⟨rfl, rfl⟩

/-- A reader that does something on its own does not have the lock, and does not get it. -/
theorem Moved.unlocked (h : Moved r m r') :
    r.stage.isLocked = false ∧ r'.stage.isLocked = false ∧ r.stage.isFinished = false := by
  have atRest (reading : r.stage = .reading) :
      r.stage.isLocked = false ∧ r.stage.isFinished = false := by
    rw [reading]
    exact ⟨rfl, rfl⟩
  cases h with
  | read size reading looked =>
    exact ⟨(atRest reading).1, (atRest reading).1, (atRest reading).2⟩
  | byte reading | line reading | last reading | ended reading =>
    exact ⟨(atRest reading).1, rfl, (atRest reading).2⟩
  | failed idle =>
    obtain ⟨loose, going⟩ := atRest (isIdle_iff.mp idle).1
    exact ⟨loose, rfl, going⟩
  | cut told waits =>
    obtain ⟨loose, going⟩ := unlocked_of_isWaiting waits
    exact ⟨loose, rfl, going⟩

/-- A reader ends before its stream only if it fails to read on, or is told to end. -/
theorem Moved.calm (h : Moved r m r') (free : r.aborted = false) (whole : r.stage ≠ .finished false)
    (fine : m ≠ .fail) : r'.aborted = false ∧ r'.stage ≠ .finished false := by
  cases h with
  | read size => exact ⟨free, whole⟩
  | byte | line | last => exact ⟨free, Stage.noConfusion⟩
  | ended => exact ⟨free, by simp⟩
  | failed idle => exact absurd rfl fine
  | cut told waits => exact absurd (told.symm.trans free) (by decide)

end Reader

end TestBench.Child
