import TestBench.Proofs.Child.Reader
/-!
# Two readers at one text

What each event does, and what all of them keep to: a line is put as a whole before the lock is free
again, the readers put the lines of their streams in their order, and when the text is taken both
are over. A reader that is not disturbed comes to the end of its stream.
-/
namespace TestBench.Child

variable {streams : Stream → Bytes} {s t : Stream} {r : Reader} {c c' : Readers}
  {merged : List (Stream × List Char)} {raw : Bytes}

/-- The lines of one stream among those of both. -/
def linesOf (s : Stream) (merged : List (Stream × List Char)) : List (List Char) :=
  (merged.filter (·.1 = s)).map (·.2)

def joined (merged : List (Stream × List Char)) : List Char := merged.flatMap (·.2)

theorem linesOf_append (s : Stream) (xs ys : List (Stream × List Char)) :
    linesOf s (xs ++ ys) = linesOf s xs ++ linesOf s ys := by
  rw [linesOf, List.filter_append, List.map_append]
  rfl

theorem linesOf_self (s : Stream) (line : List Char) : linesOf s [(s, line)] = [line] := by
  simp [linesOf]

theorem linesOf_other (other : s ≠ t) (line : List Char) : linesOf t [(s, line)] = [] := by
  simp [linesOf, other]

/-- What ends a reader before its stream: an abort, or a stream that cannot be read on. -/
def Event.disturbs (s : Stream) : Event → Bool
  | .move t m => t = s && m = .fail
  | .leave killed => killed
  | .expire => true
  | .lock _ | .put _ | .release _ | .join | .take => false

/-- Which readers the bench has seen end. -/
def Phase.hasJoined : Phase → Stream → Bool
  | .running, _ | .joining .stdout, _ => false
  | .joining .stderr, s => s = .stdout
  | .copying, _ | .taken _, _ => true

namespace Readers

theorem setReader_own (c : Readers) (s : Stream) (r : Reader) : (c.setReader s r).reader s = r :=
  if_pos rfl

theorem setReader_other (other : t ≠ s) (c : Readers) (r : Reader) :
    (c.setReader s r).reader t = c.reader t := if_neg other

theorem abort_stage (c : Readers) (s t : Stream) :
    ((c.abort s).reader t).stage = (c.reader t).stage := by
  by_cases same : t = s
  · rw [same, abort, setReader_own]
  · rw [abort, setReader_other same]

/-- What may happen, and what comes of it. -/
inductive Stepped (c : Readers) : Event → Readers → Prop where
  | move {s : Stream} {m : Move} {r : Reader} (moved : (c.reader s).Moved m r) :
      Stepped c (.move s m) (c.setReader s r)
  | lock {s : Stream} {raw : Bytes} (waits : (c.reader s).stage = .waiting raw)
      (free : c.lock = none) :
      Stepped c (.lock s) ({ c with lock := some s }.setStage s (.holding raw))
  | put {s : Stream} {raw : Bytes} (holds : (c.reader s).stage = .holding raw) :
      Stepped c (.put s) ({ c with text := c.text ++ bareLine raw }.setStage s (.putting raw))
  | release {s : Stream} {raw : Bytes} (puts : (c.reader s).stage = .putting raw) :
      Stepped c (.release s)
        ({ c with text := c.text ++ ['\n'], lock := none }.setStage s .reading)
  | exited (running : c.phase = .running) :
      Stepped c (.leave false) { c with phase := .joining .stdout }
  | killed (running : c.phase = .running) :
      Stepped c (.leave true) { (c.abort .stdout).abort .stderr with phase := .joining .stdout }
  | expire {s : Stream} (joining : c.phase = .joining s) : Stepped c .expire (c.abort s)
  | join {s : Stream} (joining : c.phase = .joining s)
      (finished : (c.reader s).stage.isFinished = true) :
      Stepped c .join { c with phase := .after s }
  | take (copying : c.phase = .copying) (free : c.lock = none) :
      Stepped c .take { c with phase := .taken (.ofList c.text) }

theorem stepped_of_step {e : Event} (h : c.step e = some c') : Stepped c e c' := by
  cases e with
  | move s m =>
    obtain ⟨r, moved, rfl⟩ := Option.map_eq_some_iff.mp h
    exact .move (Reader.moved_of_move moved)
  | lock s =>
    simp only [step] at h
    split at h
    · exact Option.some.inj h ▸ .lock ‹_› ‹_›
    · cases h
  | put s =>
    simp only [step] at h
    split at h
    · exact Option.some.inj h ▸ .put ‹_›
    · cases h
  | release s =>
    simp only [step] at h
    split at h
    · exact Option.some.inj h ▸ .release ‹_›
    · cases h
  | leave killed =>
    simp only [step] at h
    split at h
    · rename_i running
      cases killed with
      | false => exact Option.some.inj h ▸ .exited running
      | true => exact Option.some.inj h ▸ .killed running
    · cases h
  | expire =>
    simp only [step] at h
    split at h
    · exact Option.some.inj h ▸ .expire ‹_›
    · cases h
  | join =>
    simp only [step] at h
    split at h
    · split at h
      · exact Option.some.inj h ▸ .join ‹_› ‹_›
      · cases h
    · cases h
  | take =>
    simp only [step] at h
    split at h
    · rename_i can
      exact Option.some.inj h ▸ .take can.1 can.2
    · cases h

/-- What stands in the text after its last whole line. -/
def begun (c : Readers) : List Char := c.lock.elim [] fun s => (c.reader s).stage.begun

/-- The lock is where a reader is that puts a line. The text is the lines that were put, and what
that reader has begun. The bench has joined those readers only that are over. -/
structure Sound (streams : Stream → Bytes) (merged : List (Stream × List Char)) (c : Readers) :
    Prop where
  readers : ∀ s, (c.reader s).Faithful (streams s) (linesOf s merged)
  owner : ∀ s, (c.reader s).stage.isLocked = true ↔ c.lock = some s
  text : c.text = joined merged ++ c.begun
  finished : ∀ s, c.phase.hasJoined s = true → (c.reader s).stage.isFinished = true
  taken : ∀ x, c.phase = .taken x → x = .ofList c.text

theorem sound_start (streams : Stream → Bytes) : Sound streams [] (start streams) := by
  refine ⟨fun s => Reader.faithful_start _, fun s => ⟨fun h => ?_, fun h => ?_⟩, rfl,
    fun s joined => ?_, fun x taken => ?_⟩
  · cases h
  · cases h
  · cases joined
  · cases taken

theorem Sound.unlocked_of_free (h : Sound streams merged c) (free : c.lock = none) (s : Stream) :
    (c.reader s).stage.isLocked = false := by
  rw [← Bool.not_eq_true, h.owner s, free]
  exact fun owned => by cases owned

/-- Another reader than the one that has the lock is not putting a line. -/
theorem Sound.unlocked_of_other (h : Sound streams merged c) (owned : c.lock = some s)
    (other : t ≠ s) : (c.reader t).stage.isLocked = false := by
  rw [← Bool.not_eq_true, h.owner t, owned]
  exact fun same => other (Option.some.inj same).symm

/-- While a reader is at work, the bench has not joined it. -/
theorem Sound.not_joined (h : Sound streams merged c)
    (going : (c.reader s).stage.isFinished = false) : c.phase.hasJoined s = false := by
  cases joined : c.phase.hasJoined s with
  | false => rfl
  | true => rw [h.finished s joined] at going; cases going

theorem Sound.setReader (h : Sound streams merged c)
    (locked : r.stage.isLocked = (c.reader s).stage.isLocked)
    (begun : r.stage.begun = (c.reader s).stage.begun)
    (finished : (c.reader s).stage.isFinished = true → r.stage.isFinished = true)
    (faithful : r.Faithful (streams s) (linesOf s merged)) :
    Sound streams merged (c.setReader s r) := by
  refine ⟨fun t => ?_, fun t => ?_, ?_, fun t joined => ?_, h.taken⟩
  · by_cases same : t = s
    · simpa only [Readers.setReader, same, if_true] using faithful
    · simpa only [Readers.setReader, same, if_false] using h.readers t
  · by_cases same : t = s
    · simpa only [Readers.setReader, same, if_true, locked] using h.owner s
    · simpa only [Readers.setReader, same, if_false] using h.owner t
  · rw [show (c.setReader s r).text = c.text from rfl, h.text, Readers.begun, Readers.begun]
    cases owned : c.lock with
    | none => simp only [Readers.setReader, owned, Option.elim_none]
    | some t =>
      by_cases same : t = s
      · simp only [Readers.setReader, owned, same, Option.elim_some, if_true, begun]
      · simp only [Readers.setReader, owned, same, Option.elim_some, if_false]
  · by_cases same : t = s
    · simpa only [Readers.setReader, same, if_true] using finished (h.finished s (same ▸ joined))
    · simpa only [Readers.setReader, same, if_false] using h.finished t joined

theorem Sound.moved {m : Move} (h : Sound streams merged c) (moved : (c.reader s).Moved m r) :
    Sound streams merged (c.setReader s r) := by
  obtain ⟨loose, loose', going⟩ := moved.unlocked
  refine h.setReader (loose'.trans loose.symm) ?_ ?_ ((h.readers s).moved moved)
  · rw [Stage.begun_of_unlocked loose, Stage.begun_of_unlocked loose']
  · rw [going]
    exact fun finished => by cases finished

theorem Sound.abort (h : Sound streams merged c) (s : Stream) :
    Sound streams merged (c.abort s) := by
  refine h.setReader (r := { c.reader s with aborted := true }) rfl rfl id ?_
  cases h.readers s with
  | busy going plain all => exact .busy going plain all
  | whole finished all => exact .whole finished all
  | left finished some => exact .left finished some

theorem Sound.setPhase {p : Phase} (h : Sound streams merged c)
    (finished : ∀ s, p.hasJoined s = true → (c.reader s).stage.isFinished = true)
    (taken : ∀ x, p = .taken x → x = .ofList c.text) :
    Sound streams merged { c with phase := p } :=
  ⟨h.readers, h.owner, h.text, finished, taken⟩

/-- A reader goes on while no other one has the lock. It has the lock afterwards if it is to put a
line or is at it. -/
theorem Sound.restage (stage : Stage) {lines : List (Stream × List Char)} {now : List Char}
    (h : Sound streams merged c) (going : (c.reader s).stage.isFinished = false)
    (alone : ∀ t, t ≠ s → (c.reader t).stage.isLocked = false)
    (faithful : { c.reader s with stage }.Faithful (streams s) (linesOf s lines))
    (others : ∀ t, t ≠ s → linesOf t lines = linesOf t merged)
    (stands : now = joined lines ++ stage.begun) :
    Sound streams lines ({ c with
      text := now, lock := if stage.isLocked then some s else none }.setStage s stage) := by
  have absent := h.not_joined going
  refine ⟨fun t => ?_, fun t => ?_, ?_, fun t joined => ?_, fun x taken => ?_⟩
  · by_cases same : t = s
    · simpa only [setStage, Readers.setReader, same, if_true] using faithful
    · simpa only [setStage, Readers.setReader, same, if_false, others t same] using h.readers t
  · by_cases same : t = s
    · simp [setStage, Readers.setReader, same]
    · have apart : ¬(stage.isLocked = true ∧ s = t) := fun both => same both.2.symm
      simp [setStage, Readers.setReader, same, alone t same, apart]
  · cases locked : stage.isLocked with
    | true => simp [setStage, Readers.setReader, begun, stands]
    | false => simp [setStage, Readers.setReader, begun, stands, Stage.begun_of_unlocked locked]
  · by_cases same : t = s
    · have := absent.symm.trans (same ▸ joined)
      cases this
    · simpa only [setStage, Readers.setReader, same, if_false] using h.finished t joined
  · rw [show c.phase = .taken x from taken] at absent
    cases absent

theorem Sound.join (h : Sound streams merged c) (joining : c.phase = .joining s)
    (finished : (c.reader s).stage.isFinished = true) :
    Sound streams merged { c with phase := .after s } := by
  have before := h.finished
  rw [joining] at before
  refine h.setPhase (fun t joined => ?_) fun x taken => ?_
  · cases s with
    | stdout => exact of_decide_eq_true joined ▸ finished
    | stderr =>
      cases t with
      | stdout => exact before .stdout rfl
      | stderr => exact finished
  · cases s <;> cases taken

theorem Sound.lock (h : Sound streams merged c) (waits : (c.reader s).stage = .waiting raw)
    (free : c.lock = none) :
    Sound streams merged ({ c with lock := some s }.setStage s (.holding raw)) := by
  have text := h.text
  simp only [begun, free, Option.elim_none] at text
  refine h.restage (.holding raw) (waits ▸ rfl) (fun t _ => h.unlocked_of_free free t) ?_
    (fun _ _ => rfl) text
  refine (h.readers s).keep (waits ▸ rfl) rfl id fun _ => ?_
  rw [Reader.ahead, Reader.ahead, waits]
  rfl

theorem Sound.put (h : Sound streams merged c) (holds : (c.reader s).stage = .holding raw) :
    Sound streams merged
      ({ c with text := c.text ++ bareLine raw }.setStage s (.putting raw)) := by
  have owned : c.lock = some s := (h.owner s).mp (holds ▸ rfl)
  have text := h.text
  simp only [begun, owned, Option.elim_some, holds, Stage.begun, List.append_nil] at text
  rw [show ({ c with text := c.text ++ bareLine raw } : Readers) =
    { c with text := c.text ++ bareLine raw, lock := some s } by rw [← owned]]
  refine h.restage (.putting raw) (holds ▸ rfl) (fun t => h.unlocked_of_other owned) ?_
    (fun _ _ => rfl) (congrArg (· ++ bareLine raw) text)
  refine (h.readers s).keep (holds ▸ rfl) rfl id fun _ => ?_
  rw [Reader.ahead, Reader.ahead, holds]
  rfl

theorem Sound.release (h : Sound streams merged c) (puts : (c.reader s).stage = .putting raw) :
    Sound streams (merged ++ [(s, normalLine raw)])
      ({ c with text := c.text ++ ['\n'], lock := none }.setStage s .reading) := by
  have owned : c.lock = some s := (h.owner s).mp (puts ▸ rfl)
  have text := h.text
  simp only [begun, owned, Option.elim_some, puts, Stage.begun] at text
  refine h.restage .reading (puts ▸ rfl) (fun t => h.unlocked_of_other owned) ?_ ?_ ?_
  · obtain ⟨plain, all⟩ := (h.readers s).of_going (puts ▸ rfl)
    refine .busy rfl plain ?_
    rw [← all, linesOf_append, linesOf_self, Reader.ahead, Reader.ahead, puts, List.append_assoc]
    rfl
  · intro t other
    rw [linesOf_append, linesOf_other (Ne.symm other), List.append_nil]
  · simp only [text, joined, List.flatMap_append, List.flatMap_singleton, normalLine_eq,
      List.append_assoc, Stage.begun, List.append_nil]

/-- The line that an event puts, if it ends one. -/
def ended (c : Readers) : Event → List (Stream × List Char)
  | .release s => (c.reader s).stage.line.map (s, ·)
  | .move .. | .lock _ | .put _ | .leave _ | .expire | .join | .take => []

/-- The lines that are put in a run, in their order. -/
def endedIn (c : Readers) : List Event → List (Stream × List Char)
  | [] => []
  | e :: es => c.ended e ++ (c.step e).elim [] (·.endedIn es)

/-- Every event puts one whole line, or none. -/
theorem Sound.step {e : Event} (h : Sound streams merged c) (step : c.step e = some c') :
    Sound streams (merged ++ c.ended e) c' := by
  have still {c' : Readers} (h : Sound streams merged c') : Sound streams (merged ++ []) c' :=
    (List.append_nil merged).symm ▸ h
  cases stepped_of_step step with
  | move moved => exact still (h.moved moved)
  | lock waits free => exact still (h.lock waits free)
  | put holds => exact still (h.put holds)
  | release puts =>
    rw [ended, puts]
    exact h.release puts
  | exited running => exact still (h.setPhase (fun _ joined => by cases joined) nofun)
  | killed running =>
    have told := (h.abort .stdout).abort .stderr
    exact still (told.setPhase (fun _ joined => by cases joined) nofun)
  | expire joining => exact still (h.abort _)
  | join joining finished => exact still (h.join joining finished)
  | take copying free =>
    have finished := h.finished
    rw [copying] at finished
    exact still (h.setPhase (fun s _ => finished s rfl) fun x taken => (Phase.taken.inj taken).symm)

theorem Sound.run {es : List Event} (h : Sound streams merged c) (run : c.run es = some c') :
    Sound streams (merged ++ c.endedIn es) c' := by
  induction es generalizing c merged with
  | nil =>
    obtain rfl := Option.some.inj run
    exact (List.append_nil merged).symm ▸ h
  | cons e es ih =>
    -- What the first event puts stands before what the others put.
    obtain ⟨next, first, rest⟩ := Option.bind_eq_some_iff.mp run
    rw [endedIn, first, Option.elim_some, ← List.append_assoc]
    exact ih (h.step first) rest

theorem exists_sound_of_run {es : List Event} (run : (start streams).run es = some c) :
    ∃ merged, Sound streams merged c := ⟨_, (sound_start streams).run run⟩

theorem Sound.text_of_taken (h : Sound streams merged c) (taken : c.phase = .taken x) :
    c.text = joined merged := by
  -- A reader that had the lock would be at work, but both are over.
  have free : c.lock = none := by
    cases owned : c.lock with
    | none => rfl
    | some s =>
      have locked := (h.owner s).mpr owned
      obtain ⟨whole, finished⟩ := Stage.exists_of_isFinished (h.finished s (taken ▸ rfl))
      rw [finished] at locked
      cases locked
  rw [h.text, begun, free, Option.elim_none, List.append_nil]

/-- Once the text is taken nothing happens any more. -/
theorem Sound.still (h : Sound streams merged c) (taken : c.phase = .taken x) (e : Event) :
    c.step e = none := by
  have finished (s : Stream) : (c.reader s).stage.isFinished = true := h.finished s (taken ▸ rfl)
  cases happens : c.step e with
  | none => rfl
  | some c' =>
    cases stepped_of_step happens with
    | @move s m r moved => exact absurd (finished s) (by rw [moved.unlocked.2.2]; decide)
    | @lock s raw stage | @put s raw stage | @release s raw stage =>
      have := finished s
      rw [stage] at this
      cases this
    | exited phase | killed phase | expire phase | join phase | take phase =>
      rw [taken] at phase
      cases phase

theorem Sound.run_still {es : List Event} (h : Sound streams merged c) (taken : c.phase = .taken x)
    (run : c.run es = some c') : c' = c := by
  cases es with
  | nil => exact (Option.some.inj run).symm
  | cons e es =>
    rw [Readers.run, h.still taken e] at run
    cases run

/-- A reader is not told to end, and has not ended before its stream. -/
def Calm (s : Stream) (c : Readers) : Prop :=
  (c.reader s).aborted = false ∧ (c.reader s).stage ≠ .finished false

theorem Calm.setReader (h : Calm s c)
    (own : t = s → r.aborted = false ∧ r.stage ≠ .finished false) : Calm s (c.setReader t r) := by
  by_cases same : s = t
  · simpa only [Calm, Readers.setReader, same, if_true] using own same.symm
  · simpa only [Calm, Readers.setReader, same, if_false] using h

theorem Calm.setStage {stage : Stage} (h : Calm s c) (going : stage ≠ .finished false) :
    Calm s (c.setStage t stage) :=
  h.setReader fun same => ⟨same ▸ h.1, going⟩

theorem Calm.step {e : Event} (h : Calm s c) (quiet : e.disturbs s = false)
    (step : c.step e = some c') : Calm s c' := by
  cases stepped_of_step step with
  | @move t m r moved =>
    refine h.setReader fun same => ?_
    subst same
    exact moved.calm h.1 h.2 fun fails => by simp [Event.disturbs, fails] at quiet
  | lock | put | release =>
    exact Calm.setStage (c := { c with text := _, lock := _ }) h (by simp)
  | killed | expire => cases quiet
  | exited | join | take => exact h

theorem Calm.run {es : List Event} (h : Calm s c) (quiet : ∀ e ∈ es, e.disturbs s = false)
    (run : c.run es = some c') : Calm s c' := by
  induction es generalizing c with
  | nil => exact Option.some.inj run ▸ h
  | cons e es ih =>
    obtain ⟨next, first, rest⟩ := Option.bind_eq_some_iff.mp run
    exact ih (h.step (quiet e List.mem_cons_self) first)
      (fun f hf => quiet f (List.mem_cons_of_mem e hf)) rest

end Readers

end TestBench.Child
