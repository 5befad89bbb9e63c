import Mathlib
import TestBench.Proofs.Run.Session
/-!
# Stopping a run

A request to stop counts at the head of the loop and nowhere else. Whenever it is made, the run does
what a run without a request does on the items before the head that saw it, and nothing more.
-/
namespace TestBench

def Summary.totals (s : Summary) : Summary := { s with interrupted := false, duration := .zero }

theorem Summary.record_totals (s : Summary) (o : Outcome) :
    (s.record o).totals = s.totals.record o := by
  unfold Summary.record
  cases o with
  | notExecuted => rfl
  | executed exit d =>
    dsimp only [Summary.countProblem]
    split <;> rfl
  | spawnFailed e d => rfl

namespace Run

variable {s : Setup} {p q : Progress} {item : Plan.Item} {lines : List Plan.Item}

def Setup.calm (s : Setup) : Setup := { s with stop := .never }

theorem Setup.calm_silent (s : Setup) : s.calm.stop.Silent := StopRequest.never_silent

/-- What a run has done: the files it has left, the children it has started, its totals, and what it
has told. The time and the request to stop are left out. -/
structure Effects where
  files : FileSystem
  launches : List Launch
  totals : Summary
  told : List Console.Notice

namespace Progress

def told (p : Progress) : List Console.Notice := p.notices.filter fun n => n ≠ .shutdown

def effects (p : Progress) : Effects := ⟨p.files, p.launches, p.summary.totals, p.told⟩

theorem effects_eq_iff : p.effects = q.effects ↔ p.files = q.files ∧ p.launches = q.launches ∧
    p.summary.totals = q.summary.totals ∧ p.told = q.told := by
  simp only [effects, Effects.mk.injEq]

theorem rows_eq (h : p.effects = q.effects) : p.summary.rows = q.summary.rows := by
  exact congrArg (fun e : Effects => e.totals.rows) h

theorem told_tell (p : Progress) (n : Console.Notice) :
    (p.tell n).told = p.told ++ [n].filter fun n => n ≠ .shutdown := by
  simp only [told, tell, List.filter_append]

theorem told_poll (p : Progress) (r : StopRequest) : (p.poll r).told = p.told := by
  unfold poll
  split
  · rfl
  · split
    · dsimp only
      split
      · rw [told_tell]
        exact List.append_nil _
      · rfl
    · rfl

@[simp] theorem poll_effects (p : Progress) (r : StopRequest) : (p.poll r).effects = p.effects := by
  simp only [effects, poll_files, poll_launches, poll_summary, told_poll]

@[simp] theorem pull_effects (p : Progress) (r : StopRequest) : (p.pull r).effects = p.effects :=
  poll_effects _ r

@[simp] theorem interrupt_effects (p : Progress) : p.interrupt.effects = p.effects := rfl

@[simp] theorem close_effects (p : Progress) : p.close.effects = p.effects := rfl

theorem tell_congr (n : Console.Notice) (h : p.effects = q.effects) :
    (p.tell n).effects = (q.tell n).effects := by
  obtain ⟨hf, hl, ht, hn⟩ := effects_eq_iff.mp h
  refine effects_eq_iff.mpr ⟨hf, hl, ht, ?_⟩
  rw [told_tell, told_tell, hn]

theorem after_congr (l : Launch) (h : p.effects = q.effects) :
    (p.after l).effects = (q.after l).effects := by
  obtain ⟨_, hl, ht, hn⟩ := effects_eq_iff.mp h
  refine effects_eq_iff.mpr ⟨rfl, ?_, ht, hn⟩
  simp only [after, hl]

theorem announce_congr (row : Plan.Row) (h : p.effects = q.effects) :
    (p.announce row).effects = (q.announce row).effects := by
  obtain ⟨hf, hl, ht, hn⟩ := effects_eq_iff.mp h
  have hr := rows_eq h
  unfold announce
  rw [hr]
  apply tell_congr
  refine effects_eq_iff.mpr ⟨hf, hl, ?_, hn⟩
  exact congrArg (fun t : Summary => { t with rows := q.summary.rows + 1 }) ht

theorem conclude_congr (row : Plan.Row) (o : Outcome) (h : p.effects = q.effects) :
    (p.conclude row o).effects = (q.conclude row o).effects := by
  obtain ⟨hf, hl, ht, hn⟩ := effects_eq_iff.mp (tell_congr (.outcome row o) h)
  refine effects_eq_iff.mpr ⟨hf, hl, ?_, hn⟩
  simp only [conclude_summary, Summary.record_totals]
  exact congrArg (fun t : Summary => t.record o) ht

end Progress

theorem settle_effects (s : Setup) (p : Progress) : (settle s p).effects = p.effects := by
  unfold settle
  split
  · rfl
  · rw [Progress.poll_effects]
    rfl

theorem keepLog_congr (number : Nat) (row : Plan.Row) (output : String)
    (h : p.effects = q.effects) :
    (keepLog s number row output p).effects = (keepLog s.calm number row output q).effects := by
  obtain ⟨hf, hl, ht, hn⟩ := Progress.effects_eq_iff.mp h
  have hc : s.calm.context = s.context := rfl
  unfold keepLog
  rw [hc, hf]
  generalize Records.writeLog q.files (Records.logPath s.context.logDir number row.displayName)
    output = w
  obtain ⟨failure, files⟩ := w
  have hw : { p with files }.effects = { q with files }.effects :=
    Progress.effects_eq_iff.mpr ⟨rfl, hl, ht, hn⟩
  cases failure with
  | none => exact hw
  | some f => exact Progress.tell_congr _ hw

theorem afterEnabled_congr (row : Plan.Row) (i : Invocation) (h : p.effects = q.effects) :
    (afterEnabled s row i p).effects = (afterEnabled s.calm row i q).effects := by
  have hl : s.launch (p.summary.rows + 1) i p.files =
      s.calm.launch (q.summary.rows + 1) i q.files := by
    rw [Progress.rows_eq h, (Progress.effects_eq_iff.mp h).1]
    rfl
  unfold afterEnabled
  dsimp only
  rw [hl, Progress.rows_eq h, settle_effects, settle_effects]
  apply Progress.conclude_congr
  apply keepLog_congr
  rw [Progress.poll_effects, Progress.poll_effects]
  exact Progress.after_congr _ (Progress.tell_congr _ (Progress.announce_congr row h))

theorem afterDisabled_congr (row : Plan.Row) (files : FileSystem) (h : p.effects = q.effects) :
    (afterDisabled row files p).effects = (afterDisabled row files q).effects := by
  obtain ⟨_, hl, ht, hn⟩ := Progress.effects_eq_iff.mp (Progress.announce_congr row h)
  apply Progress.conclude_congr
  exact Progress.effects_eq_iff.mpr ⟨rfl, hl, ht, hn⟩

theorem afterMalformed_congr (m : Plan.Malformed) (h : p.effects = q.effects) :
    (afterMalformed m p).effects = (afterMalformed m q).effects := by
  obtain ⟨hf, hl, ht, hn⟩ := Progress.effects_eq_iff.mp (Progress.tell_congr (.malformed m) h)
  refine Progress.effects_eq_iff.mpr ⟨hf, hl, ?_, hn⟩
  exact congrArg (fun t : Summary => { t with malformed := t.malformed + 1 }) ht

inductive Turn.Alike : Turn → Turn → Prop where
  | onward {p q : Progress} (h : p.effects = q.effects) : Alike (.onward p) (.onward q)
  | failed {f : Failure} {p q : Progress} (h : p.effects = q.effects) :
      Alike (.failed f p) (.failed f q)

theorem shown_congr (item : Plan.Item) (h : p.effects = q.effects) :
    (p.shown item).effects = (q.shown item).effects := by
  match item with
  | .error f => exact h
  | .ok (.malformed m) => exact h
  | .ok (.row row) => exact Progress.announce_congr row h

theorem refusal_calm {fs : FileSystem} {f : Failure} (h : Refusal s fs item f) :
    Refusal s.calm fs item f := by
  cases h with
  | unreadable => exact .unreadable f
  | undefined on missing => exact .undefined (s := s.calm) on missing
  | unopened off closed => exact .unopened (s := s.calm) off closed
  | unwritten off opened full => exact .unwritten (s := s.calm) off opened full

/-- What an item comes to depends on nothing but the effects so far. -/
theorem process_alike (item : Plan.Item) (h : p.effects = q.effects) :
    (process s item p).Alike (process s.calm item q) := by
  have hf := (Progress.effects_eq_iff.mp h).1
  rcases process_cases s item p with ⟨t, ht, hd⟩ | ⟨f, hr⟩
  · rw [ht]
    cases hd with
    | malformed m => exact .onward (afterMalformed_congr m h)
    | enabled on known =>
      rw [process_enabled on (s := s.calm) known]
      exact .onward (afterEnabled_congr _ _ h)
    | disabled off opened written =>
      rw [hf] at opened written
      rw [process_disabled off (s := s.calm) (Records.appendNotExecuted_ok opened written)]
      exact .onward (afterDisabled_congr _ _ h)
  · rw [process_refused hr]
    rw [hf] at hr
    rw [process_refused (refusal_calm hr)]
    exact .failed (shown_congr item h)

/-- An item leaves the mark of an interruption as it is; only the head of the loop sets it. -/
theorem process_interrupted (h : process s item p = .onward q) :
    q.summary.interrupted = p.summary.interrupted := by
  have record (t : Summary) (o : Outcome) : (t.record o).interrupted = t.interrupted := by
    unfold Summary.record
    cases o with
    | notExecuted => rfl
    | executed exit d =>
      dsimp only [Summary.countProblem]
      split <;> rfl
    | spawnFailed e d => rfl
  cases process_onward h with
  | malformed m => rfl
  | enabled on known => rw [afterEnabled_summary, record]
  | disabled off opened written => rfl

/-- The head of the loop before an item of a list sees the request. -/
def SeenAt (s : Setup) (lines : List Plan.Item) (p : Progress) (i : Nat) : Prop :=
  ∃ q, advance s (lines.take i) p = .onward q ∧ (q.pull s.stop).stopped = true

theorem seenAt_zero : SeenAt s lines p 0 ↔ (p.pull s.stop).stopped = true := by
  simp only [SeenAt, List.take_zero, advance, Turn.onward.injEq, exists_eq_left']

theorem seenAt_succ (h : takeItem s item p = .onward q) (i : Nat) :
    SeenAt s (item :: lines) p (i + 1) ↔ SeenAt s lines q i := by
  simp only [SeenAt, List.take_succ_cons, advance_cons s item _ h]

theorem not_seenAt_of_failed {f : Failure} (h : takeItem s item p = .failed f q) (i : Nat) :
    ¬ SeenAt s (item :: lines) p (i + 1) := by
  rintro ⟨t, ht, _⟩
  simp only [List.take_succ_cons, advance, h] at ht
  cases ht

inductive Finish.Alike : Finish → Finish → Prop where
  | completed {p q : Progress} (h : p.effects = q.effects) : Alike (.completed p) (.completed q)
  | failed {f : Failure} {p q : Progress} (h : p.effects = q.effects) :
      Alike (.failed f p) (.failed f q)

/-- A run does what the run without a request, from another state with the same effects, does on the
first items: on those before the first head that sees the request, or on all of them. -/
structure StoppedAfter (s : Setup) (lines : List Plan.Item) (p q : Progress) (k : Nat) : Prop where
  le : k ≤ lines.length
  unseen : ∀ i < k, ¬ SeenAt s lines p i
  seen : k < lines.length → SeenAt s lines p k
  alike : (items s lines p).Alike (items s.calm (lines.take k) q)
  interrupted : ∀ t, items s lines p = .completed t →
    (t.summary.interrupted = true ↔ k < lines.length)

theorem StoppedAfter.atOnce (h : p.effects = q.effects) (seen : (p.pull s.stop).stopped = true)
    (item : Plan.Item) (rest : List Plan.Item) : StoppedAfter s (item :: rest) p q 0 := by
  have ht := takeItem_seen seen item
  refine ⟨Nat.zero_le _, fun i hi => absurd hi (Nat.not_lt_zero i), fun _ => seenAt_zero.mpr seen,
    ?_, ?_⟩
  · simp only [items, ht, List.take_zero]
    apply Finish.Alike.completed
    simp only [Progress.close_effects, Progress.interrupt_effects, Progress.pull_effects, h]
  · intro t hc
    simp only [items, ht, Finish.completed.injEq] at hc
    rw [← hc]
    exact iff_of_true rfl (Nat.succ_pos _)

theorem StoppedAfter.fatal {f : Failure} {p' q' : Progress} (h : p'.effects = q'.effects)
    (unseen : (p.pull s.stop).stopped = false) (item : Plan.Item) (rest : List Plan.Item)
    (hp : takeItem s item p = .failed f p') (hq : takeItem s.calm item q = .failed f q') :
    StoppedAfter s (item :: rest) p q (rest.length + 1) := by
  refine ⟨Nat.le_refl _, ?_, fun hk => absurd hk (Nat.lt_irrefl _), ?_, ?_⟩
  · intro i _
    cases i with
    | zero =>
      rw [seenAt_zero, unseen]
      exact Bool.false_ne_true
    | succ i => exact not_seenAt_of_failed hp i
  · simp only [items, hp, hq, List.take_succ_cons]
    exact .failed h
  · intro t hc
    simp only [items, hp] at hc
    cases hc

theorem StoppedAfter.step {p' q' : Progress} {k : Nat} {rest : List Plan.Item}
    (unseen : (p.pull s.stop).stopped = false) (hp : takeItem s item p = .onward p')
    (hq : takeItem s.calm item q = .onward q') (h : StoppedAfter s rest p' q' k) :
    StoppedAfter s (item :: rest) p q (k + 1) := by
  refine ⟨Nat.succ_le_succ h.le, ?_, ?_, ?_, ?_⟩
  · intro i hi
    cases i with
    | zero =>
      rw [seenAt_zero, unseen]
      exact Bool.false_ne_true
    | succ i =>
      rw [seenAt_succ hp]
      exact h.unseen i (Nat.lt_of_succ_lt_succ hi)
  · intro hk
    rw [seenAt_succ hp]
    exact h.seen (Nat.lt_of_succ_lt_succ hk)
  · simp only [items, hp, hq, List.take_succ_cons]
    exact h.alike
  · intro t hc
    simp only [items, hp] at hc
    rw [h.interrupted t hc, List.length_cons]
    exact Nat.succ_lt_succ_iff.symm

theorem exists_stoppedAfter (s : Setup) (lines : List Plan.Item) (h : p.effects = q.effects)
    (hi : p.summary.interrupted = false) (hq : q.stopped = false) :
    ∃ k, StoppedAfter s lines p q k := by
  -- The run without the request keeps the same effects, and never sees a request of its own.
  induction lines generalizing p q with
  | nil =>
    refine ⟨0, Nat.le_refl _, fun i hk => absurd hk (Nat.not_lt_zero i),
      fun hk => absurd hk (Nat.lt_irrefl _), .completed h, ?_⟩
    intro t hc
    simp only [items, Finish.completed.injEq] at hc
    rw [← hc]
    refine iff_of_false ?_ (Nat.lt_irrefl _)
    simp only [Progress.close, hi, Bool.false_eq_true, not_false_eq_true]
  | cons item rest ih =>
    cases hs : (p.pull s.stop).stopped with
    | true => exact ⟨0, .atOnce h hs item rest⟩
    | false =>
      have hu : (q.pull s.calm.stop).stopped = false := by
        rw [Progress.pull_silent s.calm_silent]
        exact hq
      have hp := takeItem_unseen hs item
      have hq' := takeItem_unseen hu item
      have alike : (process s item (p.pull s.stop)).Alike
          (process s.calm item (q.pull s.calm.stop)) := by
        apply process_alike
        rw [Progress.pull_effects, Progress.pull_effects, h]
      generalize hpt : process s item (p.pull s.stop) = t at hp alike
      generalize hqt : process s.calm item (q.pull s.calm.stop) = u at hq' alike
      cases alike with
      | @onward p' q' he =>
        have hi' : p'.summary.interrupted = false := by
          rw [process_interrupted hpt, Progress.pull_summary, hi]
        have hs' : q'.stopped = false := by rw [process_stopped s.calm_silent hqt, hu]
        obtain ⟨k, hk⟩ := ih he hi' hs'
        exact ⟨k + 1, .step hs hp hq' hk⟩
      | failed he => exact ⟨_, .fatal he hs item rest hp hq'⟩

theorem conduct_exit {w : Cli.Surroundings} {args : Cli.Arguments} {fs ready : FileSystem}
    {config : Config} {o : Cli.Opened} (inForce : Locale)
    (resolved : Config.resolve fs args.config = .ok config)
    (opened : Cli.openRun w.env fs args config = .ok o)
    (prepared : Records.prepare fs o.context = (none, ready)) :
    (Cli.conduct w inForce args fs).exit =
      match plan (w.setup config o) w.bound o.reader (.start ready) with
      | .completed p => .ok (Cli.exitCode p.summary)
      | .failed f _ => .error f
      | .unfinished _ => .ok 0 := by
  rw [conduct_ready inForce resolved opened prepared]
  cases plan (w.setup config o) w.bound o.reader (.start ready) <;> rfl

/-- Whenever a request to stop is made, a run does what it would do without one on the items before
the head of the loop that sees it, and is marked as interrupted exactly if there is an item left
then. A session with such a run has the exit code of an interruption in that case only. -/
theorem run_stops_between_items :
    (∀ (s : Setup) (lines : List Plan.Item) (fs : FileSystem),
      ∃ k, StoppedAfter s lines (.start fs) (.start fs) k) ∧
    ∀ (w : Cli.Surroundings) (inForce : Locale) (args : Cli.Arguments) (fs ready : FileSystem)
      (config : Config) (o : Cli.Opened) (finish : Finish),
      Config.resolve fs args.config = .ok config →
      Cli.openRun w.env fs args config = .ok o →
      Records.prepare fs o.context = (none, ready) →
      plan (w.setup config o) w.bound o.reader (.start ready) = finish →
      (∀ q, finish ≠ .unfinished q) →
      let lines := pulled (w.setup config o) w.bound o.reader (.start ready)
      finish = items (w.setup config o) lines (.start ready) ∧
      ∃ k, StoppedAfter (w.setup config o) lines (.start ready) (.start ready) k ∧
        (Cli.conduct w inForce args fs).exit =
          match finish with
          | .failed f _ => .error f
          | _ => .ok (if k < lines.length then 130 else 0) := by
  have stops (s : Setup) (lines : List Plan.Item) (fs : FileSystem) :
      ∃ k, StoppedAfter s lines (.start fs) (.start fs) k :=
    exists_stoppedAfter s lines rfl rfl rfl
  refine ⟨stops, ?_⟩
  intro w inForce args fs ready config o finish resolved opened prepared run ends lines
  have same : finish = items (w.setup config o) lines (.start ready) := by
    rcases plan_eq_items (w.setup config o) w.bound o.reader (.start ready) with ⟨q, hq⟩ | h
    · rw [run] at hq
      exact absurd hq (ends q)
    · rw [run] at h
      exact h
  obtain ⟨k, hk⟩ := stops (w.setup config o) lines ready
  refine ⟨same, k, hk, ?_⟩
  rw [conduct_exit inForce resolved opened prepared, run]
  cases finish with
  | completed p =>
    have hi := hk.interrupted p same.symm
    simp only [Cli.exitCode, Cli.interruptedCode, hi]
  | failed f p => rfl
  | unfinished p => exact absurd rfl (ends p)

def twoRows : FileSystem :=
  ⟨[([Utf8.ofText "p"], .file 0 false)], [(0, Utf8.ofText "a,,,,\nb,,,,\n")], 1, []⟩

def twoRowsArguments : Cli.Arguments := ⟨.ofText "p", "t", none, none⟩

def twoRowsSurroundings : Cli.Surroundings :=
  ⟨[], .alike fun fs _ _ _ => ⟨.error .notUtf8, "", fs, 0⟩, .atItem 1, 0, 3⟩

def twoRowsOpened : Cli.Opened :=
  ⟨⟨.ofText "p", .file 0, 0, [], 0⟩, ⟨"t", .ofText "logs/t", .ofText "t_results.txt"⟩⟩

def twoRowsReady : FileSystem := (Records.prepare twoRows twoRowsOpened.context).2

def twoRowsFinish : Finish :=
  plan (twoRowsSurroundings.setup .standard twoRowsOpened) 3 twoRowsOpened.reader
    (.start twoRowsReady)

def Finish.isInterrupted : Finish → Bool
  | .completed p => p.summary.interrupted
  | _ => false

/-- The session takes the first row and leaves the second. -/
theorem run_stops_between_items_of_twoRows :
    ∃ k lines, StoppedAfter (twoRowsSurroundings.setup .standard twoRowsOpened) lines
        (.start twoRowsReady) (.start twoRowsReady) k ∧ k < lines.length ∧
      (Cli.conduct twoRowsSurroundings .english twoRowsArguments twoRows).exit = .ok 130 := by
  have absent : twoRows.isFile Config.standardFile = false := by cbv
  have resolved : Config.resolve twoRows twoRowsArguments.config = .ok .standard := by
    rw [show twoRowsArguments.config = none from rfl, Config.resolve, absent]
    rfl
  have interrupted : twoRowsFinish.isInterrupted = true := by cbv
  have ends : ∀ q, twoRowsFinish ≠ .unfinished q := by
    intro q h
    rw [h] at interrupted
    cases interrupted
  obtain ⟨same, k, stopped, exit⟩ := run_stops_between_items.2 twoRowsSurroundings .english
    twoRowsArguments twoRows twoRowsReady .standard twoRowsOpened twoRowsFinish resolved (by cbv)
    (Prod.ext (by cbv) rfl) rfl ends
  cases hf : twoRowsFinish with
  | completed q =>
    rw [hf] at interrupted same exit
    have left := (stopped.interrupted q same.symm).mp interrupted
    refine ⟨k, _, stopped, left, ?_⟩
    rw [exit, if_pos left]
  | failed f q =>
    rw [hf] at interrupted
    cases interrupted
  | unfinished q => exact absurd hf (ends q)

end Run
end TestBench
