import Mathlib
import TestBench.Proofs.Console.Phrases
import TestBench.Proofs.Run.Failure
/-!
# What a run tells about its rows

The totals of a run and what it prints about its rows are kept in different places. They agree at
every head of the loop and at the end, whatever the children do and whenever the run is stopped.
-/
namespace TestBench

namespace Outcome

def executions (o : Outcome) : Nat := if o = .notExecuted then 0 else 1

def omissions (o : Outcome) : Nat := if o = .notExecuted then 1 else 0

def problems (o : Outcome) : Nat := if o.isProblem then 1 else 0

theorem problems_le (o : Outcome) : o.problems ≤ o.executions := by
  cases o with
  | notExecuted => exact Nat.le_refl 0
  | executed exit d =>
    unfold problems
    split
    · exact Nat.le_refl 1
    · exact Nat.zero_le 1
  | spawnFailed e d => exact Nat.le_refl 1

theorem executions_add_omissions (o : Outcome) : o.executions + o.omissions = 1 := by
  cases o <;> rfl

end Outcome

theorem Summary.record_eq (t : Summary) (o : Outcome) :
    t.record o = { t with
      executed := t.executed + o.executions
      notExecuted := t.notExecuted + o.omissions
      runnerProblems := t.runnerProblems + o.problems } := by
  cases o with
  | notExecuted => rfl
  | executed exit d =>
    unfold record countProblem Outcome.problems
    dsimp only
    split <;> rfl
  | spawnFailed e d => rfl

namespace Console

/-- What is said about the rows of a plan: the values of their banners, and how often each of the
other messages is printed. -/
structure Account where
  banners : List (List (String × String))
  malformed : Nat
  durations : Nat
  notExecuted : Nat
  warnings : Nat

namespace Account

def zero : Account := ⟨[], 0, 0, 0, 0⟩

def append (a b : Account) : Account :=
  ⟨a.banners ++ b.banners, a.malformed + b.malformed, a.durations + b.durations,
    a.notExecuted + b.notExecuted, a.warnings + b.warnings⟩

def ofPhrases (ps : List Phrase) : Account where
  banners := (ps.filter (·.message = .rowBanner)).map (·.values)
  malformed := ps.countP (·.message = .malformedRow)
  durations := ps.countP (·.message = .testDuration)
  notExecuted := ps.countP (·.message = .notExecuted)
  warnings := ps.countP (·.message.isWarning)

def number (k : Nat) : List (String × String) := [("number", Decimal.text k)]

def ofSummary (s : Summary) : Account :=
  ⟨(List.range' 1 s.rows).map number, s.malformed, s.executed, s.notExecuted, s.runnerProblems⟩

theorem append_zero (a : Account) : a.append zero = a := by
  simp only [append, zero, List.append_nil, Nat.add_zero]

theorem ofPhrases_append (ps qs : List Phrase) :
    ofPhrases (ps ++ qs) = (ofPhrases ps).append (ofPhrases qs) := by
  simp only [ofPhrases, append, List.filter_append, List.map_append, List.countP_append]

theorem ofPhrases_outcome (name : String) (o : Outcome) :
    ofPhrases (outcomePhrases name o) = ⟨[], 0, o.executions, o.omissions, o.problems⟩ := by
  cases o with
  | executed exit d =>
    cases exit with
    | exited s =>
      cases h : s.success with
      | true =>
        have phrases : outcomePhrases name (.executed (.exited s) d) =
            [.line .testDuration [("duration", d.hms)]] := by
          rw [outcomePhrases, exitPhrases, if_pos h, List.nil_append]
        have clean : (Outcome.executed (.exited s) d).problems = 0 := by
          simp only [Outcome.problems, Outcome.isProblem, Child.Exit.success, h, Bool.not_true,
            Bool.false_eq_true, if_false]
        rw [phrases, clean]
        rfl
      | false =>
        have phrases : outcomePhrases name (.executed (.exited s) d) =
            [.line .exitedUncleanly [("name", name), ("status", s.text)],
              .line .testDuration [("duration", d.hms)]] := by
          rw [outcomePhrases, exitPhrases, h]
          rfl
        have problem : (Outcome.executed (.exited s) d).problems = 1 := by
          simp only [Outcome.problems, Outcome.isProblem, Child.Exit.success, h, Bool.not_false,
            if_true]
        rw [phrases, problem]
        rfl
    | timedOut limit => rfl
  | spawnFailed e d => rfl
  | notExecuted => rfl

theorem ofSummary_announced (s : Summary) :
    ofSummary { s with rows := s.rows + 1 } =
      (ofSummary s).append ⟨[number (s.rows + 1)], 0, 0, 0, 0⟩ := by
  simp only [ofSummary, append, List.range'_concat, List.map_append, List.map_singleton,
    Nat.add_zero, Nat.one_mul, Nat.add_comm 1 s.rows]

theorem ofSummary_record (s : Summary) (o : Outcome) :
    ofSummary (s.record o) =
      (ofSummary s).append ⟨[], 0, o.executions, o.omissions, o.problems⟩ := by
  simp only [Summary.record_eq, ofSummary, append, List.append_nil, Nat.add_zero]

theorem ofSummary_malformed (s : Summary) :
    ofSummary { s with malformed := s.malformed + 1 } = (ofSummary s).append ⟨[], 1, 0, 0, 0⟩ := by
  simp only [ofSummary, append, List.append_nil, Nat.add_zero]

end Account
end Console

namespace Run

open Console (Account Notice phrases)

variable {s : Setup} {p q t : Progress} {item : Plan.Item} {lines : List Plan.Item} {count : Nat}

/-- What has been printed about the rows is what the totals say. -/
def Honest (p : Progress) : Prop := Account.ofPhrases (phrases p.notices) = .ofSummary p.summary

namespace Honest

/-- A notice and new totals go together if the totals change by what the notice says. -/
theorem tell (h : Honest p) {n : Notice} {t : Summary}
    (agree : Account.ofSummary t = (Account.ofSummary p.summary).append (.ofPhrases n.phrases)) :
    Honest { p.tell n with summary := t } := by
  have more : phrases (p.notices ++ [n]) = phrases p.notices ++ n.phrases := by
    rw [phrases, List.flatMap_append, List.flatMap_singleton]
    rfl
  show Account.ofPhrases (phrases (p.notices ++ [n])) = .ofSummary t
  rw [more, Account.ofPhrases_append, h, agree]

theorem tell_aside (h : Honest p) {n : Notice} (aside : Account.ofPhrases n.phrases = .zero) :
    Honest (p.tell n) := by
  refine h.tell (t := p.summary) ?_
  rw [aside, Account.append_zero]

theorem announce (h : Honest p) (row : Plan.Row) : Honest (p.announce row) :=
  h.tell (Account.ofSummary_announced p.summary)

theorem conclude (h : Honest p) (row : Plan.Row) (o : Outcome) : Honest (p.conclude row o) := by
  refine h.tell ?_
  rw [Account.ofSummary_record, Notice.phrases, Account.ofPhrases_outcome]

theorem malformed (h : Honest p) (m : Plan.Malformed) : Honest (afterMalformed m p) :=
  h.tell (Account.ofSummary_malformed p.summary)

theorem poll (h : Honest p) (r : StopRequest) : Honest (p.poll r) := by
  unfold Progress.poll
  split
  · exact h
  · split
    · dsimp only
      split
      · exact tell_aside (p := { p with stopped := true }) h rfl
      · exact h
    · exact h

theorem settle (h : Honest p) (s : Setup) : Honest (settle s p) := by
  unfold Run.settle
  split
  · exact h
  · have later : Honest { p with clock := p.clock + s.stop.pause p.moment s.config.settleMillis } :=
      h
    exact later.poll s.stop

theorem keepLog (h : Honest p) (s : Setup) (number : Nat) (row : Plan.Row) (output : String) :
    Honest (keepLog s number row output p) := by
  unfold Run.keepLog
  generalize Records.writeLog p.files (Records.logPath s.context.logDir number row.displayName)
    output = w
  obtain ⟨failure, files⟩ := w
  cases failure with
  | none => exact h
  | some f => exact tell_aside (p := { p with files }) h rfl

theorem done (h : Honest p) (d : Done s p item q) : Honest q := by
  cases d with
  | malformed m => exact h.malformed m
  | @enabled row i on known =>
    -- Banner and outcome change the totals; the command, a lost log and the pause do not.
    have started := (h.announce row).tell_aside (n := .command i) rfl
    let l := s.launch (p.summary.rows + 1) i p.files
    have ended : Honest (((p.announce row).tell (.command i)).after l) := started
    exact (((ended.poll s.stop).keepLog s _ row _).conclude row _).settle s
  | @disabled row handle files off opened written =>
    have told : Honest { p.announce row with files } := h.announce row
    exact told.conclude row .notExecuted

end Honest

/-- Every item counts once, every row once as executed or not, every problem is one of an executed
row. -/
structure Balanced (count : Nat) (t : Summary) : Prop where
  items : t.rows + t.malformed = count
  rows : t.rows = t.executed + t.notExecuted
  problems : t.runnerProblems ≤ t.executed

theorem Balanced.record {t : Summary} (h : Balanced count t) (o : Outcome) :
    Balanced (count + 1) ({ t with rows := t.rows + 1 }.record o) := by
  have once := o.executions_add_omissions
  have few := o.problems_le
  obtain ⟨items, rows, problems⟩ := h
  rw [Summary.record_eq]
  constructor <;> dsimp only <;> omega

theorem Balanced.done (h : Balanced count p.summary) (d : Done s p item q) :
    Balanced (count + 1) q.summary := by
  cases d with
  | malformed m =>
    refine ⟨?_, h.rows, h.problems⟩
    rw [← h.items]
    rfl
  | enabled on known =>
    rw [afterEnabled_summary]
    exact h.record _
  | disabled off opened written => exact h.record .notExecuted

/-- The totals are balanced, and the transcript agrees with them. -/
structure Agrees (count : Nat) (p : Progress) : Prop where
  balanced : Balanced count p.summary
  honest : Honest p

theorem Agrees.pull (h : Agrees count p) (r : StopRequest) : Agrees count (p.pull r) := by
  have taken : Honest { p with taken := p.taken + 1 } := h.honest
  refine ⟨?_, taken.poll r⟩
  rw [Progress.pull_summary]
  exact h.balanced

theorem Agrees.close (h : Agrees count p) : Agrees count p.close :=
  ⟨⟨h.balanced.items, h.balanced.rows, h.balanced.problems⟩, h.honest⟩

theorem Agrees.interrupt (h : Agrees count p) : Agrees count p.interrupt :=
  ⟨⟨h.balanced.items, h.balanced.rows, h.balanced.problems⟩, h.honest⟩

theorem Agrees.takeItem (h : Agrees count p) (taken : takeItem s item p = .onward q) :
    Agrees (count + 1) q := by
  have head := h.pull s.stop
  cases seen : (p.pull s.stop).stopped with
  | true =>
    rw [takeItem_seen seen] at taken
    cases taken
  | false =>
    rw [takeItem_unseen seen] at taken
    have d := process_onward taken
    exact ⟨head.balanced.done d, head.honest.done d⟩

theorem Agrees.advance (h : Agrees count p) (reached : advance s lines p = .onward q) :
    Agrees (count + lines.length) q := by
  induction lines generalizing p count with
  | nil =>
    obtain rfl := Turn.onward.inj reached
    exact h
  | cons item rest ih =>
    obtain ⟨t, ht, left⟩ := onward_of_cons reached
    have later := ih (h.takeItem ht) left
    rw [List.length_cons, Nat.add_comm rest.length, ← Nat.add_assoc]
    exact later

theorem Agrees.start (fs : FileSystem) : Agrees 0 (.start fs) := ⟨⟨rfl, rfl, Nat.le_refl 0⟩, rfl⟩

/-- A run has dealt with the first of its items: with all of them, or with those before the head of
the loop that saw a request to stop. -/
def Dealt (s : Setup) (done rest : List Plan.Item) (p t : Progress) : Prop :=
  ∃ q, advance s done p = .onward q ∧
    (rest = [] ∧ t = q.close ∨
      rest ≠ [] ∧ (q.pull s.stop).stopped = true ∧ t = (q.pull s.stop).interrupt.close)

theorem exists_dealt (run : items s lines p = .completed t) :
    ∃ done rest, lines = done ++ rest ∧ Dealt s done rest p t := by
  induction lines generalizing p with
  | nil =>
    obtain rfl := Finish.completed.inj run
    exact ⟨[], [], rfl, ⟨p, rfl, .inl ⟨rfl, rfl⟩⟩⟩
  | cons item rest ih =>
    simp only [items] at run
    cases taken : takeItem s item p with
    | onward q =>
      rw [taken] at run
      obtain ⟨done, left, split, ⟨u, reached, ends⟩⟩ := ih run
      refine ⟨item :: done, left, by rw [split, List.cons_append], ⟨u, ?_, ends⟩⟩
      rw [advance_cons s item done taken]
      exact reached
    | interrupted q =>
      rw [taken] at run
      obtain rfl := Finish.completed.inj run
      cases seen : (p.pull s.stop).stopped with
      | true =>
        rw [takeItem_seen seen] at taken
        cases taken
        exact ⟨[], item :: rest, rfl, ⟨p, rfl, .inr ⟨List.cons_ne_nil _ _, seen, rfl⟩⟩⟩
      | false =>
        rw [takeItem_unseen seen] at taken
        rcases process_cases s item (p.pull s.stop) with ⟨u, hu, _⟩ | ⟨f, hf⟩
        · rw [hu] at taken
          cases taken
        · rw [process_refused hf] at taken
          cases taken
    | failed f q =>
      rw [taken] at run
      cases run

theorem Dealt.agrees {done rest : List Plan.Item} {fs : FileSystem}
    (h : Dealt s done rest (.start fs) t) : Agrees done.length t := by
  obtain ⟨q, reached, ends⟩ := h
  have there : Agrees (0 + done.length) q := (Agrees.start fs).advance reached
  rw [Nat.zero_add] at there
  rcases ends with ⟨_, rfl⟩ | ⟨_, _, rfl⟩
  · exact there.close
  · exact (there.pull s.stop).interrupt.close

/-- At every head of the loop, and when a run is completed, every item that it has dealt with counts
once, every row once as executed or not executed, and the problems are those of executed rows. What
is printed agrees: the banners are numbered from one on, and there are as many complaints about
malformed lines, durations, notes of rows not executed and warnings as the totals say. A warning is
printed for an outcome exactly if it is a problem of the runner. -/
theorem transcript_agrees_with_totals (s : Setup) (fs : FileSystem) :
    (∀ done q, advance s done (.start fs) = .onward q → Agrees done.length q) ∧
    (∀ lines t, items s lines (.start fs) = .completed t → ∃ done rest, lines = done ++ rest ∧
      Dealt s done rest (.start fs) t ∧ Agrees done.length t) ∧
    (∀ n r t, plan s n r (.start fs) = .completed t → ∃ done rest,
      pulled s n r (.start fs) = done ++ rest ∧ Dealt s done rest (.start fs) t ∧
        Agrees done.length t) ∧
    (∀ w ns, Console.transcript w ns = .ofPhrases w (phrases ns)) ∧
    ∀ row o, (Notice.outcome row o).phrases.countP (·.message.isWarning) =
      if o.isProblem then 1 else 0 := by
  have run (lines : List Plan.Item) (t : Progress) (h : items s lines (.start fs) = .completed t) :
      ∃ done rest, lines = done ++ rest ∧ Dealt s done rest (.start fs) t ∧
        Agrees done.length t := by
    obtain ⟨done, rest, split, dealt⟩ := exists_dealt h
    exact ⟨done, rest, split, dealt, dealt.agrees⟩
  refine ⟨?_, run, ?_, Console.transcript_eq, ?_⟩
  · intro done q reached
    have there : Agrees (0 + done.length) q := (Agrees.start fs).advance reached
    rwa [Nat.zero_add] at there
  · intro n r t h
    rcases plan_eq_items s n r (.start fs) with ⟨q, hq⟩ | same
    · rw [h] at hq
      cases hq
    · exact run _ t (same.symm.trans h)
  · intro row o
    exact congrArg Account.warnings (Account.ofPhrases_outcome row.displayName o)

namespace Mixed

def fourItems : List Plan.Item :=
  [.ok (.row ⟨1, "a", "none", "", "", "enabled"⟩), .ok (.malformed ⟨2, 1, "x"⟩),
    .ok (.row ⟨3, "b", "c", "", "", ""⟩), .ok (.row ⟨4, "d", "none", "", "", "enabled"⟩)]

def files : FileSystem := ⟨[([Utf8.ofText "t"], .file 0 false)], [(0, [])], 1, []⟩

def setup : Setup :=
  ⟨[], { Config.standard with runner := ⟨"r", []⟩, settleSecs := 0 }, ⟨"", [], .ofText "t"⟩,
    .alike fun fs _ _ _ => ⟨.ok (.exited (.ofSignal 9)), "", fs, 0⟩, .atItem 3⟩

end Mixed

/-- One row is executed and killed, one is not executed, and the last one is not reached. -/
theorem transcript_agrees_of_mixed :
    ∃ t, items Mixed.setup Mixed.fourItems (.start Mixed.files) = .completed t ∧ Agrees 3 t ∧
      Account.ofPhrases (phrases t.notices) =
        ⟨[[("number", "1")], [("number", "2")]], 1, 1, 1, 1⟩ := by
  have totals : (items Mixed.setup Mixed.fourItems (.start Mixed.files)).summary? =
      some ⟨2, 1, 1, 1, 1, true, .zero⟩ := by cbv
  obtain ⟨t, run, summary⟩ := Finish.exists_of_summary? totals
  obtain ⟨done, rest, _, _, agrees⟩ :=
    (transcript_agrees_with_totals Mixed.setup Mixed.files).2.1 Mixed.fourItems t run
  have count : done.length = 3 := by
    rw [← agrees.balanced.items, summary]
    rfl
  rw [count] at agrees
  refine ⟨t, run, agrees, ?_⟩
  rw [agrees.honest, summary]
  cbv

end Run
end TestBench
