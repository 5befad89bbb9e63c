import TestBench.Console.Notice
/-!
# What is printed, phrase by phrase

A notice is printed as some phrases, each of them one message of the catalog with its values. The
output and the error output are the phrases in their order; whose message it is decides where a
phrase goes and in which style.
-/
namespace TestBench.Console

structure Phrase where
  before : String
  message : Message
  values : List (String × String)
  after : String

def Message.style : Message → Option Style
  | .loadingPlan | .logDirectory | .resultsFile => some .cyan
  | .startedAt | .rowBanner | .closingBanner | .totalDuration => some .bold
  | .unknownTarget | .exitedUncleanly | .timedOut | .spawnFailed | .logFailed | .shutdown
  | .runnerProblems => some .yellow
  | .malformedRow => some .red
  | .commandMark => some .blue
  | .notExecuted => some .dimmed
  | .interrupted => some .yellowBold
  | _ => none

def Message.isError : Message → Bool
  | .malformedRow | .logFailed => true
  | _ => false

/-- A runner that did not end cleanly, was killed, or did not start. -/
def Message.isWarning : Message → Bool
  | .exitedUncleanly | .timedOut | .spawnFailed => true
  | _ => false

def Manner.say (w : Manner) (m : Message) (values : List (String × String)) : String :=
  match m.style with
  | some s => w.styled s m values
  | none => w.plain m values

namespace Phrase

def text (w : Manner) (p : Phrase) : String := p.before ++ w.say p.message p.values ++ p.after

def line (m : Message) (values : List (String × String)) : Phrase := ⟨"", m, values, "\n"⟩

theorem text_line (w : Manner) (m : Message) (values : List (String × String)) :
    (line m values).text w = w.say m values ++ "\n" := by
  rw [line, text, String.empty_append]

end Phrase

def render (w : Manner) : List Phrase → String
  | [] => ""
  | p :: rest => p.text w ++ render w rest

def Printed.ofPhrases (w : Manner) (ps : List Phrase) : Printed :=
  ⟨render w (ps.filter (!·.message.isError)), render w (ps.filter (·.message.isError))⟩

def exitPhrases (name : String) : Child.Exit → List Phrase
  | .exited s =>
    if s.success then [] else [.line .exitedUncleanly [("name", name), ("status", s.text)]]
  | .timedOut limit =>
    [.line .timedOut [("name", name), ("timeout", Decimal.text (limit / 1000))]]

def outcomePhrases (name : String) : Outcome → List Phrase
  | .executed exit d => exitPhrases name exit ++ [.line .testDuration [("duration", d.hms)]]
  | .spawnFailed e d =>
    [.line .spawnFailed [("name", name), ("error", e)], .line .testDuration [("duration", d.hms)]]
  | .notExecuted => [.line .notExecuted [("name", name)]]

def summaryPhrases (s : Summary) (finishedAt : Timestamp) : List Phrase :=
  [⟨"\n\n", .closingBanner, [], "\n"⟩, .line .finishedAt [("time", finishedAt.render)],
      .line .counts [("rows", Decimal.text s.rows), ("executed", Decimal.text s.executed),
        ("not_executed", Decimal.text s.notExecuted), ("malformed", Decimal.text s.malformed)]]
    ++ (if 0 < s.runnerProblems then
        [.line .runnerProblems [("count", Decimal.text s.runnerProblems)]] else [])
    ++ (if s.interrupted then [.line .interrupted []] else [])
    ++ [.line .totalDuration [("duration", s.duration.hms)]]

def Notice.phrases : Notice → List Phrase
  | .header plan ctx startedAt =>
    [.line .loadingPlan [("path", plan.display)],
      .line .logDirectory [("path", ctx.logDir.display)],
      .line .resultsFile [("path", ctx.resultsPath.display)],
      .line .startedAt [("time", startedAt.render)]]
  | .unknownTarget target known =>
    [.line .unknownTarget [("target", target), ("targets", String.intercalate ", " known)]]
  | .banner number row =>
    [⟨"\n", .rowBanner, [("number", Decimal.text number)], "\n\n"⟩,
      .line .rowLine [("name", row.testName), ("sub", row.subTestName), ("flag", row.flag)]]
  | .malformed m => [.line .malformedRow [("detail", m.message)]]
  | .command i => [⟨"", .commandMark, [], " " ++ i.line ++ "\n"⟩]
  | .outcome row o => outcomePhrases row.displayName o
  | .logFailed chain => [.line .logFailed [("error", String.intercalate ": " chain)]]
  | .shutdown => [⟨"\n", .shutdown, [], "\n"⟩]
  | .summary s finishedAt => summaryPhrases s finishedAt
  | .usage =>
    [⟨"", .usage, [("program", programName)], "\n\n"⟩,
      ⟨"", .usageTargets, [("targets", String.intercalate ", " knownTargets)], "\n\n"⟩]

def phrases (ns : List Notice) : List Phrase := ns.flatMap Notice.phrases

variable (w : Manner)

theorem render_append (ps qs : List Phrase) : render w (ps ++ qs) = render w ps ++ render w qs := by
  induction ps with
  | nil => exact String.empty_append.symm
  | cons p rest ih => rw [List.cons_append, render, render, ih, String.append_assoc]

theorem ofPhrases_append (ps qs : List Phrase) :
    Printed.ofPhrases w (ps ++ qs) = (Printed.ofPhrases w ps).append (.ofPhrases w qs) := by
  simp only [Printed.ofPhrases, Printed.append, List.filter_append, render_append]

theorem ofPhrases_out {ps : List Phrase} (h : ∀ p ∈ ps, p.message.isError = false) :
    Printed.ofPhrases w ps = .toOut (render w ps) := by
  have out : ps.filter (!·.message.isError) = ps :=
    List.filter_eq_self.mpr fun p hp => by rw [h p hp]; rfl
  have err : ps.filter (·.message.isError) = [] :=
    List.filter_eq_nil_iff.mpr fun p hp => by rw [h p hp]; exact Bool.false_ne_true
  rw [Printed.ofPhrases, out, err]
  rfl

theorem ofPhrases_err (p : Phrase) (h : p.message.isError = true) :
    Printed.ofPhrases w [p] = .toErr (render w [p]) := by
  simp only [Printed.ofPhrases, List.filter_cons, h, Bool.not_true, Bool.false_eq_true, if_false,
    if_true, List.filter_nil]
  rfl

theorem render_single (p : Phrase) : render w [p] = p.text w := String.append_empty

theorem render_exit (name : String) (exit : Child.Exit) :
    render w (exitPhrases name exit) = w.exitWarning name exit := by
  cases exit with
  | exited s =>
    rw [exitPhrases, Manner.exitWarning]
    by_cases h : s.success = true
    · rw [if_pos h, if_pos h]
      rfl
    · rw [if_neg h, if_neg h, render_single, Phrase.text_line]
      rfl
  | timedOut limit =>
    rw [exitPhrases, render_single, Phrase.text_line]
    rfl

theorem render_outcome (row : Plan.Row) (o : Outcome) :
    render w (outcomePhrases row.displayName o) = w.outcome row o := by
  cases o with
  | executed exit d =>
    rw [outcomePhrases, render_append, render_exit, render_single, Phrase.text_line]
    rfl
  | spawnFailed e d =>
    rw [outcomePhrases, render, render_single, Phrase.text_line, Phrase.text_line]
    rfl
  | notExecuted =>
    rw [outcomePhrases, render_single, Phrase.text_line]
    rfl

theorem render_summary (s : Summary) (finishedAt : Timestamp) :
    render w (summaryPhrases s finishedAt) = w.summary s finishedAt := by
  have problems : render w (if 0 < s.runnerProblems then
        [.line .runnerProblems [("count", Decimal.text s.runnerProblems)]] else []) =
      if 0 < s.runnerProblems then
        w.say .runnerProblems [("count", Decimal.text s.runnerProblems)] ++ "\n" else "" := by
    by_cases h : 0 < s.runnerProblems
    · rw [if_pos h, if_pos h, render_single, Phrase.text_line]
    · rw [if_neg h, if_neg h, render]
  have stopped : render w (if s.interrupted then [.line .interrupted []] else []) =
      if s.interrupted then w.say .interrupted [] ++ "\n" else "" := by
    by_cases h : s.interrupted = true
    · rw [if_pos h, if_pos h, render_single, Phrase.text_line]
    · rw [if_neg h, if_neg h, render]
  rw [summaryPhrases, render_append, render_append, render_append, problems, stopped,
    render_single]
  simp only [render, Phrase.text, String.append_empty, String.append_assoc]
  unfold Manner.summary
  simp only [String.append_assoc]
  rfl

theorem outcome_toOut (name : String) (o : Outcome) :
    ∀ p ∈ outcomePhrases name o, p.message.isError = false := by
  have exits (exit : Child.Exit) : ∀ p ∈ exitPhrases name exit, p.message.isError = false := by
    intro p hp
    cases exit with
    | exited s =>
      rw [exitPhrases] at hp
      split at hp
      · cases hp
      · obtain rfl := List.mem_singleton.mp hp
        rfl
    | timedOut limit =>
      obtain rfl := List.mem_singleton.mp hp
      rfl
  intro p hp
  cases o with
  | executed exit d =>
    rcases List.mem_append.mp hp with hp | hp
    · exact exits exit p hp
    · obtain rfl := List.mem_singleton.mp hp
      rfl
  | spawnFailed e d =>
    simp only [outcomePhrases, List.mem_cons, List.not_mem_nil, or_false] at hp
    rcases hp with rfl | rfl <;> rfl
  | notExecuted =>
    obtain rfl := List.mem_singleton.mp hp
    rfl

theorem summary_toOut (s : Summary) (finishedAt : Timestamp) :
    ∀ p ∈ summaryPhrases s finishedAt, p.message.isError = false := by
  intro p hp
  simp only [summaryPhrases, List.mem_append, List.mem_cons, List.not_mem_nil, or_false] at hp
  rcases hp with (((rfl | rfl | rfl) | hp) | hp) | rfl
  · rfl
  · rfl
  · rfl
  · split at hp
    · obtain rfl := List.mem_singleton.mp hp
      rfl
    · cases hp
  · split at hp
    · obtain rfl := List.mem_singleton.mp hp
      rfl
    · cases hp
  · rfl

theorem command_eq (line : String) :
    .toOut (w.command line) = Printed.ofPhrases w [⟨"", .commandMark, [], " " ++ line ++ "\n"⟩] := by
  rw [ofPhrases_out w (List.forall_mem_singleton.mpr rfl), render_single, Phrase.text,
    String.empty_append, Manner.command]
  simp only [String.append_assoc]
  rfl

theorem notExecuted_eq (name : String) :
    .toOut (w.notExecuted name) = Printed.ofPhrases w [.line .notExecuted [("name", name)]] := by
  rw [ofPhrases_out w (List.forall_mem_singleton.mpr rfl), render_single, Phrase.text_line]
  rfl

/-- A notice is printed as its phrases. -/
theorem print_eq (n : Notice) : n.print w = .ofPhrases w n.phrases := by
  have out {ps : List Phrase} {text : String} (there : ∀ p ∈ ps, p.message.isError = false)
      (same : render w ps = text) : Printed.toOut text = .ofPhrases w ps := by
    rw [ofPhrases_out w there, same]
  cases n with
  | header plan ctx startedAt =>
    rw [Notice.phrases]
    apply out
    · simp only [List.forall_mem_cons]
      exact ⟨rfl, rfl, rfl, rfl, fun p hp => by cases hp⟩
    · simp only [render, Phrase.text_line, Manner.header, String.append_empty, String.append_assoc]
      rfl
  | unknownTarget target known =>
    rw [Notice.phrases]
    apply out
    · exact List.forall_mem_singleton.mpr rfl
    · rw [render_single, Phrase.text_line]
      rfl
  | banner number row =>
    rw [Notice.phrases]
    apply out
    · simp only [List.forall_mem_cons]
      exact ⟨rfl, rfl, fun p hp => by cases hp⟩
    · rw [render, render_single, Phrase.text_line, Phrase.text, Manner.banner]
      simp only [String.append_assoc]
      rfl
  | malformed m =>
    rw [Notice.phrases, ofPhrases_err w _ rfl, render_single, Phrase.text_line]
    rfl
  | command i => exact command_eq w i.line
  | outcome row o => exact out (outcome_toOut _ o) (render_outcome w row o)
  | logFailed chain =>
    rw [Notice.phrases, ofPhrases_err w _ rfl, render_single, Phrase.text_line]
    rfl
  | shutdown =>
    rw [Notice.phrases]
    apply out
    · exact List.forall_mem_singleton.mpr rfl
    · rw [render_single]
      rfl
  | summary s finishedAt => exact out (summary_toOut s finishedAt) (render_summary w s finishedAt)
  | usage =>
    rw [Notice.phrases]
    apply out
    · simp only [List.forall_mem_cons]
      exact ⟨rfl, rfl, fun p hp => by cases hp⟩
    · rw [render, render_single, Phrase.text, Phrase.text, String.empty_append,
        String.empty_append, Manner.usage]
      simp only [String.append_assoc]
      rfl

theorem transcript_eq (ns : List Notice) : transcript w ns = .ofPhrases w (phrases ns) := by
  have fold (p : Printed) : ns.foldl (fun p n => p.append (n.print w)) p =
      p.append (.ofPhrases w (phrases ns)) := by
    induction ns generalizing p with
    | nil =>
      simp only [List.foldl_nil, phrases, List.flatMap_nil, Printed.ofPhrases, List.filter_nil,
        render, Printed.append, String.append_empty]
    | cons n rest ih =>
      have cut : phrases (n :: rest) = n.phrases ++ phrases rest := List.flatMap_cons
      rw [List.foldl_cons, ih, print_eq, cut, ofPhrases_append]
      simp only [Printed.append, String.append_assoc]
  rw [transcript, fold]
  simp only [Printed.append, Printed.empty, String.empty_append]

end TestBench.Console
