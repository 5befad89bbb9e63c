import Mathlib
import TestBench.Proofs.Console.Phrases
import TestBench.Proofs.Console.Plain
import TestBench.Proofs.Text.Style
import TestBench.Proofs.Text.Template
/-!
# Notices as their templates

Whatever is told reads as the templates of its messages with each place replaced by its value, in
either language. With colors it is the same text in between color codes.
-/
namespace TestBench.Console

open Style (escape)

namespace Message

/-- The names of the places of a message, in their order. -/
def names : Message → List String
  | .usage => ["program"]
  | .usageTargets | .targetArgument => ["targets"]
  | .unknownTarget => ["target", "targets"]
  | .loadingPlan | .logDirectory | .resultsFile => ["path"]
  | .startedAt | .finishedAt => ["time"]
  | .rowBanner => ["number"]
  | .rowLine => ["name", "sub", "flag"]
  | .malformedRow => ["detail"]
  | .testDuration | .totalDuration => ["duration"]
  | .notExecuted => ["name"]
  | .exitedUncleanly => ["name", "status"]
  | .timedOut => ["name", "timeout"]
  | .spawnFailed => ["name", "error"]
  | .logFailed => ["error"]
  | .counts => ["rows", "executed", "not_executed", "malformed"]
  | .runnerProblems => ["count"]
  | _ => []

theorem nodup_names (m : Message) : m.names.Nodup := by
  cases m <;> decide

/-- The languages agree on the places of a message. -/
theorem places_template (l : Locale) (m : Message) :
    Template.places? none (m.template l).toList = some m.names := by
  cases l with
  | english => cases m <;> rw [template, english, Template.toList_of_eq rfl] <;> rfl
  | chinese => cases m <;> rw [template, chinese, Template.toList_of_eq rfl] <;> rfl

theorem notMem_template (l : Locale) (m : Message) : escape ∉ (m.template l).toList := by
  cases l with
  | english => cases m <;> rw [template, english, Template.toList_of_eq rfl] <;> decide
  | chinese => cases m <;> rw [template, chinese, Template.toList_of_eq rfl] <;> decide

variable {m : Message} {values : List (String × String)}

/-- A message with a value for each of its places is its template with these values. -/
theorem fills_text (l : Locale) (h : values.map Prod.fst = m.names) :
    Template.Fills (m.template l).toList values (m.text l values).toList := by
  have distinct : Entries.Distinct values := by
    rw [Entries.Distinct, h]
    exact m.nodup_names
  obtain ⟨text, filled⟩ := Template.exists_fills (h ▸ m.places_template l)
  rwa [Message.text, filled.fill distinct]

theorem notMem_text (l : Locale) (h : values.map Prod.fst = m.names)
    (given : ∀ e ∈ values, escape ∉ e.2.toList) : escape ∉ (m.text l values).toList :=
  (fills_text l h).notMem (m.notMem_template l) given

end Message

namespace Phrase

/-- A phrase has a value for each place of its message. -/
def IsNamed (p : Phrase) : Prop := p.values.map Prod.fst = p.message.names

structure IsPlain (p : Phrase) : Prop where
  before : Plain p.before
  values : ∀ e ∈ p.values, Plain e.2
  after : Plain p.after

theorem isPlain_line {m : Message} {values : List (String × String)}
    (h : ∀ e ∈ values, Plain e.2) : (line m values).IsPlain :=
  ⟨plain_empty, h, plain_newline⟩

variable {p : Phrase}

theorem text_plain (l : Locale) (p : Phrase) :
    p.text ⟨l, false⟩ = p.before ++ p.message.text l p.values ++ p.after := by
  rw [text, Manner.say]
  cases p.message.style <;> rfl

/-- Colors change nothing of a phrase but for the codes. -/
theorem strip_text (l : Locale) (named : p.IsNamed) (plain : p.IsPlain) (rest : List Char) :
    Style.strip ((p.text ⟨l, true⟩).toList ++ rest) =
      (p.text ⟨l, false⟩).toList ++ Style.strip rest := by
  have said := Message.notMem_text l named plain.values
  rw [text_plain]
  simp only [text, String.toList_append, List.append_assoc]
  rw [Style.strip_append plain.before]
  cases style : p.message.style with
  | none =>
    simp only [Manner.say, style, Manner.plain]
    rw [Style.strip_append said, Style.strip_append plain.after]
  | some s =>
    simp only [Manner.say, style, Manner.styled, Style.paint, if_true, String.toList_ofList]
    rw [Style.strip_wrap s said, Style.strip_append plain.after]

end Phrase

/-- Phrases, and a text that says them one after another, each with the template of its message. -/
inductive Says (l : Locale) : List Phrase → List Char → Prop
  | done : Says l [] []
  | phrase {p ps said text} (own : Template.Fills (p.message.template l).toList p.values said)
    (rest : Says l ps text) :
    Says l (p :: ps) (p.before.toList ++ said ++ p.after.toList ++ text)

theorem says_render (l : Locale) {ps : List Phrase} (named : ∀ p ∈ ps, p.IsNamed) :
    Says l ps (render ⟨l, false⟩ ps).toList := by
  induction ps with
  | nil => exact .done
  | cons p ps ih =>
    obtain ⟨own, others⟩ := List.forall_mem_cons.mp named
    rw [render, String.toList_append, Phrase.text_plain, String.toList_append,
      String.toList_append]
    exact .phrase (Message.fills_text l own) (ih others)

theorem strip_render (l : Locale) {ps : List Phrase} (named : ∀ p ∈ ps, p.IsNamed)
    (plain : ∀ p ∈ ps, p.IsPlain) :
    Style.strip (render ⟨l, true⟩ ps).toList = (render ⟨l, false⟩ ps).toList := by
  induction ps with
  | nil => rfl
  | cons p ps ih =>
    obtain ⟨named, named'⟩ := List.forall_mem_cons.mp named
    obtain ⟨plain, plain'⟩ := List.forall_mem_cons.mp plain
    rw [render, render, String.toList_append, String.toList_append,
      Phrase.strip_text l named plain, ih named' plain']

/-- What is printed in a language reads as some phrases, those of errors on the error output; and
if some texts that it shows are plain, it shows the same with colors once the codes are deleted. -/
structure Reads (l : Locale) (ps : List Phrase) (texts : List String)
    (print : Manner → Printed) : Prop where
  out : Says l (ps.filter (!·.message.isError)) (print ⟨l, false⟩).out.toList
  err : Says l (ps.filter (·.message.isError)) (print ⟨l, false⟩).err.toList
  stripped : (∀ s ∈ texts, Plain s) →
    Style.strip (print ⟨l, true⟩).out.toList = (print ⟨l, false⟩).out.toList ∧
      Style.strip (print ⟨l, true⟩).err.toList = (print ⟨l, false⟩).err.toList

theorem reads_of_phrases (l : Locale) {ps : List Phrase} {texts : List String}
    {print : Manner → Printed} (same : ∀ w, print w = .ofPhrases w ps)
    (named : ∀ p ∈ ps, p.IsNamed) (plain : (∀ s ∈ texts, Plain s) → ∀ p ∈ ps, p.IsPlain) :
    Reads l ps texts print := by
  have part (q : Phrase → Bool) : ∀ p ∈ ps.filter q, p.IsNamed :=
    fun p hp => named p (List.mem_of_mem_filter hp)
  have plainPart (h : ∀ s ∈ texts, Plain s) (q : Phrase → Bool) : ∀ p ∈ ps.filter q, p.IsPlain :=
    fun p hp => plain h p (List.mem_of_mem_filter hp)
  refine ⟨?_, ?_, fun h => ?_⟩
  · rw [same]
    exact says_render l (part _)
  · rw [same]
    exact says_render l (part _)
  · rw [same, same]
    exact ⟨strip_render l (part _) (plainPart h _), strip_render l (part _) (plainPart h _)⟩

def outcomeTexts : Outcome → List String
  | .spawnFailed e _ => [e]
  | _ => []

/-- The texts of a notice that are not made by the bench itself. -/
def Notice.texts : Notice → List String
  | .header plan ctx _ => [plan.display, ctx.logDir.display, ctx.resultsPath.display]
  | .unknownTarget target known => target :: known
  | .banner _ row => [row.testName, row.subTestName, row.flag]
  | .malformed m => [m.content]
  | .command i => [i.line]
  | .outcome row o => row.testName :: row.subTestName :: outcomeTexts o
  | .logFailed chain => chain
  | .shutdown | .summary _ _ | .usage => []

theorem named_exit (name : String) (exit : Child.Exit) : ∀ p ∈ exitPhrases name exit, p.IsNamed := by
  intro p hp
  cases exit with
  | exited s =>
    rw [exitPhrases] at hp
    split at hp
    · cases hp
    · obtain rfl := List.mem_singleton.mp hp
      rfl
  | timedOut limit =>
    obtain rfl := List.mem_singleton.mp hp
    rfl

theorem named_outcome (name : String) (o : Outcome) : ∀ p ∈ outcomePhrases name o, p.IsNamed := by
  cases o with
  | executed exit d =>
    exact List.forall_mem_append.mpr ⟨named_exit name exit, List.forall_mem_singleton.mpr rfl⟩
  | spawnFailed e d => simp [outcomePhrases, Phrase.IsNamed, Phrase.line, Message.names]
  | notExecuted => exact List.forall_mem_singleton.mpr rfl

theorem named_summary (s : Summary) (finishedAt : Timestamp) :
    ∀ p ∈ summaryPhrases s finishedAt, p.IsNamed := by
  simp only [summaryPhrases, List.forall_mem_append, List.forall_mem_cons]
  refine ⟨⟨⟨⟨rfl, rfl, rfl, List.forall_mem_nil _⟩, ?_⟩, ?_⟩, rfl, List.forall_mem_nil _⟩
  all_goals
    split
    · exact List.forall_mem_singleton.mpr rfl
    · exact List.forall_mem_nil _

/-- Each notice has a value for each place of its messages, and for nothing else. -/
theorem Notice.named (n : Notice) : ∀ p ∈ n.phrases, p.IsNamed := by
  cases n with
  | outcome row o => exact named_outcome _ o
  | summary s finishedAt => exact named_summary s finishedAt
  | _ => simp [Notice.phrases, Phrase.IsNamed, Phrase.line, Message.names]

theorem plain_exit {name : String} (h : Plain name) (exit : Child.Exit) :
    ∀ p ∈ exitPhrases name exit, p.IsPlain := by
  intro p hp
  cases exit with
  | exited s =>
    rw [exitPhrases] at hp
    split at hp
    · cases hp
    · obtain rfl := List.mem_singleton.mp hp
      exact Phrase.isPlain_line (by simp [h, plain_status])
  | timedOut limit =>
    obtain rfl := List.mem_singleton.mp hp
    exact Phrase.isPlain_line (by simp [h, plain_decimal])

theorem plain_outcome {name : String} (h : Plain name) {o : Outcome}
    (own : ∀ s ∈ outcomeTexts o, Plain s) : ∀ p ∈ outcomePhrases name o, p.IsPlain := by
  have lasted (d : Duration) : (Phrase.line .testDuration [("duration", d.hms)]).IsPlain :=
    Phrase.isPlain_line (by simp [plain_hms])
  cases o with
  | executed exit d =>
    exact List.forall_mem_append.mpr ⟨plain_exit h exit, List.forall_mem_singleton.mpr (lasted d)⟩
  | spawnFailed e d =>
    have unstarted := own e List.mem_cons_self
    exact List.forall_mem_cons.mpr ⟨Phrase.isPlain_line (by simp [h, unstarted]),
      List.forall_mem_singleton.mpr (lasted d)⟩
  | notExecuted => exact List.forall_mem_singleton.mpr (Phrase.isPlain_line (by simp [h]))

theorem isPlain_command {line : String} (h : Plain line) :
    (⟨"", .commandMark, [], " " ++ line ++ "\n"⟩ : Phrase).IsPlain :=
  ⟨plain_empty, List.forall_mem_nil _,
    plain_append.mpr ⟨plain_append.mpr ⟨by decide, h⟩, plain_newline⟩⟩

theorem plain_summary (s : Summary) (finishedAt : Timestamp) :
    ∀ p ∈ summaryPhrases s finishedAt, p.IsPlain := by
  have closing : (⟨"\n\n", .closingBanner, [], "\n"⟩ : Phrase).IsPlain :=
    ⟨plain_newlines, List.forall_mem_nil _, plain_newline⟩
  simp only [summaryPhrases, List.forall_mem_append, List.forall_mem_cons]
  refine ⟨⟨⟨⟨closing, Phrase.isPlain_line ?_, Phrase.isPlain_line ?_, List.forall_mem_nil _⟩, ?_⟩,
    ?_⟩, Phrase.isPlain_line ?_, List.forall_mem_nil _⟩
  · simp [plain_timestamp]
  · simp [plain_decimal]
  · split
    · exact List.forall_mem_singleton.mpr (Phrase.isPlain_line (by simp [plain_decimal]))
    · exact List.forall_mem_nil _
  · split
    · exact List.forall_mem_singleton.mpr (Phrase.isPlain_line (List.forall_mem_nil _))
    · exact List.forall_mem_nil _
  · simp [plain_hms]

/-- What the bench makes itself is plain: numbers, dates, durations and how a child ended. -/
theorem Notice.plain (n : Notice) (h : ∀ s ∈ n.texts, Plain s) : ∀ p ∈ n.phrases, p.IsPlain := by
  have list : Plain ", " ∧ Plain ": " := by decide
  cases n with
  | header plan ctx startedAt =>
    simp only [Notice.texts, List.forall_mem_cons] at h
    obtain ⟨plan, logs, results, -⟩ := h
    simp only [Notice.phrases, List.forall_mem_cons]
    refine ⟨?_, ?_, ?_, ?_, List.forall_mem_nil _⟩
    all_goals exact Phrase.isPlain_line (by simp [plan, logs, results, plain_timestamp])
  | unknownTarget target known =>
    obtain ⟨own, others⟩ := List.forall_mem_cons.mp h
    have joined : Plain (String.intercalate ", " known) := plain_intercalate list.1 others
    exact List.forall_mem_singleton.mpr (Phrase.isPlain_line (by simp [own, joined]))
  | banner number row =>
    simp only [Notice.texts, List.forall_mem_cons] at h
    obtain ⟨name, sub, flag, -⟩ := h
    refine List.forall_mem_cons.mpr ⟨⟨plain_newline, ?_, plain_newlines⟩,
      List.forall_mem_singleton.mpr (Phrase.isPlain_line ?_)⟩
    · simp [plain_decimal]
    · simp [name, sub, flag]
  | malformed m =>
    have message := plain_message (h _ List.mem_cons_self)
    exact List.forall_mem_singleton.mpr (Phrase.isPlain_line (by simp [message]))
  | command i => exact List.forall_mem_singleton.mpr (isPlain_command (h _ List.mem_cons_self))
  | outcome row o =>
    obtain ⟨name, rest⟩ := List.forall_mem_cons.mp h
    obtain ⟨sub, own⟩ := List.forall_mem_cons.mp rest
    exact plain_outcome (plain_displayName name sub) own
  | logFailed chain =>
    have joined : Plain (String.intercalate ": " chain) := plain_intercalate list.2 h
    exact List.forall_mem_singleton.mpr (Phrase.isPlain_line (by simp [joined]))
  | shutdown =>
    exact List.forall_mem_singleton.mpr
      ⟨plain_newline, List.forall_mem_nil _, plain_newline⟩
  | summary s finishedAt => exact plain_summary s finishedAt
  | usage =>
    have name : Plain programName := by decide
    have targets : Plain (String.intercalate ", " knownTargets) :=
      plain_intercalate list.1 (by decide)
    refine List.forall_mem_cons.mpr ⟨⟨plain_empty, ?_, plain_newlines⟩,
      List.forall_mem_singleton.mpr ⟨plain_empty, ?_, plain_newlines⟩⟩
    · simp [name]
    · simp [targets]

/-- In either language a notice reads as the templates of its messages, each place replaced by its
value as it stands, on the output and on the error output. With colors, if the texts that it shows
hold no escape character, it is the same once the color codes are deleted. So do a command line and
the name of a row that are printed by themselves. -/
theorem notices_read_as_their_templates (l : Locale) :
    (∀ n : Notice, Reads l n.phrases n.texts fun w => n.print w) ∧
    (∀ line : String, Reads l [⟨"", .commandMark, [], " " ++ line ++ "\n"⟩] [line]
      fun w => .toOut (w.command line)) ∧
    ∀ name : String, Reads l [.line .notExecuted [("name", name)]] [name]
      fun w => .toOut (w.notExecuted name) := by
  refine ⟨fun n => reads_of_phrases l (print_eq · n) n.named n.plain, fun line => ?_,
    fun name => ?_⟩
  · refine reads_of_phrases l (command_eq · line) (List.forall_mem_singleton.mpr rfl) fun h => ?_
    exact List.forall_mem_singleton.mpr (isPlain_command (h line List.mem_cons_self))
  · refine reads_of_phrases l (notExecuted_eq · name) (List.forall_mem_singleton.mpr rfl) fun h => ?_
    have plain := h name List.mem_cons_self
    exact List.forall_mem_singleton.mpr (Phrase.isPlain_line (by simp [plain]))

/-- A row whose fields look like places of the message that shows them. -/
def lookalike : Notice :=
  .banner 7 ⟨1, "%\x7bflag\x7d", "%\x7bsub\x7d", "", "", "100%"⟩

theorem notices_read_as_their_templates_of_lookalike :
    (∀ s ∈ lookalike.texts, Plain s) ∧
      Style.strip (lookalike.print ⟨.chinese, true⟩).out.toList =
        "\n===测试 7===\n\n%\x7bflag\x7d - %\x7bsub\x7d : 100%\n".toList := by
  have plain : ∀ s ∈ lookalike.texts, Plain s := by decide
  refine ⟨plain, ?_⟩
  rw [(((notices_read_as_their_templates .chinese).1 lookalike).stripped plain).1]
  cbv

end TestBench.Console
