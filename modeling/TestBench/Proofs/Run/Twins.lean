import Mathlib
import TestBench.Proofs.FileSystem.Alike
import TestBench.Proofs.Plan.Reading
import TestBench.Proofs.Run.Failure
import TestBench.Proofs.Run.Records
import TestBench.Proofs.Run.Session
import TestBench.Proofs.Run.Stop
/-!
# Two runs whose children end differently

How children end and what they print has no way back into a run. Two runs over the same plan whose
children do the same to the files start the same commands, count the same rows and leave the same
files, apart from what their logs hold.
-/
namespace TestBench

open FileSystem (Alike Handle)

namespace Console

/-- What is told whatever comes of the children: the ends of rows, logs that could not be kept and
requests to stop are left out, and of the totals there are the rows and the malformed lines. -/
def Notice.inCommon? : Notice → Option Notice
  | .outcome row .notExecuted => some (.outcome row .notExecuted)
  | .outcome _ _ | .logFailed _ | .shutdown => none
  | .summary s _ =>
    some (.summary ⟨s.rows, s.executed, s.notExecuted, s.malformed, 0, false, .zero⟩ (.ofUnix 0))
  | n => some n

end Console

namespace FileSystem

variable {away : Nat → Prop} {fs new : FileSystem} {p : Path}

/-- A log that is kept in a file that is set apart may hold what it likes on each side. -/
theorem Alike.writeLog (h : Alike away fs new) (bs cs : String)
    (apart : ∀ id left, fs.openWrite p = .ok (.file id, left) → away id) :
    Alike away (Records.writeLog fs p bs).2 (Records.writeLog new p cs).2 := by
  rcases h.openWrite p with ⟨e, hf, hn⟩ | ⟨handle, left, right, hf, hn, opened⟩
  · simp only [Records.writeLog, hf, hn]
    exact h
  · simp only [Records.writeLog, hf, hn]
    cases handle with
    | file id => exact opened.append (.inr (apart id left hf))
    | directory => exact opened
    | device d =>
      cases d with
      | null => exact opened
      | zero => exact opened
      | terminal => exact opened
      | full =>
        -- A full device takes an empty output and no other, and keeps neither.
        by_cases hb : (Utf8.ofText bs).isEmpty = true <;>
          by_cases hc : (Utf8.ofText cs).isEmpty = true <;>
            simpa only [Handle.write, hb, hc, if_true, if_false, Bool.false_eq_true] using opened

end FileSystem

namespace Run

open Console (Notice)

variable {s : Setup} {p q t u : Progress} {item : Plan.Item} {away : Nat → Prop} {n : Nat}
  {r : Plan.Reader}

def Setup.withChildren (s : Setup) (children : Child.Children) : Setup := { s with children }

/-- Two children do the same to the files: if they find the same tree, they leave the same tree, and
a file that holds the same when they start holds the same when they have ended. -/
def Launch.WritesAlike (l m : Launch) : Prop :=
  Alike (fun id => l.found.content id ≠ m.found.content id) l.found m.found →
    Alike (fun id => l.found.content id ≠ m.found.content id) l.report.files m.report.files

/-- The log of a launch is kept in a file. -/
def Launch.LogsTo (s : Setup) (l : Launch) (id : Nat) : Prop :=
  ∃ row left, Invocation.make s.config.runner s.env row s.context = .ok l.invocation ∧
    l.report.files.openWrite (Records.logPath s.context.logDir l.number row.displayName) =
      .ok (.file id, left)

theorem Launch.WritesAlike.alike {l m : Launch} (h : l.WritesAlike m)
    (found : Alike away l.found m.found) : Alike away l.report.files m.report.files := by
  -- The children may rely on more than the runs do: on all contents that are the same by chance.
  have differ : ∀ id, l.found.content id ≠ m.found.content id → away id := by
    intro id other
    by_contra out
    exact other (found.contents id out)
  refine (h ⟨found.entries, found.fresh, found.home, ?_⟩).mono differ
  intro id same
  exact not_not.mp same

/-- What a run shows of itself that has nothing to do with how its children end. -/
structure Course where
  commands : List (Nat × Invocation)
  told : List Notice
  rows : Nat
  executed : Nat
  notExecuted : Nat
  malformed : Nat

def Progress.inCommon (p : Progress) : List Notice := p.notices.filterMap Notice.inCommon?

def Progress.course (p : Progress) : Course where
  commands := p.launches.map fun l => (l.number, l.invocation)
  told := p.inCommon
  rows := p.summary.rows
  executed := p.summary.executed
  notExecuted := p.summary.notExecuted
  malformed := p.summary.malformed

namespace Course

def tell (c : Course) (n : Notice) : Course := { c with told := c.told ++ [n] }

def announced (c : Course) (row : Plan.Row) : Course :=
  { c with rows := c.rows + 1 }.tell (.banner (c.rows + 1) row)

def afterMalformed (c : Course) (m : Plan.Malformed) : Course :=
  { c with malformed := c.malformed + 1 }.tell (.malformed m)

def afterEnabled (c : Course) (row : Plan.Row) (i : Invocation) : Course :=
  { c.announced row with
    executed := c.executed + 1
    commands := c.commands ++ [(c.rows + 1, i)] }.tell (.command i)

def afterDisabled (c : Course) (row : Plan.Row) : Course :=
  { c.announced row with notExecuted := c.notExecuted + 1 }.tell (.outcome row .notExecuted)

end Course

namespace Progress

theorem inCommon_tell (p : Progress) (n : Notice) :
    (p.tell n).inCommon = p.inCommon ++ n.inCommon?.toList := by
  rw [inCommon, tell, List.filterMap_append, List.filterMap_cons]
  cases n.inCommon? <;> rfl

theorem inCommon_aside (p : Progress) {n : Notice} (aside : n.inCommon? = none) :
    (p.tell n).inCommon = p.inCommon := by
  rw [inCommon_tell, aside]
  exact List.append_nil _

theorem inCommon_poll (p : Progress) (r : StopRequest) : (p.poll r).inCommon = p.inCommon := by
  unfold poll
  split
  · rfl
  · split
    · dsimp only
      split
      · exact inCommon_aside _ rfl
      · rfl
    · rfl

theorem inCommon_settle (s : Setup) (p : Progress) : (settle s p).inCommon = p.inCommon := by
  unfold settle
  split
  · rfl
  · rw [inCommon_poll]
    rfl

theorem inCommon_keepLog (s : Setup) (number : Nat) (row : Plan.Row) (output : String)
    (p : Progress) : (keepLog s number row output p).inCommon = p.inCommon := by
  unfold keepLog
  generalize Records.writeLog p.files (Records.logPath s.context.logDir number row.displayName)
    output = w
  obtain ⟨failure, files⟩ := w
  cases failure with
  | none => rfl
  | some f => exact inCommon_aside { p with files } rfl

theorem inCommon_announce (p : Progress) (row : Plan.Row) :
    (p.announce row).inCommon = p.inCommon ++ [.banner (p.summary.rows + 1) row] :=
  inCommon_tell p _

theorem course_announce (p : Progress) (row : Plan.Row) :
    (p.announce row).course = p.course.announced row := by
  rw [course, inCommon_announce]
  rfl

end Progress

theorem Launch.outcome_inCommon (l : Launch) (row : Plan.Row) :
    (Notice.outcome row l.outcome).inCommon? = none := by
  unfold Launch.outcome
  dsimp only
  cases l.report.result <;> rfl

theorem inCommon_afterEnabled (s : Setup) (row : Plan.Row) (i : Invocation) (p : Progress) :
    (afterEnabled s row i p).inCommon =
      p.inCommon ++ [.banner (p.summary.rows + 1) row] ++ [.command i] := by
  have conclude (p : Progress) (l : Launch) :
      (p.conclude row l.outcome).inCommon = p.inCommon :=
    Progress.inCommon_aside p (l.outcome_inCommon row)
  have started : (((p.announce row).tell (.command i)).after
      (s.launch (p.summary.rows + 1) i p.files)).inCommon =
        (p.announce row).inCommon ++ [.command i] := Progress.inCommon_tell (p.announce row) _
  unfold afterEnabled
  dsimp only
  rw [Progress.inCommon_settle, conclude, Progress.inCommon_keepLog, Progress.inCommon_poll,
    started, Progress.inCommon_announce]

theorem course_afterMalformed (m : Plan.Malformed) (p : Progress) :
    (afterMalformed m p).course = p.course.afterMalformed m := by
  have told : (afterMalformed m p).inCommon = p.inCommon ++ [.malformed m] :=
    Progress.inCommon_tell p _
  rw [Progress.course, told]
  rfl

theorem course_afterDisabled (row : Plan.Row) (files : FileSystem) (p : Progress) :
    (afterDisabled row files p).course = p.course.afterDisabled row := by
  have told : (afterDisabled row files p).inCommon =
      (p.announce row).inCommon ++ [.outcome row .notExecuted] :=
    Progress.inCommon_tell (p.announce row) _
  rw [Progress.course, told, Progress.inCommon_announce]
  rfl

theorem course_afterEnabled (s : Setup) (row : Plan.Row) (i : Invocation) (p : Progress) :
    (afterEnabled s row i p).course = p.course.afterEnabled row i := by
  obtain ⟨rows, executed, notExecuted, malformed⟩ :=
    record_launch { p.summary with rows := p.summary.rows + 1 }
      (s.launch (p.summary.rows + 1) i p.files)
  rw [Progress.course, afterEnabled_launches, inCommon_afterEnabled, afterEnabled_summary, rows,
    executed, notExecuted, malformed, List.map_append]
  rfl

theorem course_shown (item : Plan.Item) (h : p.course = q.course) :
    (p.shown item).course = (q.shown item).course := by
  match item with
  | .error f => exact h
  | .ok (.malformed m) => exact h
  | .ok (.row row) =>
    show (p.announce row).course = (q.announce row).course
    rw [Progress.course_announce, Progress.course_announce, h]

/-- Two moments of runs that differ in what is set apart, and in the ends of the children. -/
structure Twins (away : Nat → Prop) (p q : Progress) : Prop where
  files : Alike away p.files q.files
  course : p.course = q.course

theorem Twins.refused {f : Failure} (h : Twins away p q) (refused : Refusal s p.files item f)
    (children : Child.Children) :
    Refusal (s.withChildren children) q.files item f := by
  have append := h.files.openAppend s.context.resultsPath
  cases refused with
  | unreadable => exact .unreadable f
  | undefined on missing => exact .undefined (s := s.withChildren children) on missing
  | unopened off closed =>
    exact .unopened (s := s.withChildren children) off (append.symm.trans closed)
  | @unwritten row handle e off opened full =>
    rcases h.files.writeThrough handle
        (Utf8.ofText (Records.notExecutedRow row.displayName ++ "\n")) with
      ⟨x, hp, failed⟩ | ⟨left, _, hp, _, _⟩
    · rw [full] at hp
      cases hp
      exact .unwritten (s := s.withChildren children) off (append.symm.trans opened) failed
    · rw [full] at hp
      cases hp

/-- What one run does with an item the other does as well. -/
theorem Twins.done (h : Twins away p q) (d : Done s p item t) (children : Child.Children) :
    ∃ u, process (s.withChildren children) item q = .onward u ∧
      ((∀ l ∈ t.launches, ∀ m ∈ u.launches, l.number = m.number → l.WritesAlike m) →
        (∀ l ∈ t.launches, ∀ id, l.LogsTo s id → away id) → Twins away t u) := by
  have rows : p.summary.rows = q.summary.rows := congrArg Course.rows h.course
  cases d with
  | malformed m =>
    refine ⟨afterMalformed m q, rfl, fun _ _ => ⟨h.files, ?_⟩⟩
    rw [course_afterMalformed, course_afterMalformed, h.course]
  | @enabled row i on known =>
    refine ⟨afterEnabled (s.withChildren children) row i q,
      process_enabled on (s := s.withChildren children) known q, ?_⟩
    intro writes logs
    let l := s.launch (p.summary.rows + 1) i p.files
    let m := (s.withChildren children).launch (p.summary.rows + 1) i q.files
    have hl : l ∈ (afterEnabled s row i p).launches := by
      rw [afterEnabled_launches]
      exact List.mem_append_right _ List.mem_cons_self
    have hm : m ∈ (afterEnabled (s.withChildren children) row i q).launches := by
      rw [afterEnabled_launches, ← rows]
      exact List.mem_append_right _ List.mem_cons_self
    have left : Alike away l.report.files m.report.files :=
      (writes l hl m hm rfl).alike h.files
    constructor
    · rw [afterEnabled_files, afterEnabled_files, ← rows]
      exact left.writeLog _ _ fun id left opened => logs l hl id ⟨row, left, known, opened⟩
    · rw [course_afterEnabled, course_afterEnabled, h.course]
  | @disabled row handle files off opened written =>
    have append := h.files.openAppend s.context.resultsPath
    rcases h.files.writeThrough handle
        (Utf8.ofText (Records.notExecutedRow row.displayName ++ "\n")) with
      ⟨e, hp, _⟩ | ⟨left, right, hp, hq, alike⟩
    · rw [written] at hp
      cases hp
    · rw [written] at hp
      cases hp
      have added : Records.appendNotExecuted q.files s.context.resultsPath row.displayName =
          (none, right) := Records.appendNotExecuted_ok (append.symm.trans opened) hq
      refine ⟨afterDisabled row right q, process_disabled off (s := s.withChildren children) added,
        fun _ _ => ⟨alike, ?_⟩⟩
      rw [course_afterDisabled, course_afterDisabled, h.course]

def Progress.Calm (p : Progress) : Prop := p.stopped = false ∧ p.summary.interrupted = false

theorem Progress.Calm.process (h : p.Calm) (quiet : s.stop.Silent)
    (onward : process s item p = .onward q) : q.Calm :=
  ⟨(process_stopped quiet onward).trans h.1, (process_interrupted onward).trans h.2⟩

/-- Two runs end alike: both with their plans, or both with the same failure. -/
inductive Finish.Twins (away : Nat → Prop) : Finish → Finish → Prop where
  | completed {p q : Progress} (twins : Run.Twins away p q) (calm : p.Calm) (calm' : q.Calm) :
      Finish.Twins away (.completed p) (.completed q)
  | failed {p q : Progress} (f : Failure) (twins : Run.Twins away p q) :
      Finish.Twins away (.failed f p) (.failed f q)
  | unfinished {p q : Progress} (twins : Run.Twins away p q) :
      Finish.Twins away (.unfinished p) (.unfinished q)

/-- As long as the plan is not set apart the two runs take the same items from it, and so they go
on together, item by item. -/
theorem Twins.plan {children : Child.Children} (quiet : s.stop.Silent) (h : Twins away p q)
    (calm : p.Calm) (calm' : q.Calm) (source : ∀ id, r.handle = .file id → ¬away id)
    (writes : ∀ l ∈ (plan s n r p).progress.launches,
      ∀ m ∈ (plan (s.withChildren children) n r q).progress.launches,
        l.number = m.number → l.WritesAlike m)
    (logs : ∀ l ∈ (plan s n r p).progress.launches, ∀ id, l.LogsTo s id → away id) :
    Finish.Twins away (plan s n r p) (plan (s.withChildren children) n r q) := by
  -- What is asked of all children of the two runs is asked of those started so far and of the rest.
  induction n generalizing r p q with
  | zero => exact .unfinished h
  | succ n ih =>
    have same : r.next q.files = r.next p.files := by
      rw [Plan.Reader.next, Plan.Reader.next, h.files.readAll source]
    have handle := Plan.Reader.next_handle p.files r
    simp only [Run.plan, same] at writes logs ⊢
    generalize r.next p.files = next at writes logs handle ⊢
    obtain ⟨item, left⟩ := next
    cases item with
    | none => exact .completed ⟨h.files, h.course⟩ calm calm'
    | some item =>
      have taken := takeItem_silent quiet calm.1 item
      have taken' := takeItem_silent (s := s.withChildren children) quiet calm'.1 item
      have head : Twins away { p with taken := p.taken + 1 } { q with taken := q.taken + 1 } :=
        ⟨h.files, h.course⟩
      rcases process_cases s item { p with taken := p.taken + 1 } with ⟨t, ht, d⟩ | ⟨f, hf⟩
      · obtain ⟨u, hu, later⟩ := head.done d children
        simp only [taken, taken', ht, hu] at writes logs ⊢
        have starts := starts_of_plan s n left t
        have starts' := starts_of_plan (s.withChildren children) n left u
        have twins : Twins away t u :=
          later (fun l hl m hm => writes l (starts.keeps hl) m (starts'.keeps hm))
            fun l hl => logs l (starts.keeps hl)
        have going : t.Calm := Progress.Calm.process (p := { p with taken := p.taken + 1 }) calm
          quiet ht
        have going' : u.Calm := Progress.Calm.process (s := s.withChildren children)
          (p := { q with taken := q.taken + 1 }) calm' quiet hu
        exact ih twins going going' (handle ▸ source) writes logs
      · have hf' := head.refused hf children
        simp only [taken, taken', process_refused hf, process_refused hf']
        refine .failed f ⟨?_, course_shown item h.course⟩
        rw [Progress.shown_files, Progress.shown_files]
        exact h.files

/-- No log of a session is kept in the plan, or in the file that the results path leads to when the
session has ended. -/
def LogsAside (w : Cli.Surroundings) (args : Cli.Arguments) (fs : FileSystem)
    (c : Cli.Conduct) : Prop :=
  ∀ config o, Config.resolve fs args.config = .ok config →
    Cli.openRun w.env fs args config = .ok o → ∀ l ∈ c.launches, ∀ id,
      l.LogsTo (w.setup config o) id →
        o.reader.handle ≠ .file id ∧ ∀ x, c.files.stat o.context.resultsPath ≠ .ok (.file id x)

/-- What two sessions for one target have in common. -/
structure SameCourse (target : String) (a b : Cli.Conduct) : Prop where
  exit : a.exit = b.exit
  done : a.exit = .ok 0 ∨ ∃ f, a.exit = .error f
  commands : a.launches.map (fun l => (l.number, l.invocation)) =
    b.launches.map fun l => (l.number, l.invocation)
  told : a.notices.filterMap Notice.inCommon? = b.notices.filterMap Notice.inCommon?
  tree : ∀ l, a.files.entry? l = b.files.entry? l
  results : a.files.readBytes (.ofText (Context.resultsFileName target)) =
    b.files.readBytes (.ofText (Context.resultsFileName target))

theorem SameCourse.of_failed {target : String} {a : Cli.Conduct} {f : Failure}
    (failed : a.exit = .error f) : SameCourse target a a :=
  ⟨rfl, .inr ⟨f, failed⟩, rfl, rfl, fun _ => rfl, rfl⟩

theorem Twins.told (h : Twins away p q) (before : List Notice) :
    (before ++ p.notices).filterMap Notice.inCommon? =
      (before ++ q.notices).filterMap Notice.inCommon? := by
  have same : p.inCommon = q.inCommon := congrArg Course.told h.course
  rw [List.filterMap_append, List.filterMap_append]
  exact congrArg _ same

theorem Twins.totals (h : Twins away p q) (now later : Timestamp) :
    (Notice.summary p.summary now).inCommon? = (Notice.summary q.summary later).inCommon? :=
  congrArg (fun c : Course => some (Notice.summary
    ⟨c.rows, c.executed, c.notExecuted, c.malformed, 0, false, .zero⟩ (.ofUnix 0))) h.course

theorem Progress.Calm.exitCode (h : p.Calm) : Cli.exitCode p.summary = 0 := by
  rw [Cli.exitCode, h.2]
  rfl

theorem SameCourse.concluded {target : String} {f g : Finish} (l : Locale) (before : List Notice)
    (now : Nat) (twins : f.Twins away g)
    (near : ∀ id x, f.progress.files.stat (.ofText (Context.resultsFileName target)) =
      .ok (.file id x) → ¬away id) :
    SameCourse target (concluded l before now f) (concluded l before now g) := by
  cases twins with
  | @completed p q twins calm calm' =>
    refine ⟨?_, .inl (congrArg _ calm.exitCode), congrArg Course.commands twins.course, ?_,
      twins.files.entries, twins.files.readBytes near⟩
    · exact congrArg Except.ok (calm.exitCode.trans calm'.exitCode.symm)
    · show (before ++ p.notices ++ [_]).filterMap _ = (before ++ q.notices ++ [_]).filterMap _
      rw [List.filterMap_append (l := before ++ p.notices), twins.told before,
        List.filterMap_append (l := before ++ q.notices), List.filterMap_cons, List.filterMap_cons,
        twins.totals]
  | failed f twins =>
    exact ⟨rfl, .inr ⟨f, rfl⟩, congrArg Course.commands twins.course, twins.told before,
      twins.files.entries, twins.files.readBytes near⟩
  | unfinished twins =>
    exact ⟨rfl, .inl rfl, congrArg Course.commands twins.course, twins.told before,
      twins.files.entries, twins.files.readBytes near⟩

/-- Two sessions that nothing stops and whose children do the same to the files start the same
commands under the same numbers, show the same rows and totals, leave the same tree and the same
results file, and end with the same exit, however their children end and whatever they print. -/
theorem sessions_do_not_depend_on_ends {w : Cli.Surroundings} (children : Child.Children)
    (quiet : w.stop.Silent) (inForce : Locale) (args : Cli.Arguments) (fs : FileSystem)
    (writes : ∀ l ∈ (Cli.conduct w inForce args fs).launches,
      ∀ m ∈ (Cli.conduct { w with children } inForce args fs).launches,
        l.number = m.number → l.WritesAlike m)
    (aside : LogsAside w args fs (Cli.conduct w inForce args fs)) :
    SameCourse args.target (Cli.conduct w inForce args fs)
      (Cli.conduct { w with children } inForce args fs) := by
  rcases conduct_cases w inForce args fs with
    ⟨c, f, failed, _, early⟩ | ⟨config, o, ready, resolved, opened, prepared⟩
  · rw [early children, show Cli.conduct w inForce args fs = c from early w.children]
    exact .of_failed failed
  · have first := conduct_ready inForce resolved opened prepared
    have second := conduct_ready (w := { w with children }) inForce resolved opened prepared
    rw [first, second] at writes ⊢
    rw [concluded_launches, concluded_launches] at writes
    rw [first] at aside
    have apart := aside config o resolved opened
    rw [concluded_launches, concluded_files] at apart
    have results := (Context.of_make (Cli.openRun_parts opened).2).2.1
    -- Only the files that hold logs are set apart; neither the plan nor the results are there.
    let away (id : Nat) : Prop :=
      ∃ l ∈ (plan (w.setup config o) w.bound o.reader (.start ready)).progress.launches,
        l.LogsTo (w.setup config o) id
    have twins : Finish.Twins away
        (plan (w.setup config o) w.bound o.reader (.start ready))
        (plan ((w.setup config o).withChildren children) w.bound o.reader (.start ready)) := by
      refine Twins.plan quiet ⟨.refl ready, rfl⟩ ⟨rfl, rfl⟩ ⟨rfl, rfl⟩ ?_ writes ?_
      · rintro id source ⟨l, hl, logs⟩
        exact (apart l hl id logs).1 source
      · exact fun l hl id logs => ⟨l, hl, logs⟩
    refine SameCourse.concluded _ _ _ twins ?_
    rintro id x there ⟨l, hl, logs⟩
    rw [← results] at there
    exact (apart l hl id logs).2 x there

/-- The command of a row says under which name its log is kept. -/
theorem displayName_of_make {runner : Runner} {env : Environment} {ctx : Context}
    {row other : Plan.Row} {i : Invocation} (h : Invocation.make runner env row ctx = .ok i)
    (g : Invocation.make runner env other ctx = .ok i) : row.displayName = other.displayName := by
  unfold Invocation.make at h g
  cases named : Expand.full env runner.program with
  | error name =>
    rw [named] at h
    cases h
  | ok program =>
    simp only [named, Except.ok.injEq] at h g
    have fields := List.append_cancel_left (congrArg Invocation.args (h.trans g.symm))
    simp only [rowArguments, List.cons.injEq] at fields
    simp only [Plan.Row.displayName, fields.1, fields.2.1]

namespace OneRow

/-- A plan with one row, and what stands where the results are going to be kept. -/
def files (results : Entry) : FileSystem :=
  ⟨[([Utf8.ofText "p"], .file 0 false), ([Utf8.ofText "logs"], .directory),
      ([Utf8.ofText "t_results.txt"], results)],
    [(0, Utf8.ofText ",none,,,enabled\n"), (1, [])], 2, []⟩

def arguments : Cli.Arguments := ⟨.ofText "p", "t", none, none⟩

def logged : Location := ["logs", "t", "001_.log"].map Utf8.ofText

/-- A child that leaves the files as they are. -/
def idle (fs : FileSystem) : FileSystem := fs

/-- A child that puts a link to the plan where its log is going to be kept. -/
def linkPlan (fs : FileSystem) : FileSystem := fs.put logged (.link (Utf8.ofText "../../p"))

/-- Children that all do the same to the files, whatever they print and however they end. -/
def doing (change : FileSystem → FileSystem) (output : String)
    (result : Except IoError Child.Exit) : Child.Children :=
  .alike fun fs _ _ _ => ⟨result, output, change fs, 0⟩

def surroundings (children : Child.Children) : Cli.Surroundings := ⟨[], children, .never, 0, 3⟩

def session (results : Entry) (children : Child.Children) : Cli.Conduct :=
  Cli.conduct (surroundings children) .english arguments (files results)

def opened : Cli.Opened :=
  ⟨⟨.ofText "p", .file 0, 0, [], 0⟩, ⟨"t", .ofText "logs/t", .ofText "t_results.txt"⟩⟩

def row (number : Nat) : Plan.Row := ⟨number, "", "none", "", "", "enabled"⟩

def rest : Plan.Reader := ⟨.ofText "p", .file 0, 16, [], 1⟩

def command : Invocation :=
  ⟨"python", ["run_test.py", "", "none", "", "", "t", "t_results.txt"]⟩

def log : Path := Records.logPath opened.context.logDir 1 (row 1).displayName

theorem log_eq : log = .ofText "logs/t/001_.log" := by cbv

theorem known (number : Nat) :
    Invocation.make Config.standard.runner [] (row number) opened.context = .ok command := by
  have name := Expand.full_of_plain [] (s := "python") (by decide) (by decide)
  rw [show "python" = Config.standard.runner.program from rfl] at name
  simp only [Invocation.make, name]
  rfl

/-- The session gets its row from the plan, with these files. -/
structure Ready (results : Entry) (ready : FileSystem) : Prop where
  standard : (files results).isFile Config.standardFile = false
  opens : Cli.openRun [] (files results) arguments .standard = .ok opened
  prepared : Records.prepare (files results) opened.context = (none, ready)
  plan : ready.content 0 = Utf8.ofText ",none,,,enabled\n"

variable {results : Entry} {ready left : FileSystem} {id : Nat}
  {change : FileSystem → FileSystem} {output : String} {result : Except IoError Child.Exit}

theorem Ready.resolves (h : Ready results ready) :
    Config.resolve (files results) arguments.config = .ok .standard := by
  rw [show arguments.config = none from rfl, Config.resolve, h.standard]
  rfl

/-- Once its child has ended the output of it is all that is new to the files. -/
theorem session_onward (h : Ready results ready)
    (opens : (change ready).openWrite log = .ok (.file id, left)) (output : String)
    (result : Except IoError Child.Exit) :
    ∃ p : Progress, p.files = left.append id (Utf8.ofText output) ∧
      p.launches = [⟨1, command, ready, ⟨result, output, change ready, 0⟩⟩] ∧
      p.stopped = false ∧
      let last := plan ((surroundings (doing change output result)).setup .standard opened) 2 rest p
      (session results (doing change output result)).files = last.progress.files ∧
        (session results (doing change output result)).launches = last.progress.launches := by
  let s := (surroundings (doing change output result)).setup .standard opened
  let begun : Progress := { Progress.start ready with taken := 1 }
  obtain ⟨p, after⟩ : ∃ p, afterEnabled s (row 1) command begun = p := ⟨_, rfl⟩
  have onward : process s (.ok (.row (row 1))) begun = .onward p := by
    rw [← after]
    exact process_enabled (s := s) rfl (known 1) begun
  have first : opened.reader.next ready = (some (.ok (.row (row 1))), rest) := by
    rw [Plan.Reader.next,
      show opened.reader.handle.readAll ready = .ok (ready.content 0) from rfl, h.plan]
    cbv
  have run : plan s 3 opened.reader (.start ready) = plan s 2 rest p := by
    rw [plan_of_enabled (s := s) StopRequest.never_silent rfl first rfl (known 1)]
    exact congrArg (plan s 2 rest) after
  refine ⟨p, ?_, ?_, process_stopped StopRequest.never_silent onward, ?_⟩
  · rw [← after, afterEnabled_files]
    show (Records.writeLog (change ready) log output).2 = _
    simp only [Records.writeLog, opens]
    rfl
  · rw [← after, afterEnabled_launches]
    rfl
  · dsimp only
    rw [session, conduct_ready (w := surroundings (doing change output result)) .english h.resolves
      h.opens h.prepared, concluded_files, concluded_launches]
    exact ⟨congrArg (fun f => f.progress.files) run, congrArg (fun f => f.progress.launches) run⟩

theorem session_over (h : Ready results ready)
    (opens : (change ready).openWrite log = .ok (.file id, left)) (output : String)
    (result : Except IoError Child.Exit)
    (last : (rest.next (left.append id (Utf8.ofText output))).1 = none) :
    (session results (doing change output result)).files = left.append id (Utf8.ofText output) ∧
      (session results (doing change output result)).launches =
        [⟨1, command, ready, ⟨result, output, change ready, 0⟩⟩] := by
  obtain ⟨p, files, launches, _, leaves, starts⟩ := session_onward h opens output result
  rw [← files] at last
  rw [plan_of_end last] at leaves starts
  exact ⟨leaves.trans files, starts.trans launches⟩

/-- What is printed into the plan is run. -/
theorem session_again (number : Nat) (more : Plan.Reader) (h : Ready results ready)
    (opens : (change ready).openWrite log = .ok (.file id, left))
    (next : rest.next (left.append id (Utf8.ofText output)) =
      (some (.ok (.row (row number))), more)) :
    2 ≤ (session results (doing change output result)).launches.length := by
  obtain ⟨p, files, launches, going, _, starts⟩ := session_onward h opens output result
  rw [← files] at next
  let s := (surroundings (doing change output result)).setup .standard opened
  rw [starts, plan_of_enabled (s := s) StopRequest.never_silent going next rfl (known number)]
  obtain ⟨ls, kept, _⟩ := starts_of_plan s 1 more
    (afterEnabled s (row number) command { p with taken := p.taken + 1 })
  rw [kept, afterEnabled_launches, launches, List.length_append]
  exact Nat.le_add_right 2 _

theorem writesAlike {output' : String} {result' : Except IoError Child.Exit}
    (steady : ∀ away fs new, Alike away fs new → Alike away (change fs) (change new)) :
    ∀ l ∈ (session results (doing change output result)).launches,
      ∀ m ∈ (session results (doing change output' result')).launches,
        l.number = m.number → l.WritesAlike m := by
  intro l hl m hm _ found
  obtain ⟨_, _, started⟩ := launch_of_conduct hl
  obtain ⟨_, _, started'⟩ := launch_of_conduct hm
  have left : l.report.files = change l.found := congrArg (fun l : Launch => l.report.files) started
  have left' : m.report.files = change m.found :=
    congrArg (fun l : Launch => l.report.files) started'
  rw [left, left']
  exact steady _ _ _ found

def logDir : Location := ["logs", "t"].map Utf8.ofText

theorem prepare_files {opens : FileSystem}
    (absent : (files results).pathExists opened.context.logDir = false)
    (named : (files results).locateName opened.context.logDir = .ok ⟨logDir, none⟩)
    (made : ((files results).put logDir .directory).openWrite opened.context.resultsPath =
      .ok (.file id, opens)) :
    Records.prepare (files results) opened.context = (none, opens.append id Records.header) := by
  have dir := FileSystem.makeDirectory_of_free named (by decide +kernel)
  rw [Records.prepare_of_absent (by decide) absent dir]
  exact Records.createResults_of_file made

/-- The results are kept in a file of their own. -/
def aside : FileSystem :=
  (((files (.file 1 false)).put logDir .directory).write 1 []).append 1 Records.header

theorem ready_aside : Ready (.file 1 false) aside where
  standard := by cbv
  opens := by cbv
  prepared := prepare_files (by cbv) (by cbv) (by cbv)
  plan := by cbv

theorem log_aside : (idle aside).openWrite log = .ok (.file 2, aside.create logged false []) := by
  rw [log_eq]
  exact FileSystem.openWrite_of_free (by cbv) (by decide +kernel)

/-- The results are kept where the log of the row is going to be kept. -/
def linked : FileSystem :=
  let made := (files (.link (Utf8.ofText "logs/t/001_.log"))).put logDir .directory
  (made.create logged false []).append 2 Records.header

theorem ready_linked : Ready (.link (Utf8.ofText "logs/t/001_.log")) linked where
  standard := by cbv
  opens := by cbv
  prepared := prepare_files (by cbv) (by cbv)
    (FileSystem.openWrite_of_free (by cbv) (by decide +kernel))
  plan := by cbv

theorem log_linked : (idle linked).openWrite log = .ok (.file 2, linked.write 2 []) := by
  rw [log_eq]
  cbv

theorem log_linkPlan :
    (linkPlan aside).openWrite log = .ok (.file 0, (linkPlan aside).write 0 []) := by
  rw [log_eq]
  cbv

end OneRow

open OneRow

/-- One child that prints and succeeds, and one that prints something else and is killed. -/
theorem sessions_do_not_depend_on_ends_of_oneRow :
    SameCourse "t"
      (session (.file 1 false) (doing idle "x" (.ok (.exited (.ofCode 0)))))
      (session (.file 1 false) (doing idle "y" (.ok (.exited (.ofSignal 9))))) := by
  obtain ⟨files, launches⟩ := session_over ready_aside log_aside "x" (.ok (.exited (.ofCode 0)))
    (by cbv)
  refine sessions_do_not_depend_on_ends _ StopRequest.never_silent .english arguments _
    (writesAlike fun _ _ _ found => found) ?_
  intro config o resolved opens l hl id logs
  cases ready_aside.resolves.symm.trans resolved
  cases ready_aside.opens.symm.trans opens
  obtain rfl := List.mem_singleton.mp (launches ▸ hl)
  obtain ⟨row, left, made, kept⟩ := logs
  rw [displayName_of_make made (known 1)] at kept
  cases log_aside.symm.trans kept
  refine ⟨by decide, ?_⟩
  intro x there
  have results : ((aside.create logged false []).append 2 (Utf8.ofText "x")).stat
      (.ofText "t_results.txt") = .ok (.file 1 false) := by cbv
  rw [← files] at results
  cases results.symm.trans there

/-- With its results kept where the log of its row is kept a session leaves there what the child has
printed. And with the log kept in the plan, where the child has put a link, what it has printed is
run. -/
theorem output_kept_in_results_or_plan :
    (let a := session (.link (Utf8.ofText "logs/t/001_.log"))
        (doing idle "x" (.ok (.exited (.ofCode 0))))
      let b := session (.link (Utf8.ofText "logs/t/001_.log"))
        (doing idle "y" (.ok (.exited (.ofCode 0))))
      (∀ l ∈ a.launches, ∀ m ∈ b.launches, l.number = m.number → l.WritesAlike m) ∧
        a.files.readBytes (.ofText "t_results.txt") = .ok (Utf8.ofText "x") ∧
        b.files.readBytes (.ofText "t_results.txt") = .ok (Utf8.ofText "y") ∧
        ¬SameCourse "t" a b) ∧
      let a := session (.file 1 false) (doing linkPlan "x" (.ok (.exited (.ofCode 0))))
      let b := session (.file 1 false)
        (doing linkPlan ",none,,,enabled\n,none,,,enabled\n" (.ok (.exited (.ofCode 0))))
      (∀ l ∈ a.launches, ∀ m ∈ b.launches, l.number = m.number → l.WritesAlike m) ∧
        a.launches.length = 1 ∧ 2 ≤ b.launches.length ∧ ¬SameCourse "t" a b := by
  constructor
  · intro a b
    have ha : a.files.readBytes (.ofText "t_results.txt") = .ok (Utf8.ofText "x") := by
      rw [(session_over ready_linked log_linked _ _ (by cbv)).1]
      cbv
    have hb : b.files.readBytes (.ofText "t_results.txt") = .ok (Utf8.ofText "y") := by
      rw [(session_over ready_linked log_linked _ _ (by cbv)).1]
      cbv
    refine ⟨writesAlike fun _ _ _ found => found, ha, hb, fun same => ?_⟩
    have results := ha.symm.trans (same.results.trans hb)
    exact absurd (Utf8.ofText_injective (Except.ok.inj results)) (by decide)
  · intro a b
    have ha : a.launches.length = 1 := by
      rw [(session_over ready_aside log_linkPlan _ _ (by cbv)).2]
      rfl
    have hb : 2 ≤ b.launches.length :=
      session_again 2 ⟨.ofText "p", .file 0, 32, [], 2⟩ ready_aside log_linkPlan (by cbv)
    have steady (away : Nat → Prop) (fs new : FileSystem) (found : Alike away fs new) :
        Alike away (linkPlan fs) (linkPlan new) := found.put (by decide) _
    refine ⟨writesAlike steady, ha, hb, fun same => ?_⟩
    have counts := congrArg List.length same.commands
    rw [List.length_map, List.length_map, ha] at counts
    omega

end Run
end TestBench
