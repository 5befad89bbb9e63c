import TestBench.Cli.Session
import TestBench.Proofs.Run.Turn
/-!
# Sessions and their runs

The plan that is opened for a run, the context that is made for its target, and what a session makes
of the end of its run.
-/
namespace TestBench

/-- A setting without a variable and without a tilde at its front stands for itself. -/
theorem Expand.full_of_plain (env : Environment) {s : String} (plain : '$' ∉ s.toList)
    (front : s.toList.head? ≠ some '~') : full env s = .ok s := by
  have kept (cs : List Char) (h : '$' ∉ cs) : substitute env cs = .ok cs := by
    induction cs with
    | nil => rw [substitute]
    | cons c rest ih =>
      have other : c ≠ '$' := fun same => h (same ▸ List.mem_cons_self)
      have later : '$' ∉ rest := fun inside => h (List.mem_cons_of_mem c inside)
      rw [substitute, ih later]
      · rfl
      all_goals
        intros
        exact other ‹c = '$'›
  have bare : (s.toList.head? == some '~') = false := beq_false_of_ne front
  simp only [full, kept s.toList plain, bare, Bool.false_eq_true, if_false]
  exact congrArg Except.ok String.ofList_toList

theorem Config.standard_logBasePath (env : Environment) :
    Config.standard.logBasePath env = .ok (.ofText "logs") := by
  have named := Expand.full_of_plain env (s := "logs") (by decide) (by decide)
  rw [show "logs" = Config.standard.logBase from rfl] at named
  simp only [logBasePath, named]
  rfl

theorem Context.make_standard (env : Environment) (target : String) :
    Context.make .standard env target =
      .ok ⟨target, Path.join (.ofText "logs") (.ofText target),
        .ofText (Context.resultsFileName target)⟩ := by
  simp only [make, Config.standard_logBasePath]

theorem Context.of_make {config : Config} {env : Environment} {target : String} {ctx : Context}
    (made : Context.make config env target = .ok ctx) :
    ctx.target = target ∧ ctx.resultsPath = .ofText (Context.resultsFileName target) ∧
      ∀ base, config.logBasePath env = .ok base →
        ctx.logDir = Path.join base (.ofText target) := by
  unfold Context.make at made
  cases based : config.logBasePath env with
  | error f =>
    rw [based] at made
    cases made
  | ok base =>
    rw [based] at made
    obtain rfl := Except.ok.inj made
    refine ⟨rfl, rfl, ?_⟩
    rintro _ ⟨⟩
    rfl

namespace Cli

theorem openRun_parts {env : Environment} {args : Arguments} {fs : FileSystem} {config : Config}
    {o : Opened} (h : openRun env fs args config = .ok o) :
    Plan.Reader.open fs args.testPlan = .ok o.reader ∧
      Context.make config env args.target = .ok o.context := by
  unfold openRun at h
  cases hr : Plan.Reader.open fs args.testPlan with
  | error f =>
    rw [hr] at h
    cases h
  | ok r =>
    simp only [hr] at h
    cases hc : Context.make config env args.target with
    | error f =>
      rw [hc] at h
      cases h
    | ok c =>
      rw [hc] at h
      obtain rfl := Except.ok.inj h
      exact ⟨rfl, rfl⟩

end Cli

namespace Run

open Console (Notice)

/-- What a session makes of the end of its run. -/
def concluded (l : Locale) (told : List Notice) (now : Nat) : Finish → Cli.Conduct
  | .completed p =>
    ⟨.ok (Cli.exitCode p.summary), l,
      told ++ p.notices ++ [.summary p.summary (Timestamp.ofUnix (now + p.clock / 1000))], p.files,
      p.launches⟩
  | .failed f p => ⟨.error f, l, told ++ p.notices, p.files, p.launches⟩
  | .unfinished p => ⟨.ok 0, l, told ++ p.notices, p.files, p.launches⟩

theorem concluded_files (l : Locale) (told : List Notice) (now : Nat) (f : Finish) :
    (concluded l told now f).files = f.progress.files := by
  cases f <;> rfl

theorem concluded_launches (l : Locale) (told : List Notice) (now : Nat) (f : Finish) :
    (concluded l told now f).launches = f.progress.launches := by
  cases f <;> rfl

theorem conduct_ready {w : Cli.Surroundings} {args : Cli.Arguments} {fs ready : FileSystem}
    {config : Config} {o : Cli.Opened} (inForce : Locale)
    (resolved : Config.resolve fs args.config = .ok config)
    (opened : Cli.openRun w.env fs args config = .ok o)
    (prepared : Records.prepare fs o.context = (none, ready)) :
    Cli.conduct w inForce args fs =
      concluded (Cli.runLocale w.env inForce args config)
        (Cli.targetNotices args.target ++
          [.header o.reader.path o.context (Timestamp.ofUnix w.now)]) w.now
        (plan (w.setup config o) w.bound o.reader (.start ready)) := by
  simp only [Cli.conduct, resolved, opened, Cli.perform, prepared]
  cases plan (w.setup config o) w.bound o.reader (.start ready) <;> rfl

/-- A session fails before it starts a child, whatever its children would do, or it comes to its
run. -/
theorem conduct_cases (w : Cli.Surroundings) (inForce : Locale) (args : Cli.Arguments)
    (fs : FileSystem) :
    (∃ c f, c.exit = .error f ∧ c.launches = [] ∧
      ∀ children, Cli.conduct { w with children } inForce args fs = c) ∨
    ∃ config o ready, Config.resolve fs args.config = .ok config ∧
      Cli.openRun w.env fs args config = .ok o ∧ Records.prepare fs o.context = (none, ready) := by
  cases resolved : Config.resolve fs args.config with
  | error f =>
    refine .inl ⟨⟨.error f, inForce, [], fs, []⟩, f, rfl, rfl, fun children => ?_⟩
    simp only [Cli.conduct, resolved]
  | ok config =>
    let l := Cli.runLocale w.env inForce args config
    let told := Cli.targetNotices args.target
    cases opened : Cli.openRun w.env fs args config with
    | error f =>
      refine .inl ⟨⟨.error f, l, told, fs, []⟩, f, rfl, rfl, fun children => ?_⟩
      simp only [Cli.conduct, resolved, opened, l, told]
    | ok o =>
      cases prepared : Records.prepare fs o.context with
      | mk failure left =>
        cases failure with
        | some f =>
          refine .inl ⟨⟨.error f, l, told, left, []⟩, f, rfl, rfl, fun children => ?_⟩
          simp only [Cli.conduct, resolved, opened, Cli.perform, prepared, l, told]
        | none => exact .inr ⟨config, o, left, rfl, opened, prepared⟩

/-- A session gives its children their commands and the files as they are, and nothing else. -/
theorem launch_of_conduct {w : Cli.Surroundings} {inForce : Locale} {args : Cli.Arguments}
    {fs : FileSystem} {l : Launch} (h : l ∈ (Cli.conduct w inForce args fs).launches) :
    ∃ config o, l = (w.setup config o).launch l.number l.invocation l.found := by
  rcases conduct_cases w inForce args fs with
    ⟨c, _, _, none, early⟩ | ⟨config, o, ready, resolved, opened, prepared⟩
  · rw [early w.children, none] at h
    cases h
  · rw [conduct_ready inForce resolved opened prepared, concluded_launches] at h
    exact ⟨config, o, launch_of_plan h⟩

end Run
end TestBench
