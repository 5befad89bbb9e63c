import TestBench.Proofs.Run.Alongside
import TestBench.Proofs.Run.Preparation
import TestBench.Proofs.Run.Renewal
/-!
# Running again

What an earlier run has left in the log directory and in the results file makes no difference to a
run, whatever it is: two runs whose files differ in nothing else leave the same files. This fails if
there is a log directory that its path does not find, since a log base may lead through a directory
that is not there, and out of it again.
-/
namespace TestBench

open FileSystem (Pairing EntryAlike HandleAlike Paired Renamed Straight Rooted)

namespace Path

variable {base : Path} {name : Bytes} {fs : FileSystem}

theorem IsName.placeOf (h : IsName name) (fs : FileSystem) :
    fs.placeOf name = fs.workingDirectory ++ [name] := by
  rw [FileSystem.placeOf, FileSystem.start, h.isAbsolute, h.names, placeFrom_cons h.single h.double]
  rfl

/-- A name that is joined to a path is the last stop on the way. -/
theorem IsName.placeOf_mem_placesOf (h : IsName name) (fs : FileSystem) (base : Path) :
    fs.placeOf (join base name) ∈ fs.placesOf (join base name) := by
  rw [FileSystem.placeOf, FileSystem.placesOf, h.names_join, placeFrom_append, placesFrom_append,
    placeFrom_cons h.single h.double, placesFrom_cons h.single h.double]
  exact List.mem_append_right _ List.mem_cons_self

end Path

theorem Context.exists_logDir {config : Config} {env : Environment} {target : String}
    {ctx : Context} (made : Context.make config env target = .ok ctx) :
    ∃ base, ctx.logDir = Path.join base (.ofText target) := by
  cases based : config.logBasePath env with
  | error f =>
    rw [Context.make, based] at made
    cases made
  | ok base => exact ⟨base, (Context.of_make made).2.2 base based⟩

/-- The name of a results file is the name of one entry, as its target is. -/
theorem Context.Plain.results {target : String} (h : Context.Plain target) :
    Context.Plain (Context.resultsFileName target) := by
  have letters : (Context.resultsFileName target).toList =
      target.toList ++ "_results.txt".toList := String.toList_append
  have ne {s : String} (short : s.toList.length < 12) : Context.resultsFileName target ≠ s := by
    rintro rfl
    rw [letters, List.length_append] at short
    exact absurd short (by simp)
  refine ⟨ne (by decide), ?_, ne (by decide), ne (by decide)⟩
  rw [letters, List.mem_append]
  rintro (inside | inside)
  · exact h.undivided inside
  · exact absurd inside (by decide)

namespace FileSystem

/-- Nothing stands here, or a directory. -/
def Passable (c : Option Entry) : Prop := c = none ∨ c = some .directory

/-- Two file systems that differ only in what stands at a place and below it, in the directories on
the way to it, and in one file more, which has no other name, or the same ones on both sides. -/
structure Differ (ρ : Pairing) (way : List Location) (d r : Location) (fs new : FileSystem) :
    Prop where
  paired : Paired ρ fs new
  home : fs.workingDirectory = new.workingDirectory
  elsewhere : ∀ l, ¬d <+: l → l ≠ r → EntryAlike ρ (fs.entry? l) (new.entry? l) ∨
    l ∈ way ∧ Passable (fs.entry? l) ∧ Passable (new.entry? l)
  own : EntryAlike ρ (fs.entry? r) (new.entry? r) ∨
    (∀ a x, fs.entry? r = some (.file a x) → ∀ b, ¬ρ a b) ∧
      ∀ b x, new.entry? r = some (.file b x) → ∀ a, ¬ρ a b

variable {ρ : Pairing} {way : List Location} {d r : Location} {fs new : FileSystem} {p : Path}
  {e e' : Entry} {bs cs : Bytes} {handle handle' : Handle}

theorem readBytes_ok (h : fs.readBytes p = .ok bs) :
    ∃ handle : Handle, fs.openRead p = .ok handle ∧ handle.readAll fs = .ok bs := by
  unfold readBytes at h
  cases opens : fs.openRead p with
  | error e =>
    rw [opens] at h
    cases h
  | ok handle =>
    rw [opens] at h
    exact ⟨handle, rfl, h⟩

theorem readText_ok {s : String} (h : fs.readText p = .ok s) :
    ∃ bs, fs.readBytes p = .ok bs ∧ Utf8.text? bs = some s := by
  unfold readText at h
  cases read : fs.readBytes p with
  | error e =>
    rw [read] at h
    cases h
  | ok bs =>
    simp only [read] at h
    cases text : Utf8.text? bs with
    | none =>
      rw [text] at h
      cases h
    | some t =>
      rw [text] at h
      exact ⟨bs, rfl, text.trans (congrArg some (Except.ok.inj h))⟩

namespace Differ

theorem start (h : Differ ρ way d r fs new) (p : Path) : new.start p = fs.start p := by
  rw [FileSystem.start, FileSystem.start, h.home]

theorem placeOf (h : Differ ρ way d r fs new) (p : Path) : new.placeOf p = fs.placeOf p := by
  rw [FileSystem.placeOf, FileSystem.placeOf, h.start]

theorem placesOf (h : Differ ρ way d r fs new) (p : Path) : new.placesOf p = fs.placesOf p := by
  rw [FileSystem.placesOf, FileSystem.placesOf, h.start]

/-- What a path finds on both sides is alike, if the path leads to neither place. -/
theorem stat (h : Differ ρ way d r fs new) (straight : fs.Straight p) (straight' : new.Straight p)
    (out : ¬d <+: fs.placeOf p) (other : fs.placeOf p ≠ r) (found : fs.stat p = .ok e)
    (found' : new.stat p = .ok e') : EntryAlike ρ (some e) (some e') := by
  obtain ⟨l, located⟩ := stat_iff.mp found
  obtain ⟨l', located'⟩ := stat_iff.mp found'
  have here : l = fs.placeOf p := place_eq_of_locate straight located
  have here' : l' = new.placeOf p := place_eq_of_locate straight' located'
  have stands := (walks_of_locate located).entry
  have stands' := (walks_of_locate located').entry
  dsimp only at stands stands'
  rw [here] at stands
  rw [here', h.placeOf] at stands'
  rcases h.elsewhere (fs.placeOf p) out other with alike | ⟨_, passable, passable'⟩
  · rw [stands, stands']
    exact alike
  · have directory : e = .directory := by
      rcases passable with gone | there
      · cases stands.trans gone
      · exact Option.some.inj (stands.trans there)
    have directory' : e' = .directory := by
      rcases passable' with gone | there
      · cases stands'.trans gone
      · exact Option.some.inj (stands'.trans there)
    rw [directory, directory']
    exact .same fun _ _ he => by cases he

theorem openRead (h : Differ ρ way d r fs new) (straight : fs.Straight p)
    (straight' : new.Straight p) (out : ¬d <+: fs.placeOf p) (other : fs.placeOf p ≠ r)
    (opens : fs.openRead p = .ok handle) (opens' : new.openRead p = .ok handle') :
    HandleAlike ρ handle handle' := by
  unfold FileSystem.openRead at opens opens'
  cases found : fs.stat p with
  | error x =>
    rw [found] at opens
    cases opens
  | ok e =>
    cases found' : new.stat p with
    | error x =>
      rw [found'] at opens'
      cases opens'
    | ok e' =>
      rw [found] at opens
      rw [found'] at opens'
      dsimp only at opens opens'
      rcases (h.stat straight straight' out other found found').handleOf with
        ⟨x, none, _⟩ | ⟨_, _, opened, opened', alike⟩
      · rw [none] at opens
        cases opens
      · rw [opened] at opens
        rw [opened'] at opens'
        cases opens
        cases opens'
        exact alike

theorem readText (h : Differ ρ way d r fs new) (straight : fs.Straight p)
    (straight' : new.Straight p) (out : ¬d <+: fs.placeOf p) (other : fs.placeOf p ≠ r)
    {s t : String} (held : fs.readText p = .ok s) (held' : new.readText p = .ok t) : s = t := by
  obtain ⟨bs, read, text⟩ := readText_ok held
  obtain ⟨cs, read', text'⟩ := readText_ok held'
  obtain ⟨handle, opens, all⟩ := readBytes_ok read
  obtain ⟨handle', opens', all'⟩ := readBytes_ok read'
  have alike := h.openRead straight straight' out other opens opens'
  have same : bs = cs := Except.ok.inj (all.symm.trans ((h.paired.readAll alike).trans all'))
  subst same
  exact Option.some.inj (text.symm.trans text')

end Differ

/-- What a single name finds in the working directory, if it is no link. -/
theorem stat_name {name : Bytes} (own : Path.IsName name) (plain : Plain name)
    (short : ¬longestName < name.length) (straight : fs.Straight name) :
    fs.stat name = match fs.entry? (fs.placeOf name) with
      | some e => .ok e
      | none => .error (.system .noEntry) := by
  have named : Named .follow false name [] := ⟨own.single, own.double, by simp, short⟩
  have here : name ∈ [name] := List.mem_singleton_self name
  have locates {spot : Spot}
      (walks : Walks fs .follow mostLinks fs.workingDirectory false [name] spot) :
      fs.locate .follow name = .ok spot := by
    refine locate_iff.mpr ⟨plain, ?_⟩
    rw [own.isAbsolute, own.names, show Path.endsInSlash name = false from own.endsInSlash []]
    exact walks
  rw [own.placeOf]
  unfold FileSystem.stat
  cases stands : fs.entry? (fs.workingDirectory ++ [name]) with
  | none => rw [locates (.missing named stands)]
  | some e =>
    cases e with
    | directory =>
      rw [locates (.down named stands .arrived), stands]
    | link target =>
      have mine : fs.workingDirectory ++ [name] ∈ fs.placesOf name := by
        rw [placesOf, FileSystem.start, own.isAbsolute, own.names,
          Path.placesFrom_cons own.single own.double]
        exact List.mem_cons_self
      exact absurd stands (straight _ mine target)
    | file id x => rw [locates (.found named stands rfl rfl)]
    | device d => rw [locates (.found named stands rfl rfl)]
    | program n => rw [locates (.found named stands rfl rfl)]

theorem Differ.isFile {name : Bytes} (h : Differ ρ way d r fs new) (own : Path.IsName name)
    (plain : Plain name) (short : ¬longestName < name.length) (straight : fs.Straight name)
    (straight' : new.Straight name) (out : ¬d <+: fs.placeOf name)
    (other : fs.placeOf name ≠ r) : fs.isFile name = new.isFile name := by
  unfold FileSystem.isFile
  rw [stat_name own plain short straight, stat_name own plain short straight', h.placeOf]
  rcases h.elsewhere _ out other with alike | ⟨_, passable, passable'⟩
  · generalize fs.entry? (fs.placeOf name) = c at alike
    generalize new.entry? (fs.placeOf name) = c' at alike
    cases alike <;> rfl
  · rcases passable with gone | there <;> rcases passable' with gone' | there' <;>
      simp only [*]

/-- A file with a name elsewhere. -/
def Outside (d r : Location) (fs : FileSystem) (a : Nat) : Prop :=
  ∃ l x, ¬d <+: l ∧ l ≠ r ∧ fs.entry? l = some (.file a x)

def sameOutside (d r : Location) (fs : FileSystem) : Pairing := fun a b => a = b ∧ Outside d r fs a

/-- If the files elsewhere even have the same numbers, every such file makes a pair with itself. -/
theorem differ_of_same (sound : fs.Sound) (home : fs.workingDirectory = new.workingDirectory)
    (fresh : fs.fresh ≤ new.fresh)
    (tree : ∀ l, ¬d <+: l → l ≠ r → new.entry? l = fs.entry? l)
    (contents : ∀ a, Outside d r fs a → fs.content a = new.content a)
    (lone : ∀ a x, Outside d r fs a →
      fs.entry? r ≠ some (.file a x) ∧ new.entry? r ≠ some (.file a x)) :
    fs.Differ (sameOutside d r fs) way d r new := by
  refine ⟨⟨?_, ?_, ?_, ?_⟩, home, ?_, .inr ⟨?_, ?_⟩⟩
  · rintro a b c ⟨rfl, _⟩ ⟨rfl, _⟩
    rfl
  · rintro a b c ⟨rfl, _⟩ ⟨rfl, _⟩
    rfl
  · rintro a b ⟨rfl, l, x, _, _, there⟩
    have old := sound l a x there
    exact ⟨old, Nat.lt_of_lt_of_le old fresh⟩
  · rintro a b ⟨rfl, named⟩
    exact contents a named
  · intro l out other
    left
    rw [tree l out other]
    cases there : fs.entry? l with
    | none => exact .absent
    | some e =>
      cases e with
      | file a x => exact .file ⟨rfl, l, x, out, other, there⟩
      | directory => exact .same fun _ _ he => by cases he
      | link target => exact .same fun _ _ he => by cases he
      | device v => exact .same fun _ _ he => by cases he
      | program name => exact .same fun _ _ he => by cases he
  · rintro a x own b ⟨rfl, named⟩
    exact (lone a x named).1 own
  · rintro b x own a ⟨rfl, named⟩
    exact (lone a x named).2 own

end FileSystem

namespace Records

variable {ρ : Pairing} {fs new ready ready' : FileSystem} {ctx : Context} {a b : Nat} {x : Bool}

/-- There is no log directory to be found. -/
theorem foundIfThere_of_entries {fs : FileSystem} {dir : Path} (full : fs.placeOf dir ≠ [])
    (none : ∀ t ∈ fs.entries, ¬fs.placeOf dir <+: t.1) : FoundIfThere fs dir := by
  rintro ⟨l, below, stands⟩
  obtain ⟨e, there⟩ := Option.ne_none_iff_exists'.mp stands
  have hl : l ≠ [] := by
    rintro rfl
    exact full (List.prefix_nil.mp below)
  exact absurd below (none _ (FileSystem.mem_entries hl there))

/-- The results files are a pair already, or have not been in any. -/
theorem results_pair (h : Renewed fs ctx a x ready) (h' : Renewed new ctx b x ready')
    (differ : fs.Differ ρ (fs.placesOf ctx.logDir) (fs.placeOf ctx.logDir)
      (fs.placeOf ctx.resultsPath) new) :
    ρ a b ∨ (∀ j, ¬ρ a j) ∧ ∀ i, ¬ρ i b := by
  have origin' := h'.origin
  rw [differ.placeOf] at origin'
  have young (new' : fs.fresh ≤ a) (j : Nat) : ¬ρ a j := fun p =>
    Nat.not_lt_of_le new' (differ.paired.old p).1
  have young' (new' : new.fresh ≤ b) (i : Nat) : ¬ρ i b := fun p =>
    Nat.not_lt_of_le new' (differ.paired.old p).2
  rcases differ.own with alike | ⟨single, single'⟩
  · rcases h.origin with file | ⟨gone, new₁⟩ <;> rcases origin' with file' | ⟨gone', new₂⟩
    · rw [file, file'] at alike
      cases alike with
      | same other => exact absurd rfl (other _ _)
      | file pair => exact .inl pair
    · rw [file, gone'] at alike
      cases alike
    · rw [gone, file'] at alike
      cases alike
    · exact .inr ⟨young new₁, young' new₂⟩
  · refine .inr ⟨?_, ?_⟩
    · rcases h.origin with file | ⟨_, new₁⟩
      · exact single a x file
      · exact young new₁
    · rcases origin' with file' | ⟨_, new₂⟩
      · exact single' b x file'
      · exact young' new₂

/-- Two runs that are prepared over files that differ only in what preparation replaces find the
same files. -/
theorem renamed_of_renewed (h : Renewed fs ctx a x ready) (h' : Renewed new ctx b x ready')
    (differ : fs.Differ ρ (fs.placesOf ctx.logDir) (fs.placeOf ctx.logDir)
      (fs.placeOf ctx.resultsPath) new) :
    Renamed (FileSystem.extend ρ a b) ready ready' := by
  have pair := results_pair h h' differ
  obtain ⟨way', results', others', _, header', contents', fresh', home'⟩ := h'
  rw [differ.placesOf] at way' others'
  rw [differ.placeOf] at results' others'
  rw [differ.placeOf] at others'
  refine ⟨?_, ?_, ?_⟩
  · refine differ.paired.extend ?_ ?_ h.fresh fresh' (h.header.trans header'.symm) h.contents
      contents'
    · intro j p
      rcases pair with pair | ⟨single, _⟩
      · exact differ.paired.right p pair
      · exact absurd p (single j)
    · intro i p
      rcases pair with pair | ⟨_, single⟩
      · exact differ.paired.left p pair
      · exact absurd p (single i)
  · intro l
    by_cases mine : l ∈ fs.placesOf ctx.logDir
    · rw [h.way l mine, way' l mine]
      exact .same fun _ _ he => by cases he
    by_cases results : l = fs.placeOf ctx.resultsPath
    · rw [results, h.results, results']
      exact .file (FileSystem.extend_pair ρ a b)
    · rw [h.others l mine results, others' l mine results]
      by_cases below : fs.placeOf ctx.logDir <+: l
      · rw [if_pos below, if_pos below]
        exact .absent
      · rw [if_neg below, if_neg below]
        rcases differ.elsewhere l below results with alike | ⟨way, _⟩
        · exact alike.mono fun _ _ p => .inl p
        · exact absurd way mine
  · rw [h.home, home', differ.home]

end Records

/-- The file from which the settings of a session are taken, if it is there. -/
def Cli.Arguments.settings (args : Cli.Arguments) : Path := args.config.getD Config.standardFile

namespace Run

open Cli (Arguments Opened Surroundings)

variable {w : Surroundings} {args : Arguments} {fs new : FileSystem} {ρ : Pairing}

/-- A session that is prepared for its run, and that meets no link on the way of its paths. -/
structure Begun (w : Surroundings) (args : Arguments) (fs : FileSystem) where
  config : Config
  opened : Opened
  ready : FileSystem
  sound : fs.Sound
  rooted : fs.Rooted
  resolves : Config.resolve fs args.config = .ok config
  opens : Cli.openRun w.env fs args config = .ok opened
  prepared : Records.prepare fs opened.context = (none, ready)
  logDir : fs.Straight opened.context.logDir
  results : fs.Straight opened.context.resultsPath
  plan : fs.Straight args.testPlan
  settings : fs.Straight args.settings

/-- In a tree that is in order and has no links a session that is prepared has begun. -/
def Begun.ofTidy (config : Config) (opened : Opened) (ready : FileSystem) (tidy : fs.tidy = true)
    (resolves : Config.resolve fs args.config = .ok config)
    (opens : Cli.openRun w.env fs args config = .ok opened)
    (prepared : Records.prepare fs opened.context = (none, ready)) : Begun w args fs :=
  ⟨config, opened, ready, FileSystem.sound_of_tidy tidy, FileSystem.rooted_of_tidy tidy, resolves,
    opens, prepared, FileSystem.straight_of_tidy tidy _, FileSystem.straight_of_tidy tidy _,
    FileSystem.straight_of_tidy tidy _, FileSystem.straight_of_tidy tidy _⟩

/-- The results, the plan and the settings are not kept in the log directory, and neither the plan
nor the settings are kept in the results file. -/
structure SetApart (fs : FileSystem) (args : Arguments) (c : Context) : Prop where
  results : ¬fs.placeOf c.logDir <+: fs.placeOf c.resultsPath
  plan : ¬fs.placeOf c.logDir <+: fs.placeOf args.testPlan
  settings : ¬fs.placeOf c.logDir <+: fs.placeOf args.settings
  planOwn : fs.placeOf args.testPlan ≠ fs.placeOf c.resultsPath
  settingsOwn : fs.placeOf args.settings ≠ fs.placeOf c.resultsPath

/-- Two sessions over files that differ only in what an earlier one may have left in the log
directory and in the results file, which is a file with the same permission in both. -/
structure Matched (ρ : Pairing) (first : Begun w args fs) (second : Begun w args new) : Prop where
  apart : SetApart fs args first.opened.context
  differ : fs.Differ ρ (fs.placesOf first.opened.context.logDir)
    (fs.placeOf first.opened.context.logDir) (fs.placeOf first.opened.context.resultsPath) new
  regular : ∃ a b x,
    first.ready.entry? (fs.placeOf first.opened.context.resultsPath) = some (.file a x) ∧
      second.ready.entry? (fs.placeOf first.opened.context.resultsPath) = some (.file b x)

theorem load_ok {p : Path} {config : Config} (h : Config.load fs p = .ok config) :
    ∃ text, fs.readText p = .ok text ∧ (Toml.parse text).bind Config.ofTable = some config := by
  unfold Config.load at h
  cases read : fs.readText p with
  | error e =>
    rw [read] at h
    cases h
  | ok text =>
    simp only [read] at h
    cases decoded : (Toml.parse text).bind Config.ofTable with
    | none =>
      rw [decoded] at h
      cases h
    | some c =>
      rw [decoded] at h
      exact ⟨text, rfl, decoded.trans (congrArg some (Except.ok.inj h))⟩

theorem isName_standardFile : Path.IsName Config.standardFile := by
  constructor <;> decide +kernel

/-- The two sessions have the same settings. -/
theorem Matched.config {first : Begun w args fs} {second : Begun w args new}
    (h : Matched ρ first second) : first.config = second.config := by
  have loaded (loads : Config.load fs args.settings = .ok first.config)
      (loads' : Config.load new args.settings = .ok second.config) :
      first.config = second.config := by
    obtain ⟨text, read, decoded⟩ := load_ok loads
    obtain ⟨text', read', decoded'⟩ := load_ok loads'
    have same := h.differ.readText first.settings second.settings h.apart.settings
      h.apart.settingsOwn read read'
    subst same
    exact Option.some.inj (decoded.symm.trans decoded')
  have resolved := first.resolves
  have resolved' := second.resolves
  cases named : args.config with
  | some p =>
    rw [named] at resolved resolved'
    have file : args.settings = p := by rw [Arguments.settings, named]; rfl
    rw [file] at loaded
    exact loaded resolved resolved'
  | none =>
    rw [named] at resolved resolved'
    have file : args.settings = Config.standardFile := by rw [Arguments.settings, named]; rfl
    have straight := first.settings
    have straight' := second.settings
    have out := h.apart.settings
    have own := h.apart.settingsOwn
    rw [file] at loaded straight straight' out own
    have same := h.differ.isFile isName_standardFile (by constructor <;> decide +kernel)
      (by decide +kernel) straight straight' out own
    unfold Config.resolve at resolved resolved'
    rw [← same] at resolved'
    dsimp only at resolved resolved'
    by_cases there : fs.isFile Config.standardFile = true
    · rw [if_pos there] at resolved resolved'
      exact loaded resolved resolved'
    · rw [if_neg there] at resolved resolved'
      exact Except.ok.inj (resolved.symm.trans resolved')

/-- Two sessions have left the same: the same stands everywhere, and the same can be read from the
results file. -/
structure SameLeft (results : Path) (c c' : Cli.Conduct) : Prop where
  exit : ∀ code, c.exit = .ok code ↔ c'.exit = .ok code
  tree : ∀ l, (c.files.entry? l).map c.files.shown = (c'.files.entry? l).map c'.files.shown
  results : ∀ bs, c.files.readBytes results = .ok bs ↔ c'.files.readBytes results = .ok bs

theorem SameLeft.of_alongside {f g : Finish} (h : f.Alongside ρ g) (results : Path)
    (l l' : Locale) (told told' : List Console.Notice) (now now' : Nat) :
    SameLeft results (concluded l told now f) (concluded l' told' now' g) := by
  have left (files : Renamed ρ f.progress.files g.progress.files)
      (exit : ∀ code, (concluded l told now f).exit = .ok code ↔
        (concluded l' told' now' g).exit = .ok code) :
      SameLeft results (concluded l told now f) (concluded l' told' now' g) := by
    refine ⟨exit, ?_, ?_⟩
    · intro m
      rw [concluded_files, concluded_files]
      exact (files.entry m).shown files.paired
    · intro bs
      rw [concluded_files, concluded_files]
      exact ⟨files.readBytes, files.symm.readBytes⟩
  cases h with
  | completed files calm =>
    refine left files fun code => ?_
    simp only [concluded, calm.1.exitCode, calm.2.exitCode]
  | failed f f' files => exact left files fun code => by simp only [concluded, reduceCtorEq]
  | unfinished files => exact left files fun code => Iff.rfl

theorem Matched.context {first : Begun w args fs} {second : Begun w args new}
    (h : Matched ρ first second) : second.opened.context = first.opened.context := by
  have made := (Cli.openRun_parts first.opens).2
  have made' := (Cli.openRun_parts second.opens).2
  rw [h.config] at made
  exact Except.ok.inj (made'.symm.trans made)

theorem Begun.own (first : Begun w args fs) (plain : Context.Plain args.target)
    (fs : FileSystem) :
    fs.placeOf first.opened.context.logDir ∈ fs.placesOf first.opened.context.logDir := by
  obtain ⟨base, logDir⟩ := Context.exists_logDir (Cli.openRun_parts first.opens).2
  rw [logDir]
  exact plain.isName.placeOf_mem_placesOf fs base

/-- When they are prepared the two sessions find the same files. -/
theorem Matched.ready {first : Begun w args fs} {second : Begun w args new}
    (h : Matched ρ first second) (plain : Context.Plain args.target)
    (found : Records.FoundIfThere fs first.opened.context.logDir)
    (found' : Records.FoundIfThere new second.opened.context.logDir) :
    ∃ a b, Renamed (FileSystem.extend ρ a b) first.ready second.ready := by
  obtain ⟨a, b, x, regular, regular'⟩ := h.regular
  have apart := h.apart.results
  have outside : ¬fs.placeOf first.opened.context.logDir <+: fs.workingDirectory := by
    intro inside
    apply apart
    rw [(Context.of_make (Cli.openRun_parts first.opens).2).2.1, plain.results.isName.placeOf]
    exact inside.trans (List.prefix_append _ _)
  have renewed := Records.renewed_of_prepare first.sound first.rooted first.logDir
    (first.own plain fs) first.results apart outside found regular first.prepared
  have renewed' : Records.Renewed new first.opened.context b x second.ready := by
    rw [← h.differ.placeOf, ← h.context] at regular'
    rw [← h.differ.placeOf, ← h.differ.placeOf, ← h.context] at apart
    rw [← h.differ.placeOf, h.differ.home, ← h.context] at outside
    rw [← h.context]
    exact Records.renewed_of_prepare second.sound second.rooted second.logDir
      (second.own plain new) second.results apart outside found' regular' second.prepared
  exact ⟨a, b, Records.renamed_of_renewed renewed renewed' h.differ⟩

/-- The plan is open in both sessions, as the same file. -/
theorem Matched.reader {first : Begun w args fs} {second : Begun w args new}
    (h : Matched ρ first second) : ∃ handle, HandleAlike ρ first.opened.reader.handle handle ∧
      second.opened.reader = first.opened.reader.reopened handle := by
  obtain ⟨handle, opens, reader⟩ := Plan.Reader.open_eq (Cli.openRun_parts first.opens).1
  obtain ⟨handle', opens', reader'⟩ := Plan.Reader.open_eq (Cli.openRun_parts second.opens).1
  rw [reader, reader']
  have alike := h.differ.openRead first.plan second.plan h.apart.plan h.apart.planOwn opens opens'
  exact ⟨handle', alike, rfl⟩

/-- Two uncancelled sessions with the same children leave the same tree and the same results file,
whatever an earlier one has left in the log directory and in the results file, as long as the log
directory is found if it is there. -/
theorem sessions_leave_nothing_of_earlier_ones (uniform : w.children.Uniform)
    (quiet : w.stop.Silent) (plain : Context.Plain args.target) {first : Begun w args fs}
    {second : Begun w args new} (matched : Matched ρ first second)
    (found : Records.FoundIfThere fs first.opened.context.logDir)
    (found' : Records.FoundIfThere new second.opened.context.logDir) (inForce inForce' : Locale) :
    SameLeft first.opened.context.resultsPath (Cli.conduct w inForce args fs)
      (Cli.conduct w inForce' args new) := by
  obtain ⟨a, b, renamed⟩ := matched.ready plain found found'
  obtain ⟨handle, alike, reopened⟩ := matched.reader
  have setup : w.setup second.config second.opened = w.setup first.config first.opened := by
    rw [Cli.Surroundings.setup, matched.context, ← matched.config]
    rfl
  have start : Alongside (FileSystem.extend ρ a b) (.start first.ready) (.start second.ready) :=
    ⟨renamed, rfl, ⟨rfl, rfl⟩, rfl, rfl⟩
  obtain ⟨σ, ends⟩ := Alongside.plan (s := w.setup first.config first.opened) (n := w.bound)
    uniform quiet start (alike.mono fun _ _ p => .inl p)
  rw [conduct_ready inForce first.resolves first.opens first.prepared,
    conduct_ready inForce' second.resolves second.opens second.prepared, setup, reopened]
  exact .of_alongside ends _ _ _ _ _ _ _

/-- Children that always do and print the same, if what they do makes nothing of numbers. -/
theorem uniform_doing {change : FileSystem → FileSystem} (output : String)
    (result : Except IoError Child.Exit)
    (same : ∀ ρ fs new, Renamed ρ fs new → FileSystem.StillRenamed ρ (change fs) (change new)) :
    (OneRow.doing change output result).Uniform :=
  fun ρ fs new _ _ _ _ renamed => ⟨rfl, same ρ fs new renamed⟩

namespace OneRow

/-- A child that adds a line to the results file. -/
def addLine (fs : FileSystem) : FileSystem :=
  (Records.appendNotExecuted fs (.ofText "t_results.txt") "x").2

theorem addLine_same (ρ : Pairing) (fs new : FileSystem) (h : Renamed ρ fs new) :
    FileSystem.StillRenamed ρ (addLine fs) (addLine new) := by
  unfold addLine
  rcases h.appendNotExecuted (.ofText "t_results.txt") "x" with
    ⟨f, f', failed, failed'⟩ | ⟨left, right, added, added', after⟩
  · rw [failed, failed']
    exact h.still
  · rw [added, added']
    exact after.still

def adding : Child.Children := doing addLine "x" (.ok (.exited (.ofCode 0)))

/-- The files before the first session. -/
def before : FileSystem := files (.file 1 false)

/-- The files that the first session leaves. -/
def once : FileSystem := ((addLine aside).create logged false []).append 2 (Utf8.ofText "x")

theorem session_once : (session (.file 1 false) adding).files = once := by
  have located : (addLine aside).locate .make log = .ok ⟨logged, none⟩ := by
    rw [log_eq]
    cbv
  have young : (addLine aside).fresh = 2 := by cbv
  have opens := FileSystem.openWrite_of_free located (by decide +kernel)
  rw [young] at opens
  exact (session_over ready_aside opens "x" (.ok (.exited (.ofCode 0))) (by cbv)).1

def first : Begun (surroundings adding) arguments before :=
  .ofTidy .standard opened aside (by cbv) ready_aside.resolves ready_aside.opens
    ready_aside.prepared

/-- The files that the second session finds when it is prepared. -/
def anew : FileSystem :=
  ((((once.clear logDir).drop logDir).put logDir .directory).write 1 []).append 1 Records.header

theorem prepared_once : Records.prepare once opened.context = (none, anew) := by
  have there : once.pathExists opened.context.logDir = true := by cbv
  have removed : once.removeAll opened.context.logDir =
      (none, (once.clear logDir).drop logDir) := by cbv
  have named : FileSystem.locateName ((once.clear logDir).drop logDir) opened.context.logDir =
      .ok ⟨logDir, none⟩ := by cbv
  have made := FileSystem.makeDirectory_of_free named (by decide +kernel)
  rw [Records.prepare_of_there (by decide) there removed made]
  exact Records.createResults_of_file (by cbv)

theorem opens_once : Cli.openRun [] once arguments .standard = .ok opened := by
  have reads : Plan.Reader.open once arguments.testPlan = .ok opened.reader := by cbv
  simp only [Cli.openRun, reads, (Cli.openRun_parts ready_aside.opens).2]

def second : Begun (surroundings adding) arguments once :=
  .ofTidy .standard opened anew (by cbv)
    (by
      rw [show arguments.config = none from rfl, Config.resolve,
        show once.isFile Config.standardFile = false by cbv]
      rfl)
    opens_once prepared_once

theorem entry?_once {l : Location} (out : ¬logDir <+: l) : once.entry? l = before.entry? l := by
  have written : addLine aside = aside.append 1 (Records.notExecutedLine "x") := by cbv
  have inside : l ≠ logged := fun he => out (he ▸ by decide +kernel)
  have other : l ≠ logDir := fun he => out (he ▸ List.prefix_rfl)
  have new := FileSystem.entry?_create (l := logged) (by decide +kernel) (addLine aside) false [] l
  have made := FileSystem.entry?_put (l := logDir) (by decide +kernel) before .directory l
  rw [if_neg inside] at new
  rw [if_neg other] at made
  show FileSystem.entry? ((addLine aside).create logged false []) l = _
  rw [new, written]
  exact made

def results : Location := [Utf8.ofText "t_results.txt"]

theorem outside {a : Nat} (h : FileSystem.Outside logDir results before a) : a = 0 := by
  obtain ⟨l, x, _, other, there⟩ := h
  have listed := FileSystem.mem_entries (FileSystem.ne_nil_of_file there) there
  simp only [before, files, List.mem_cons, Prod.mk.injEq, List.not_mem_nil, or_false] at listed
  rcases listed with ⟨_, file⟩ | ⟨_, file⟩ | ⟨rfl, _⟩
  · cases file
    rfl
  · cases file
  · exact absurd rfl other

theorem matched : Matched (FileSystem.sameOutside logDir results before) first second := by
  have place : before.placeOf first.opened.context.logDir = logDir := by cbv
  have place' : before.placeOf first.opened.context.resultsPath = results := by cbv
  have young : once.fresh = 3 := by cbv
  have same : once.entry? results = some (.file 1 false) := by cbv
  refine ⟨⟨by decide +kernel, by decide +kernel, by decide +kernel, by decide +kernel,
    by decide +kernel⟩, ?_, 1, 1, false, ?_, ?_⟩
  · rw [place, place']
    refine FileSystem.differ_of_same first.sound (by cbv) (by rw [young]; decide)
      (fun l out _ => entry?_once out) ?_ ?_
    · intro a named
      rw [outside named]
      cbv
    · intro a x named
      rw [outside named, same]
      exact ⟨by cases x <;> decide +kernel, by simp⟩
  · rw [place']
    cbv
  · rw [place']
    cbv

end OneRow

/-- A second session over what the first one has left leaves the same once more. -/
theorem sessions_leave_nothing_of_earlier_ones_of_oneRow :
    SameLeft (.ofText "t_results.txt") (OneRow.session (.file 1 false) OneRow.adding)
      (Cli.conduct (OneRow.surroundings OneRow.adding) .english OneRow.arguments
        (OneRow.session (.file 1 false) OneRow.adding).files) := by
  rw [OneRow.session_once]
  refine sessions_leave_nothing_of_earlier_ones (uniform_doing _ _ OneRow.addLine_same)
    StopRequest.never_silent (by constructor <;> decide) OneRow.matched ?_ ?_ .english .english
  · exact Records.foundIfThere_of_entries (by decide +kernel) (by decide +kernel)
  · intro _
    show OneRow.once.pathExists OneRow.opened.context.logDir = true
    cbv

namespace Detour

/-- A log base that leads through a directory that is not there, and out of it again. -/
def config : Config := { Config.standard with logBase := "nope/../logs" }

def at' (names : List String) : Location := names.map Utf8.ofText

def bare : FileSystem :=
  ⟨[(at' ["p"], .file 0 false), (at' ["RunPlan.toml"], .file 1 false), (at' ["logs"], .directory),
      (at' ["logs", "t"], .directory)],
    [(0, Utf8.ofText "a,none,1,2,off\n"), (1, Utf8.ofText "log_base = \"nope/../logs\"\n")], 2,
    []⟩

/-- The same with a log that an earlier session has left. -/
def stale : FileSystem := bare.create (at' ["logs", "t", "old"]) false (Utf8.ofText "old\n")

def arguments : Arguments := ⟨.ofText "p", "t", none, none⟩

def opened : Opened :=
  ⟨⟨.ofText "p", .file 0, 0, [], 0⟩, ⟨"t", .ofText "nope/../logs/t", .ofText "t_results.txt"⟩⟩

def surroundings : Surroundings :=
  ⟨[], OneRow.doing OneRow.idle "" (.ok (.exited (.ofCode 0))), .never, 0, 3⟩

theorem opens {fs : FileSystem}
    (reads : Plan.Reader.open fs arguments.testPlan = .ok opened.reader) :
    Cli.openRun surroundings.env fs arguments config = .ok opened := by
  have named := Expand.full_of_plain [] (s := "nope/../logs") (by decide) (by decide)
  rw [show "nope/../logs" = config.logBase from rfl] at named
  have based : config.logBasePath [] = .ok (.ofText "nope/../logs") := by
    simp only [Config.logBasePath, named]
    rfl
  have made : Context.make config surroundings.env arguments.target = .ok opened.context := by
    simp only [Context.make, show surroundings.env = [] from rfl, based]
    cbv
  simp only [Cli.openRun, reads, made]

theorem resolves {fs : FileSystem} (there : fs.isFile Config.standardFile = true)
    (read : fs.readText Config.standardFile = .ok "log_base = \"nope/../logs\"\n") :
    Config.resolve fs arguments.config = .ok config := by
  have decoded : (Toml.parse "log_base = \"nope/../logs\"\n").bind Config.ofTable =
      some config := by cbv
  simp only [show arguments.config = none from rfl, Config.resolve, there, if_true, Config.load,
    read, decoded]

def first : Begun surroundings arguments bare :=
  .ofTidy config opened (Records.prepare bare opened.context).2 (by cbv)
    (resolves (by cbv) (by cbv)) (opens (by cbv)) (Prod.ext (by cbv) rfl)

def second : Begun surroundings arguments stale :=
  .ofTidy config opened (Records.prepare stale opened.context).2 (by cbv)
    (resolves (by cbv) (by cbv)) (opens (by cbv)) (Prod.ext (by cbv) rfl)

theorem outside {a : Nat}
    (h : FileSystem.Outside (at' ["logs", "t"]) (at' ["t_results.txt"]) bare a) :
    a = 0 ∨ a = 1 := by
  obtain ⟨l, x, _, _, there⟩ := h
  have listed := FileSystem.mem_entries (FileSystem.ne_nil_of_file there) there
  simp only [bare, List.mem_cons, Prod.mk.injEq, List.not_mem_nil, or_false] at listed
  rcases listed with ⟨_, file⟩ | ⟨_, file⟩ | ⟨_, file⟩ | ⟨_, file⟩
  · cases file
    exact .inl rfl
  · cases file
    exact .inr rfl
  · cases file
  · cases file

theorem matched : Matched (FileSystem.sameOutside (at' ["logs", "t"]) (at' ["t_results.txt"]) bare)
    first second := by
  have place : bare.placeOf first.opened.context.logDir = at' ["logs", "t"] := by cbv
  have place' : bare.placeOf first.opened.context.resultsPath = at' ["t_results.txt"] := by cbv
  have gone : bare.entry? (at' ["t_results.txt"]) = none := by cbv
  have gone' : stale.entry? (at' ["t_results.txt"]) = none := by cbv
  refine ⟨⟨by decide +kernel, by decide +kernel, by decide +kernel, by decide +kernel,
    by decide +kernel⟩, ?_, 2, 3, false, ?_, ?_⟩
  · rw [place, place']
    refine FileSystem.differ_of_same first.sound rfl (Nat.le_succ _) ?_ ?_ ?_
    · intro l out _
      have inside : l ≠ at' ["logs", "t", "old"] := fun he => out (he ▸ by decide +kernel)
      have new := FileSystem.entry?_create (l := at' ["logs", "t", "old"]) (by decide +kernel) bare
        false (Utf8.ofText "old\n") l
      rw [if_neg inside] at new
      exact new
    · intro a named
      rcases outside named with rfl | rfl <;> cbv
    · intro a x _
      rw [gone, gone']
      exact ⟨(fun h => by cases h), (fun h => by cases h)⟩
  · rw [place']
    cbv
  · rw [place']
    cbv

/-- The exit code of a run that is completed, and what it leaves in the place of the old log. -/
def left : Finish → Option (Nat × Option FileSystem.Shown)
  | .completed p =>
    some (Cli.exitCode p.summary,
      (p.files.entry? (at' ["logs", "t", "old"])).map p.files.shown)
  | _ => none

theorem conduct_of_left {f : Finish} {code : Nat} {shown : Option FileSystem.Shown} (l : Locale)
    (told : List Console.Notice) (now : Nat) (h : left f = some (code, shown)) :
    let c := concluded l told now f
    c.exit = .ok code ∧ (c.files.entry? (at' ["logs", "t", "old"])).map c.files.shown = shown := by
  cases f with
  | completed p =>
    obtain ⟨rfl, rfl⟩ := Prod.mk.inj (Option.some.inj h)
    exact ⟨rfl, rfl⟩
  | failed f p => cases h
  | unfinished p => cases h

end Detour

/-- If the log base leads through a directory that is not there, a log directory is not found and so
not emptied, but it is there when that directory has been made. Two sessions that differ in an old
log only are completed, and one of them keeps it. -/
theorem stale_log_survives :
    Matched (FileSystem.sameOutside (Detour.at' ["logs", "t"]) (Detour.at' ["t_results.txt"])
        Detour.bare) Detour.first Detour.second ∧
      Detour.surroundings.children.Uniform ∧ Detour.surroundings.stop.Silent ∧
      Context.Plain Detour.arguments.target ∧
      let c := Cli.conduct Detour.surroundings .english Detour.arguments Detour.bare
      let c' := Cli.conduct Detour.surroundings .english Detour.arguments Detour.stale
      let old := Detour.at' ["logs", "t", "old"]
      (c.exit = .ok 0 ∧ (c.files.entry? old).map c.files.shown = none) ∧
        c'.exit = .ok 0 ∧
          (c'.files.entry? old).map c'.files.shown = some (.file (Utf8.ofText "old\n")) := by
  refine ⟨Detour.matched, uniform_doing _ _ fun _ _ _ h => h.still, StopRequest.never_silent,
    by constructor <;> decide, ?_⟩
  dsimp only
  rw [conduct_ready .english Detour.first.resolves Detour.first.opens Detour.first.prepared,
    conduct_ready .english Detour.second.resolves Detour.second.opens Detour.second.prepared]
  exact ⟨Detour.conduct_of_left _ _ _ (by cbv), Detour.conduct_of_left _ _ _ (by cbv)⟩

end Run
end TestBench
