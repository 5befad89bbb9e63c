import Mathlib
import TestBench.Proofs.Plan.Reading
import TestBench.Proofs.Run.Failure
import TestBench.Proofs.Run.Session
/-!
# The commands of a run

What the children of a run are given: one command for each line of the plan that is enabled, in the
order of the lines, with the fields of the line as they stand between its commas.
-/
namespace TestBench

open Plan (newline parseChars)

namespace Run

def Launch.words (l : Launch) : List String := l.invocation.program :: l.invocation.args

/-- The command that a line of a plan stands for, if it stands for one. Nothing is trimmed but the
flag, at its end. -/
def commandOf (program : String) (args : List String) (target : String) (line : List Char) :
    Option (List String) :=
  match Text.splitOn ',' line with
  | [name, sub, a, b, flag] =>
    if Text.trimEnd flag = "enabled".toList then
      some (program :: args ++ [.ofList name, .ofList sub, .ofList a, .ofList b, target,
        Context.resultsFileName target])
    else none
  | _ => none

def commandsIn (program : String) (args : List String) (target : String) (content : Bytes) :
    List (List String) :=
  (Text.splitOn newline content).filterMap fun line =>
    (Utf8.decode? line).bind (commandOf program args target)

/-- The plan file holds the same bytes at every head of the loop. -/
def Steady (s : Setup) (n : Nat) (r : Plan.Reader) (p : Progress) (content : Bytes) : Prop :=
  ∀ done q, done <+: pulled s n r p → advance s done p = .onward q →
    r.handle.readAll q.files = .ok content

variable {s : Setup} {p q t : Progress} {item : Plan.Item} {lines : List Plan.Item}
  {program target : String} {args words : List String} {line : List Char} {ctx : Context}

/-- The command of a line has the texts between its commas. -/
theorem commandOf_eq_some : commandOf program args target line = some words ↔
    ∃ name sub a b flag, line = name ++ ',' :: (sub ++ ',' :: (a ++ ',' :: (b ++ ',' :: flag))) ∧
      ',' ∉ name ∧ ',' ∉ sub ∧ ',' ∉ a ∧ ',' ∉ b ∧ ',' ∉ flag ∧
      Text.trimEnd flag = "enabled".toList ∧
      words = program :: args ++ [.ofList name, .ofList sub, .ofList a, .ofList b, target,
        Context.resultsFileName target] := by
  constructor
  · intro h
    have joined : [','].intercalate (Text.splitOn ',' line) = line := by
      rw [Text.splitOn_eq, List.intercalate_splitOn]
    have plain {f : List Char} (hf : f ∈ Text.splitOn ',' line) := Text.notMem_of_mem_splitOn hf
    unfold commandOf at h
    split at h
    · rename_i name sub a b flag pieces
      split at h
      · rename_i on
        rw [pieces] at joined plain
        refine ⟨name, sub, a, b, flag, ?_, plain (by simp), plain (by simp), plain (by simp),
          plain (by simp), plain (by simp), on, (Option.some.inj h).symm⟩
        rw [← joined]
        simp only [List.intercalate_cons_cons, List.intercalate_singleton, List.append_assoc,
          List.singleton_append]
      · cases h
    · cases h
  · rintro ⟨name, sub, a, b, flag, rfl, hn, hs, ha, hb, hf, on, rfl⟩
    have pieces : Text.splitOn ','
        (name ++ ',' :: (sub ++ ',' :: (a ++ ',' :: (b ++ ',' :: flag)))) =
          [name, sub, a, b, flag] := by
      rw [Text.splitOn_append_cons hn, Text.splitOn_append_cons hs, Text.splitOn_append_cons ha,
        Text.splitOn_append_cons hb, Text.splitOn_of_notMem hf]
    simp only [commandOf, pieces, on, if_true]

/-- The commands of the enabled rows of a plan. -/
def commands (program : String) (args : List String) (ctx : Context) (lines : List Plan.Item) :
    List (List String) :=
  (Plan.enabledRows lines).map fun row => program :: args ++ rowArguments row ctx

theorem commands_cons (item : Plan.Item) (rest : List Plan.Item) :
    commands program args ctx (item :: rest) =
      commands program args ctx [item] ++ commands program args ctx rest := by
  have cut : Plan.enabledRows ([item] ++ rest) =
      Plan.enabledRows [item] ++ Plan.enabledRows rest := Plan.enabledRows_append
  rw [← List.singleton_append, commands, cut, List.map_append]
  rfl

theorem commands_parseChars
    (results : ctx.resultsPath.display = Context.resultsFileName ctx.target) (n : Nat)
    (line : List Char) :
    commands program args ctx [.ok (parseChars n line)] =
      (commandOf program args ctx.target line).toList := by
  obtain ⟨front, last, pieces, trimmed⟩ := Text.splitOn_trimEnd ',' (by decide) line
  unfold commands commandOf parseChars
  dsimp only
  rw [pieces, trimmed]
  match front with
  | [name, sub, a, b] =>
    let row : Plan.Row := ⟨n, .ofList name, .ofList sub, .ofList a, .ofList b,
      .ofList (Text.trimEnd last)⟩
    dsimp only [List.cons_append, List.nil_append]
    by_cases on : Text.trimEnd last = "enabled".toList
    · have flag : row.isEnabled = true := by
        have same : row.flag = .ofList (Text.trimEnd last) := rfl
        rw [Plan.Row.isEnabled, beq_iff_eq, same, on]
        rfl
      rw [if_pos on, Plan.enabledRows_on flag]
      simp only [List.map_singleton, rowArguments, results, Option.toList_some]
      rfl
    · have flag : row.isEnabled = false := by
        rw [Plan.Row.isEnabled, beq_eq_false_iff_ne]
        intro h
        exact on (by rw [← h, String.toList_ofList])
      rw [if_neg on, Plan.enabledRows_off flag]
      rfl
  | [] => rfl
  | [_] => rfl
  | [_, _] => rfl
  | [_, _, _] => rfl
  | _ :: _ :: _ :: _ :: _ :: rest => cases rest <;> rfl

theorem commands_lines (results : ctx.resultsPath.display = Context.resultsFileName ctx.target)
    (lines : List (Nat × List Char)) :
    commands program args ctx (lines.map fun l => .ok (parseChars l.1 l.2)) =
      lines.filterMap fun l => commandOf program args ctx.target l.2 := by
  induction lines with
  | nil => rfl
  | cons l rest ih =>
    rw [List.map_cons, commands_cons, ih, commands_parseChars results, List.filterMap_cons]
    cases commandOf program args ctx.target l.2 <;> rfl

theorem commandOf_blank (blank : Plan.isBlank line = true) :
    commandOf program args target line = none := by
  obtain ⟨front, last, pieces, trimmed⟩ := Text.splitOn_trimEnd ',' (by decide) line
  rw [List.isEmpty_iff.mp blank] at trimmed
  have alone : front = [] := by
    have single := congrArg List.length trimmed
    rw [List.length_append] at single
    exact List.length_eq_zero_iff.mp (Nat.add_right_cancel single).symm
  rw [commandOf, pieces, alone]
  rfl

theorem commands_itemsOf (results : ctx.resultsPath.display = Context.resultsFileName ctx.target)
    (path : Path) (n : Nat) (lines : List Bytes) :
    commands program args ctx (Plan.itemsOf path n lines) =
      lines.filterMap fun line => (Utf8.decode? line).bind (commandOf program args ctx.target) := by
  induction lines generalizing n with
  | nil => rfl
  | cons line rest ih =>
    rw [List.filterMap_cons, Plan.itemsOf]
    cases decoded : Utf8.decode? line with
    | none =>
      dsimp only [Option.bind_none]
      rw [commands_cons]
      exact ih n
    | some cs =>
      dsimp only [Option.bind_some]
      by_cases blank : Plan.isBlank cs = true
      · rw [if_pos blank, commandOf_blank blank]
        exact ih (n + 1)
      · rw [if_neg blank, commands_cons, ih, commands_parseChars results]
        cases commandOf program args ctx.target cs <;> rfl

/-- What is taken from a plan in a run that is completed are lines, as an error would end it. -/
theorem exists_lines {n : Nat} {r : Plan.Reader} (quiet : s.stop.Silent) (going : p.stopped = false)
    (run : plan s n r p = .completed t) :
    ∃ lines : List (Nat × List Char),
      pulled s n r p = lines.map fun l => .ok (parseChars l.1 l.2) := by
  induction n generalizing r p with
  | zero => cases run
  | succ n ih =>
    have kind (item : Plan.Item) (h : (r.next p.files).1 = some item) :
        (∃ f, item = .error f) ∨ ∃ n cs, item = .ok (parseChars n cs) := Plan.Reader.next_item h
    simp only [plan, pulled] at run ⊢
    generalize r.next p.files = next at run kind
    obtain ⟨item, left⟩ := next
    cases item with
    | none => exact ⟨[], rfl⟩
    | some item =>
      have taken := takeItem_silent quiet going item
      rcases kind item rfl with ⟨f, rfl⟩ | ⟨m, cs, rfl⟩
      · simp only [taken, process_refused (.unreadable f)] at run
        cases run
      · rcases process_cases s (.ok (parseChars m cs)) { p with taken := p.taken + 1 } with
          ⟨q, hq, _⟩ | ⟨f, hf⟩
        · simp only [taken, hq] at run ⊢
          obtain ⟨lines, hl⟩ := ih ((process_stopped quiet hq).trans going) run
          exact ⟨(m, cs) :: lines, by rw [hl, List.map_cons]⟩
        · simp only [taken, process_refused hf] at run
          cases run

theorem pulled_eq_ahead {n : Nat} {r : Plan.Reader} {content : Bytes} (quiet : s.stop.Silent)
    (going : p.stopped = false) (steady : Steady s n r p content)
    (run : plan s n r p = .completed t) : pulled s n r p = r.ahead content := by
  induction n generalizing r p with
  | zero => cases run
  | succ n ih =>
    rcases Plan.Reader.next_cases (steady [] p List.nil_prefix rfl) with
      ⟨ahead, left, hn⟩ | ⟨item, left, hn, ahead, same⟩
    · simp only [pulled, hn, ahead]
    · -- The heads of the loop after this item are heads of the whole run with the item in front.
      have taken := takeItem_silent quiet going item
      simp only [plan, hn] at run
      rcases process_cases s item { p with taken := p.taken + 1 } with ⟨q, hq, _⟩ | ⟨f, hf⟩
      · rw [hq] at taken
        simp only [taken] at run
        have split : pulled s (n + 1) r p = item :: pulled s n left q := by
          simp only [pulled, hn, taken]
        have later : Steady s n left q content := by
          intro done u front reached
          rw [same]
          apply steady (item :: done) u
          · rw [split]
            exact List.cons_prefix_cons.mpr ⟨rfl, front⟩
          · rw [advance_cons s item done taken]
            exact reached
        rw [split, ahead, ih ((process_stopped quiet hq).trans going) later run]
      · simp only [taken, process_refused hf] at run
        cases run

/-- Whether the plan file holds some bytes when the loop comes to its head after some items. -/
def heldAfter (s : Setup) (r : Plan.Reader) (p : Progress) (content : Bytes)
    (done : List Plan.Item) : Bool :=
  match advance s done p with
  | .onward q => (r.handle.readAll q.files).toOption == some content
  | _ => true

theorem steady_of_heldAfter {n : Nat} {r : Plan.Reader} {content : Bytes}
    (held : (pulled s n r p).inits.all (heldAfter s r p content) = true) :
    Steady s n r p content := by
  intro done q front reached
  have here := List.all_eq_true.mp held done (List.mem_inits done _ |>.mpr front)
  simp only [heldAfter, reached, beq_iff_eq] at here
  cases content : r.handle.readAll q.files with
  | error e =>
    rw [content] at here
    cases here
  | ok bs =>
    rw [content] at here
    exact congrArg Except.ok (Option.some.inj here)

theorem heldWord_of_notMem {w : String} (h : '\x00' ∉ w.toList) : Invocation.heldWord w = w := by
  have absent : w.toList.contains '\x00' = false := by
    rw [List.contains_eq_mem]
    exact decide_eq_false h
  rw [Invocation.heldWord, absent]
  rfl

theorem argv_of_plain {i : Invocation} (h : ∀ w ∈ i.program :: i.args, '\x00' ∉ w.toList) :
    i.argv = i.program :: i.args := by
  rw [Invocation.argv, List.map_congr_left fun w hw => heldWord_of_notMem (h w hw), List.map_id']

theorem words_eq_commands {ls : List Launch}
    (known : Expand.full s.env s.config.runner.program = .ok program)
    (launched : ls.map (fun l => Except.ok l.invocation) = (Plan.enabledRows lines).map fun row =>
      Invocation.make s.config.runner s.env row s.context) :
    ls.map Launch.words = commands program s.config.runner.args s.context lines := by
  have make (row : Plan.Row) : Invocation.make s.config.runner s.env row s.context =
      .ok ⟨program, s.config.runner.args ++ rowArguments row s.context⟩ := by
    rw [Invocation.make, known]
  have invocations : ls.map (·.invocation) = (Plan.enabledRows lines).map fun row =>
      ⟨program, s.config.runner.args ++ rowArguments row s.context⟩ := by
    simp only [make] at launched
    have inj (i j : Invocation) : (Except.ok i : Except Failure Invocation) = .ok j → i = j :=
      Except.ok.inj
    apply (List.map_inj_right inj).mp
    rw [List.map_map, List.map_map]
    exact launched
  have words := congrArg (List.map fun i : Invocation => i.program :: i.args) invocations
  rw [List.map_map, List.map_map] at words
  exact words

/-- A run that no request stops gives its children the commands of the enabled lines of its plan, in
their order, and no others: the runner's program with its variables replaced, the runner's
arguments, the first four fields of the line, the target, and a word that as a path is the results
file. The fields are those of the lines that are read; if the plan file stays as it is, these are
the lines of the file. -/
theorem launches_are_enabled_lines {fs : FileSystem} {n : Nat} {r : Plan.Reader}
    (made : Context.make s.config s.env target = .ok s.context)
    (known : Expand.full s.env s.config.runner.program = .ok program) (quiet : s.stop.Silent)
    (run : plan s n r (.start fs) = .completed t) :
    (∃ lines : List (Nat × List Char),
      pulled s n r (.start fs) = lines.map (fun l => .ok (parseChars l.1 l.2)) ∧
        t.launches.map Launch.words =
          lines.filterMap fun l => commandOf program s.config.runner.args target l.2) ∧
    (∀ before planPath content, Plan.Reader.open before planPath = .ok r →
      Steady s n r (.start fs) content →
      t.launches.map Launch.words = commandsIn program s.config.runner.args target content) ∧
    ∀ l ∈ t.launches, l = s.launch l.number l.invocation l.found ∧
      l.words.getLast?.map Path.ofText = some s.context.resultsPath ∧
      ((∀ w ∈ l.words, '\x00' ∉ w.toList) → l.invocation.argv = l.words) := by
  obtain ⟨ht, hr, _⟩ := Context.of_make made
  have results : s.context.resultsPath.display = Context.resultsFileName s.context.target := by
    rw [hr, ht]
    exact Utf8.textLossy_ofText _
  have same : plan s n r (.start fs) = items s (pulled s n r (.start fs)) (.start fs) := by
    rcases plan_eq_items s n r (.start fs) with ⟨q, hq⟩ | h
    · rw [run] at hq
      cases hq
    · exact h
  obtain ⟨q, reached, rfl⟩ := advance_of_completed quiet rfl (same.symm.trans run)
  have words : q.launches.map Launch.words =
      commands program s.config.runner.args s.context (pulled s n r (.start fs)) := by
    obtain ⟨ls, launched, invocations⟩ := (Tally.of_advance reached).launches
    rw [launched]
    exact words_eq_commands known invocations
  refine ⟨?_, ?_, ?_⟩
  · obtain ⟨lines, taken⟩ := exists_lines quiet rfl run
    refine ⟨lines, taken, ?_⟩
    rw [← ht, ← commands_lines results, ← taken]
    exact words
  · intro before planPath content opened steady
    rw [commandsIn, ← ht, ← commands_itemsOf results planPath 0, ← Plan.itemsIn,
      ← Plan.Reader.ahead_open opened content, ← pulled_eq_ahead quiet rfl steady run]
    exact words
  · intro l hl
    refine ⟨?_, ?_, argv_of_plain⟩
    · apply launch_of_plan (n := n) (r := r)
      rw [run]
      exact hl
    · have mine : l.words ∈ q.launches.map Launch.words := List.mem_map_of_mem hl
      rw [words] at mine
      obtain ⟨row, _, hw⟩ := List.mem_map.mp mine
      have last : l.words.getLast? = some s.context.resultsPath.display := by
        rw [← hw, rowArguments, List.getLast?_append]
        rfl
      rw [last, results, ht, hr]
      rfl

namespace Quoting

def text : List Char := " a b,$HOME,~/x,'q\"é,enabled \n\nb,c,d,e,Enabled\nc,,\t ,|,enabled".toList

def files : FileSystem :=
  ⟨[([Utf8.ofText "p"], .file 0 false), ([Utf8.ofText "t x_results.txt"], .file 1 false)],
    [(0, Utf8.encode text), (1, [])], 2, []⟩

def setup : Setup :=
  ⟨[("P", "run")], { Config.standard with runner := ⟨"$P", ["~", "$P", "a b"]⟩, settleSecs := 0 },
    ⟨"t x", .ofText "logs/t x", .ofText "t x_results.txt"⟩,
    .alike fun fs _ _ _ => ⟨.error .notUtf8, "", fs, 0⟩, .never⟩

def reader : Plan.Reader := ⟨.ofText "p", .file 0, 0, [], 0⟩

theorem steady : Steady setup 4 reader (.start files) (Utf8.encode text) := by
  apply steady_of_heldAfter
  cbv

end Quoting

/-- Blanks, quotes, a tilde and a dollar sign come through; the name of the program is replaced. -/
theorem launches_are_enabled_lines_of_quoting :
    ∃ t, plan Quoting.setup 4 Quoting.reader (.start Quoting.files) = .completed t ∧
      t.launches.map Launch.words =
        [["run", "~", "$P", "a b", " a b", "$HOME", "~/x", "'q\"é", "t x", "t x_results.txt"],
          ["run", "~", "$P", "a b", "c", "", "\t ", "|", "t x", "t x_results.txt"]] := by
  have made : Context.make Quoting.setup.config Quoting.setup.env "t x" =
      .ok Quoting.setup.context := by cbv
  have known : Expand.full Quoting.setup.env Quoting.setup.config.runner.program = .ok "run" := by
    cbv
  have opened : Plan.Reader.open Quoting.files (.ofText "p") = .ok Quoting.reader := by cbv
  have totals : (plan Quoting.setup 4 Quoting.reader (.start Quoting.files)).summary? =
      some ⟨3, 2, 1, 0, 2, false, .zero⟩ := by cbv
  obtain ⟨t, run, _⟩ := Finish.exists_of_summary? totals
  have words := (launches_are_enabled_lines made known StopRequest.never_silent run).2.1 _ _ _
    opened Quoting.steady
  refine ⟨t, run, ?_⟩
  rw [words]
  decide +kernel

end Run
end TestBench
