import Mathlib
import TestBench.Cli.Arguments
import TestBench.Proofs.FileSystem.Removal
import TestBench.Proofs.Run.Records
import TestBench.Proofs.Run.Session
import TestBench.Proofs.Text.Utf8
/-!
# What preparation takes away

A run is prepared by emptying its log directory. What goes lies where the path of that directory
leads to. For a target that is a single name this is the entry of that name in the log base; for any
other target it can be anywhere.
-/
namespace TestBench

open FileSystem (Lost Keeps LeadsTo)

/-- A target that is the name of one entry in a directory. -/
structure Context.Plain (target : String) : Prop where
  full : target ≠ ""
  undivided : '/' ∉ target.toList
  single : target ≠ "."
  double : target ≠ ".."

theorem Context.Plain.isName {target : String} (h : Context.Plain target) :
    Path.IsName (Path.ofText target) := by
  refine ⟨?_, ?_, ?_, ?_⟩
  · intro he
    exact h.full (Utf8.ofText_injective (t := "") he)
  · intro hm
    exact h.undivided (Utf8.mem_of_mem_encode (b := Path.slash) (by decide) (by decide) hm)
  · intro he
    exact h.single (Utf8.ofText_injective (t := ".") he)
  · intro he
    exact h.double (Utf8.ofText_injective (t := "..") he)

namespace Records

variable {fs : FileSystem} {dir : Path} {ctx : Context} {l : Location}

theorem lost_resetLogDir (h : fs.Lost (resetLogDir fs dir).2 l) :
    ∃ spot, fs.locate .keep dir = .ok spot ∧ spot.location <+: l := by
  unfold resetLogDir at h
  dsimp only at h
  by_cases there : fs.pathExists dir = true
  · rw [if_pos there] at h
    have removed {left : FileSystem} (hl : fs.Lost left l) (he : (fs.removeAll dir).2 = left) :
        ∃ spot, fs.locate .keep dir = .ok spot ∧ spot.location <+: l := by
      rw [← he] at hl
      exact FileSystem.lost_removeAll hl
    generalize fs.removeAll dir = t at h removed
    obtain ⟨error, left⟩ := t
    cases error with
    | some e => exact removed h rfl
    | none =>
      have keeps := FileSystem.keeps_makeDirectories left dir
      dsimp only at h
      generalize left.makeDirectories dir = u at h keeps
      obtain ⟨error, last⟩ := u
      cases error <;> exact removed (h.of_keeps keeps) rfl
  · rw [if_neg there] at h
    have keeps := FileSystem.keeps_makeDirectories fs dir
    generalize fs.makeDirectories dir = u at h keeps
    obtain ⟨error, last⟩ := u
    cases error <;> exact absurd h keeps.not_lost

theorem lost_prepare (h : fs.Lost (prepare fs ctx).2 l) :
    ∃ spot, fs.locate .keep ctx.logDir = .ok spot ∧ spot.location <+: l := by
  have reset (hl : fs.Lost (resetLogDir fs ctx.logDir).2 l) := lost_resetLogDir hl
  unfold prepare at h
  generalize resetLogDir fs ctx.logDir = t at h reset
  obtain ⟨failure, left⟩ := t
  cases failure with
  | some f => exact reset h
  | none => exact reset (h.of_keeps (createResults_written left ctx.resultsPath).grown.keeps)

/-- What preparation takes away lies where the log directory's path leads to. If the target is a
single name, that is one entry in the directory to which the log base leads: nothing goes that is
not strictly below the log base, and nothing that belongs to another such target. -/
theorem prepare_loses_own_logs {config : Config} {env : Environment} {target : String}
    {base : Path} (fs : FileSystem) (based : config.logBasePath env = .ok base)
    (made : Context.make config env target = .ok ctx) :
    (∀ l, fs.Lost (prepare fs ctx).2 l →
      ∃ spot, fs.locate .keep ctx.logDir = .ok spot ∧ spot.location <+: l) ∧
    (Context.Plain target → ∀ l, fs.Lost (prepare fs ctx).2 l →
      ∃ b, fs.LeadsTo base b ∧ b ++ [Path.ofText target] <+: l ∧ b <+: l ∧ l ≠ b ∧
        ∀ other ctx' spot, Context.Plain other → other ≠ target →
          Context.make config env other = .ok ctx' → fs.locate .keep ctx'.logDir = .ok spot →
          ¬spot.location <+: l) := by
  refine ⟨fun l => lost_prepare, ?_⟩
  intro plain l lost
  obtain ⟨spot, located, below⟩ := lost_prepare lost
  rw [(Context.of_make made).2.2 base based] at located
  obtain ⟨b, leads, place⟩ := FileSystem.locate_join located plain.isName
  rw [place] at below
  have above : b <+: l := (List.prefix_append b _).trans below
  refine ⟨b, leads, below, above, ?_, ?_⟩
  · rintro rfl
    have := below.length_le
    rw [List.length_append, List.length_singleton] at this
    omega
  · intro other ctx' spot' plain' different made' located' inside
    rw [(Context.of_make made').2.2 base based] at located'
    obtain ⟨b', leads', place'⟩ := FileSystem.locate_join located' plain'.isName
    obtain rfl := leads.unique leads'
    rw [place'] at inside
    -- Two names in one directory that lead to the same entry are the same name.
    have same : b ++ [Path.ofText other] = b ++ [Path.ofText target] :=
      (List.prefix_of_prefix_length_le inside below (by simp)).eq_of_length (by simp)
    exact different (Utf8.ofText_injective (List.cons.inj (List.append_cancel_left same)).1)

/-- Logs of two targets, and a directory apart from them. -/
def twoTargets : FileSystem :=
  let at' (names : List String) : Location := names.map Utf8.ofText
  ⟨[(at' ["logs"], .directory), (at' ["logs", "t"], .directory),
      (at' ["logs", "t", "x"], .file 0 false), (at' ["logs", "u"], .directory),
      (at' ["logs", "u", "y"], .file 1 false), (at' ["d"], .directory),
      (at' ["d", "z"], .file 2 false)],
    [(0, []), (1, []), (2, [])], 3, []⟩

def twoTargetsContext (target : String) : Context :=
  ⟨target, Path.join (.ofText "logs") (.ofText target), .ofText (Context.resultsFileName target)⟩

theorem prepare_loses_own_logs_of_twoTargets :
    twoTargets.Lost (prepare twoTargets (twoTargetsContext "t")).2
        [Utf8.ofText "logs", Utf8.ofText "t", Utf8.ofText "x"] ∧
      ∀ l, twoTargets.Lost (prepare twoTargets (twoTargetsContext "t")).2 l →
        [Utf8.ofText "logs", Utf8.ofText "t"] <+: l := by
  have gone : FileSystem.entry? (prepare twoTargets (twoTargetsContext "t")).2
      [Utf8.ofText "logs", Utf8.ofText "t", Utf8.ofText "x"] = none := by cbv
  refine ⟨FileSystem.lost_of_none (e := .file 0 false) (by cbv) gone, ?_⟩
  intro l lost
  have based := Config.standard_logBasePath []
  have made : Context.make .standard [] "t" = .ok (twoTargetsContext "t") :=
    Context.make_standard [] "t"
  have plain : Context.Plain "t" := by constructor <;> decide
  obtain ⟨b, leads, below, _⟩ := (prepare_loses_own_logs twoTargets based made).2 plain l lost
  have there : twoTargets.LeadsTo (.ofText "logs") [Utf8.ofText "logs"] := .path (by cbv)
  obtain rfl := leads.unique there
  exact below

/-- The command line takes any text for a target. `../d` and `/d` empty a directory that is not
below the log base; the empty target and `t/../u` take the logs of `u`. -/
theorem targets_that_lose_other_files :
    Config.standard.logBasePath [] = .ok (.ofText "logs") ∧
      (∀ target ∈ ["../d", "/d", "", "t/../u"],
        Cli.parse (["run_plan", "p", target].map Utf8.ofText) =
            .run ⟨Utf8.ofText "p", target, none, none⟩ ∧
          Context.make .standard [] target = .ok (twoTargetsContext target)) ∧
      (∀ target ∈ ["../d", "/d"],
        twoTargets.Lost (prepare twoTargets (twoTargetsContext target)).2
          [Utf8.ofText "d", Utf8.ofText "z"]) ∧
      ∀ target ∈ ["", "t/../u"],
        twoTargets.Lost (prepare twoTargets (twoTargetsContext target)).2
          [Utf8.ofText "logs", Utf8.ofText "u", Utf8.ofText "y"] := by
  have d : twoTargets.entry? [Utf8.ofText "d", Utf8.ofText "z"] = some (.file 2 false) := by cbv
  have u : twoTargets.entry? [Utf8.ofText "logs", Utf8.ofText "u", Utf8.ofText "y"] =
      some (.file 1 false) := by cbv
  have made := Context.make_standard []
  refine ⟨Config.standard_logBasePath [], ?_, ?_, ?_⟩
  · simp only [List.forall_mem_cons]
    exact ⟨⟨by cbv, made _⟩, ⟨by cbv, made _⟩, ⟨by cbv, made _⟩, ⟨by cbv, made _⟩, by simp⟩
  · simp only [List.forall_mem_cons]
    exact ⟨FileSystem.lost_of_none d (by cbv), FileSystem.lost_of_none d (by cbv), by simp⟩
  · simp only [List.forall_mem_cons]
    exact ⟨FileSystem.lost_of_none u (by cbv), FileSystem.lost_of_none u (by cbv), by simp⟩

end Records
end TestBench
