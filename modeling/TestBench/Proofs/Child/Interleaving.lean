import TestBench.Proofs.Child.Arrivals
/-!
# Interleaving

Which texts are taken from two streams: those that are made of whole lines, the lines of each stream
in their order, and none of them lost but at the end of a stream whose reader was ended before.
-/
namespace TestBench.Child.Readers

/-- However the readers and the bench are scheduled, and in whatever blocks the streams are read:
the text that is taken is made of whole lines, each with one newline at its end. Those of a stream
are its lines in their order: those up to some line, and all of them if its reader has reached the
end of the stream, as it does unless it is aborted or its stream fails. Both readers are over by
then, and nothing happens afterwards. And every text of this kind is taken by some schedule. -/
theorem taken_text_interleaves (streams : Stream → Bytes) :
    (∀ es c text, (start streams).run es = some c → c.phase = .taken text →
      ∃ merged : List (Stream × List Char), text = .ofList (joined merged) ∧
        (∀ s, linesOf s merged <+: lines (streams s) ∧
          ((c.reader s).stage = .finished true → linesOf s merged = lines (streams s)) ∧
          ((∀ e ∈ es, e.disturbs s = false) → (c.reader s).stage = .finished true)) ∧
        (∀ l ∈ merged, ∃ front, l.2 = front ++ ['\n'] ∧ '\n' ∉ front) ∧
        (∀ s, (c.reader s).stage.isFinished = true) ∧
        ∀ more c', c.run more = some c' → c' = c) ∧
    ∀ merged : List (Stream × List Char), (∀ s, linesOf s merged <+: lines (streams s)) →
      ∃ es c, (start streams).run es = some c ∧ c.phase = .taken (.ofList (joined merged)) := by
  constructor
  · intro es c text run taken
    obtain ⟨merged, sound⟩ := exists_sound_of_run run
    have finished (s : Stream) : (c.reader s).stage.isFinished = true :=
      sound.finished s (taken ▸ rfl)
    refine ⟨merged, ?_, fun s => ⟨(sound.readers s).le, (sound.readers s).whole_of_finished, ?_⟩,
      fun l there => ?_, finished, fun more c' => sound.run_still taken⟩
    · rw [sound.taken text taken, sound.text_of_taken taken]
    · intro quiet
      obtain ⟨whole, ends⟩ := Stage.exists_of_isFinished (finished s)
      have calm := Calm.run (s := s) ⟨rfl, Stage.noConfusion⟩ quiet run
      cases whole with
      | true => exact ends
      | false => exact absurd ends calm.2
    · have inside : l.2 ∈ linesOf l.1 merged :=
        List.mem_map_of_mem (List.mem_filter.mpr ⟨there, decide_eq_true rfl⟩)
      exact exists_of_mem_lines ((sound.readers l.1).le.subset inside)
  · intro merged le
    obtain ⟨as, orderly, made⟩ := exists_arrivals_of_lines le
    exact made ▸ (taken_iff_received streams _).mpr ⟨as, orderly, rfl⟩

namespace Sample

def given : Stream → Bytes
  | .stdout => Utf8.ofText "a\r\nb"
  | .stderr => Utf8.ofText "E\nF"

/-- A line of one stream is ready while the other one is put; the last line of the standard error is
cut off when the bench has waited long enough. -/
def schedule : List Event :=
  [.move .stdout (.read 3), .move .stdout .scan, .move .stderr (.read 2), .move .stdout .scan,
    .move .stderr .scan, .move .stdout .scan, .lock .stdout, .move .stderr .scan, .put .stdout,
    .release .stdout, .lock .stderr, .move .stdout (.read 1), .put .stderr, .move .stdout .scan,
    .leave false, .release .stderr, .move .stdout .close, .lock .stdout, .put .stdout,
    .move .stderr (.read 1), .release .stdout, .move .stdout .close, .join, .move .stderr .scan,
    .expire, .move .stderr .cut, .join, .take]

theorem run : ((start given).run schedule).map
    (fun c => (c.phase, (c.reader .stdout).stage, (c.reader .stderr).stage)) =
      some (.taken "a\nE\nb\n", .finished true, .finished false) := by
  decide +kernel

end Sample

theorem taken_text_interleaves_of_cut :
    ∃ c, (start Sample.given).run Sample.schedule = some c ∧ c.phase = .taken "a\nE\nb\n" ∧
      ∃ merged, "a\nE\nb\n" = String.ofList (joined merged) ∧
        linesOf .stdout merged = [['a', '\n'], ['b', '\n']] ∧
        linesOf .stderr merged <+: [['E', '\n'], ['F', '\n']] := by
  obtain ⟨c, run, ends⟩ := Option.map_eq_some_iff.mp Sample.run
  obtain ⟨taken, stages⟩ := Prod.mk.inj ends
  obtain ⟨merged, text, each, _⟩ := (taken_text_interleaves _).1 _ c _ run taken
  refine ⟨c, run, taken, merged, text, ?_, ?_⟩
  · rw [(each .stdout).2.1 (Prod.mk.inj stages).1]
    decide +kernel
  · rw [show [['E', '\n'], ['F', '\n']] = lines (Sample.given .stderr) by decide +kernel]
    exact (each .stderr).1

end TestBench.Child.Readers
