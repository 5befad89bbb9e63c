import Mathlib.Data.List.DropRight
import Mathlib.Data.List.Forall2
import TestBench.Proofs.Child.Arrivals
/-!
# A stream as a whole

What a reader puts of a stream until it comes to its end, read off the whole stream at once: it is
decoded, cut at its newlines, and each piece is put without the carriage returns at its end. Neither
the blocks in which the stream is read nor the other reader make a difference, and neither does it
that a reader decodes line by line.
-/
namespace TestBench.Child

variable {s t : Stream} {k : Capture}

/-- The lines of a text; nothing after its last newline is no line. -/
def textLines (text : List Char) : List (List Char) :=
  let all := Text.splitOn '\n' text
  if all.getLast? = some [] then all.dropLast else all

def isReturn (c : Char) : Bool := c == '\r'

/-- A text with one newline at the end of each of its lines, and no carriage return there. -/
def normalText (text : List Char) : List Char :=
  (textLines text).flatMap fun line => Text.dropEnd isReturn line ++ ['\n']

def wholeText (stream : Bytes) : List Char := normalText (Utf8.decodeLossy stream)

/-- A stream that is decoded line by line is decoded as a whole. -/
theorem map_decodeLossy_pieces (stream : Bytes) :
    (pieces stream).map Utf8.decodeLossy = textLines (Utf8.decodeLossy stream) := by
  have all : (Text.splitOn lineFeed stream).map Utf8.decodeLossy =
      Text.splitOn '\n' (Utf8.decodeLossy stream) := Utf8.map_decodeLossy_splitOn stream
  dsimp only [pieces, textLines]
  rw [← all, List.getLast?_map, ← List.map_dropLast]
  cases (Text.splitOn lineFeed stream).getLast? with
  | none => rfl
  | some last =>
    by_cases none : last = []
    · subst none
      rfl
    · have full : Utf8.decodeLossy last ≠ [] := fun h => none (Utf8.decodeLossy_eq_nil.mp h)
      rw [Option.map_some, if_neg fun h => none (Option.some.inj h),
        if_neg fun h => full (Option.some.inj h)]

theorem bareLine_eq {piece : Bytes} (plain : lineFeed ∉ piece) :
    bareLine piece = Text.dropEnd isReturn (Utf8.decodeLossy piece) := by
  refine Text.dropEnd_congr fun c hc => ?_
  have other : c ≠ '\n' := fun same => Utf8.notMem_decodeLossy plain (same ▸ hc)
  rw [isLineEnd, beq_false_of_ne other, Bool.or_false, isReturn]

theorem flatten_lines (stream : Bytes) : (lines stream).flatten = wholeText stream := by
  have bare : ∀ piece ∈ pieces stream, normalLine piece =
      Text.dropEnd isReturn (Utf8.decodeLossy piece) ++ ['\n'] := fun piece there => by
    rw [normalLine_eq, bareLine_eq (notMem_of_mem_pieces there)]
  rw [wholeText, normalText, ← map_decodeLossy_pieces, List.flatMap_map, lines,
    List.map_congr_left bare, List.flatMap_def]

theorem textLines_flatMap {kept : List (List Char)} (plain : ∀ line ∈ kept, '\n' ∉ line) :
    textLines (kept.flatMap (· ++ ['\n'])) = kept := by
  dsimp only [textLines]
  rw [Text.splitOn_flatMap plain, List.getLast?_concat, if_pos rfl, List.dropLast_concat]

theorem notMem_of_mem_textLines {text line : List Char} (h : line ∈ textLines text) :
    '\n' ∉ line := by
  dsimp only [textLines] at h
  split at h
  · exact Text.notMem_of_mem_splitOn ((List.dropLast_sublist _).subset h)
  · exact Text.notMem_of_mem_splitOn h

theorem normalText_eq (text : List Char) :
    normalText text = ((textLines text).map (Text.dropEnd isReturn)).flatMap (· ++ ['\n']) := by
  rw [List.flatMap_map]
  rfl

theorem textLines_normalText (text : List Char) :
    textLines (normalText text) = (textLines text).map (Text.dropEnd isReturn) := by
  rw [normalText_eq, textLines_flatMap fun line hl => ?_]
  obtain ⟨piece, there, rfl⟩ := List.mem_map.mp hl
  exact fun hm => notMem_of_mem_textLines there ((List.rdropWhile_prefix _ _).subset hm)

theorem normalText_normalText (text : List Char) :
    normalText (normalText text) = normalText text := by
  rw [normalText_eq, textLines_normalText, normalText_eq text, List.map_map]
  congr 1
  exact List.map_congr_left fun piece _ => List.rdropWhile_idempotent isReturn piece

theorem wholeText_encode (stream : Bytes) :
    wholeText (Utf8.encode (wholeText stream)) = wholeText stream := by
  rw [wholeText, Utf8.decodeLossy_encode, wholeText, normalText_normalText]

/-- What is left out at the end of a piece. -/
def Stripped (piece line : List Char) : Prop :=
  (∃ n, piece = line ++ List.replicate n '\r') ∧ line.getLast? ≠ some '\r'

theorem stripped_dropEnd (piece : List Char) : Stripped piece (Text.dropEnd isReturn piece) := by
  obtain ⟨dropped, whole, returns, last⟩ := Text.exists_dropEnd isReturn piece
  constructor
  · refine ⟨dropped.length, ?_⟩
    rw [← List.eq_replicate_iff.mpr ⟨rfl, fun c hc => beq_iff_eq.mp (returns c hc)⟩]
    exact whole
  · intro h
    exact absurd (last '\r' h) (by decide)

theorem forall₂_stripped (text : List Char) :
    List.Forall₂ Stripped (textLines text) ((textLines text).map (Text.dropEnd isReturn)) :=
  List.forall₂_map_right_iff.mpr (List.forall₂_same.mpr fun piece _ => stripped_dropEnd piece)

namespace Drain

/-- What arrives at a reader: the lines that it makes, and what it holds after them. -/
def receive (d : Drain) : Arrival → Drain × List (List Char)
  | .bytes _ piece => d.feed piece
  | .ended _ => (start, d.finish)

/-- A stream that is fed as a whole. -/
theorem feed_finish (stream : Bytes) :
    (start.feed stream).2 ++ (start.feed stream).1.finish = lines stream := by
  by_cases h : lineFeed ∈ stream
  · obtain ⟨xs, ys, rfl, plain⟩ := List.eq_append_cons_of_mem h
    have split : xs ++ lineFeed :: ys = (xs ++ [lineFeed]) ++ ys := by
      rw [List.append_assoc, List.singleton_append]
    rw [lines_append_cons plain, split, feed_append, feed_line plain, List.append_assoc,
      feed_finish ys, List.singleton_append]
  · by_cases full : stream = []
    · subst full
      rfl
    · rw [feed_of_notMem h, List.nil_append, ← feed_of_notMem h, finish_of_notMem h full,
        lines_of_notMem h full]
termination_by stream.length

end Drain

namespace Capture

theorem drain_receive (k : Capture) (a : Arrival) (t : Stream) :
    (k.receive a).drain t =
      if t = a.stream then ((k.drain t).receive a).1 else k.drain t := by
  cases a with
  | bytes s piece =>
    rw [drain_receive_bytes]
    by_cases same : t = s
    · subst same
      rfl
    · rw [if_neg same, Arrival.stream, if_neg same]
  | ended s => rw [drain_receive_ended]; rfl

theorem linesOf_map (s t : Stream) (ls : List (List Char)) :
    linesOf t (ls.map (s, ·)) = if t = s then ls else [] := by
  induction ls with
  | nil => rw [ite_self]; rfl
  | cons l ls ih =>
    rw [List.map_cons, linesOf_cons, ih]
    split <;> rfl

theorem linesOf_receive (k : Capture) (a : Arrival) (t : Stream) :
    linesOf t (k.receive a).lines.reverse = linesOf t k.lines.reverse ++
      if t = a.stream then ((k.drain t).receive a).2 else [] := by
  have made : (k.receive a).lines.reverse =
      k.lines.reverse ++ ((k.drain a.stream).receive a).2.map (a.stream, ·) := by
    cases a with
    | bytes s piece => rw [receive_bytes, List.reverse_append, List.reverse_reverse]; rfl
    | ended s => rw [receive_ended, List.reverse_append, List.reverse_reverse]; rfl
  rw [made, linesOf_append, linesOf_map]
  by_cases same : t = a.stream
  · rw [if_pos same, if_pos same, same]
  · rw [if_neg same, if_neg same]

theorem linesOf_receiveAll_other {as : List Arrival} (none : ∀ a ∈ as, a.stream ≠ s)
    (k : Capture) : linesOf s (k.receiveAll as).lines.reverse = linesOf s k.lines.reverse := by
  induction as generalizing k with
  | nil => rfl
  | cons a as ih =>
    have other : s ≠ a.stream := fun same => none a List.mem_cons_self same.symm
    have first := linesOf_receive k a s
    rw [if_neg other, List.append_nil] at first
    rw [← first]
    exact ih (fun b hb => none b (List.mem_cons_of_mem a hb)) (k.receive a)

/-- What the other reader gets makes no difference to the lines of a stream, and neither do the
blocks in which its own bytes come. -/
theorem linesOf_receiveAll {as : List Arrival} {blocks : List Bytes}
    (own : as.filter (fun a => a.stream = s) = blocks.map (.bytes s) ++ [.ended s])
    (k : Capture) :
    linesOf s (k.receiveAll as).lines.reverse = linesOf s k.lines.reverse ++
      (((k.drain s).feed blocks.flatten).2 ++ ((k.drain s).feed blocks.flatten).1.finish) := by
  induction as generalizing k blocks with
  | nil => exact absurd own.symm (List.append_ne_nil_of_right_ne_nil _ (List.cons_ne_nil _ _))
  | cons a as ih =>
    have lines := linesOf_receive k a s
    have drain := drain_receive k a s
    by_cases same : a.stream = s
    · rw [if_pos same.symm] at lines drain
      rw [List.filter_cons_of_pos (by simpa using same)] at own
      cases blocks with
      | nil =>
        obtain ⟨rfl, last⟩ := List.cons.inj own
        have none : ∀ b ∈ as, b.stream ≠ s := fun b hb mine =>
          List.not_mem_nil (last ▸ List.mem_filter.mpr ⟨hb, decide_eq_true mine⟩)
        exact (linesOf_receiveAll_other none (k.receive (.ended s))).trans lines
      | cons b blocks =>
        obtain ⟨rfl, later⟩ := List.cons.inj own
        have rest := ih later (k.receive (.bytes s b))
        rw [drain, lines] at rest
        simp only [List.flatten_cons, Drain.feed_append, ← List.append_assoc] at rest ⊢
        exact rest
    · rw [if_neg (Ne.symm same)] at lines drain
      rw [List.filter_cons_of_neg (by simpa using same)] at own
      have rest := ih own (k.receive a)
      rw [drain, lines, List.append_nil] at rest
      exact rest

end Capture

/-- The events by which a reader adds to the text. -/
def Event.puts (s : Stream) : Event → Bool
  | .put t | .release t => t = s
  | .move .. | .lock _ | .leave _ | .expire | .join | .take => false

namespace Readers

variable {streams : Stream → Bytes} {c c' : Readers} {e : Event} {es : List Event}

/-- What one reader adds to the text in a run. -/
def added (s : Stream) (c : Readers) : List Event → List Char
  | [] => []
  | e :: es => (c.step e).elim [] fun next =>
      (if e.puts s then next.text.drop c.text.length else []) ++ next.added s es

/-- A reader adds the lines that it ends, each in two parts. -/
theorem added_step (step : c.step e = some c') (s : Stream) :
    (c.reader s).stage.begun ++ (if e.puts s then c'.text.drop c.text.length else []) =
      (linesOf s (c.ended e)).flatten ++ (c'.reader s).stage.begun := by
  cases stepped_of_step step with
  | @move t m r moved =>
    have still : ((c.setReader t r).reader s).stage.begun = (c.reader s).stage.begun := by
      by_cases same : s = t
      · obtain ⟨loose, loose', _⟩ := moved.unlocked
        subst same
        rw [Stage.begun_of_unlocked loose, setReader_own, Stage.begun_of_unlocked loose']
      · rw [setReader_other same]
    rw [still]
    exact List.append_nil _
  | @lock t raw waits free =>
    by_cases same : s = t
    · subst same
      rw [waits, setStage_own]
      rfl
    · rw [setStage_other same]
      exact List.append_nil _
  | @put t raw holds =>
    by_cases same : s = t
    · subst same
      rw [holds, setStage_own, Event.puts, if_pos (decide_eq_true rfl)]
      exact List.drop_left
    · rw [setStage_other same, Event.puts, if_neg (by simpa using Ne.symm same)]
      exact List.append_nil _
  | @release t raw puts =>
    rw [ended, puts]
    by_cases same : s = t
    · subst same
      have put : (c.text ++ ['\n']).drop c.text.length = ['\n'] := List.drop_left
      rw [puts, setStage_own, Event.puts, if_pos (decide_eq_true rfl), Stage.line, List.map_singleton,
        linesOf_self, List.flatten_singleton, normalLine_eq]
      exact (congrArg (bareLine raw ++ ·) put).trans (List.append_nil _).symm
    · rw [setStage_other same, Event.puts, if_neg (by simpa using Ne.symm same), Stage.line,
        List.map_singleton, linesOf_other (Ne.symm same)]
      exact List.append_nil _
  | killed running =>
    show _ ++ [] = (((c.abort .stdout).abort .stderr).reader s).stage.begun
    rw [abort_stage, abort_stage, List.append_nil]
  | @expire t joining =>
    show _ ++ [] = ((c.abort t).reader s).stage.begun
    rw [abort_stage, List.append_nil]
  | exited | join | take => exact List.append_nil _

theorem added_run (run : c.run es = some c') (s : Stream) :
    (c.reader s).stage.begun ++ c.added s es =
      (linesOf s (c.endedIn es)).flatten ++ (c'.reader s).stage.begun := by
  induction es generalizing c with
  | nil =>
    obtain rfl := Option.some.inj run
    exact List.append_nil _
  | cons e es ih =>
    obtain ⟨next, first, rest⟩ := Option.bind_eq_some_iff.mp run
    rw [added, endedIn, first, Option.elim_some, Option.elim_some, linesOf_append,
      List.flatten_append, List.append_assoc, ← ih rest, ← List.append_assoc, added_step first s,
      List.append_assoc]

/-- A reader that has come to the end of its stream has added what the whole stream makes. -/
theorem added_of_finished (run : (start streams).run es = some c)
    (whole : (c.reader s).stage = .finished true) :
    (start streams).added s es = wholeText (streams s) := by
  have all := (((sound_start streams).run run).readers s).whole_of_finished whole
  have put := added_run run s
  rw [whole] at put
  rw [← flatten_lines, ← all]
  exact put.trans (List.append_nil _)

end Readers

theorem wholeText_lines (stream : Bytes) :
    wholeText stream = (textLines (wholeText stream)).flatMap (· ++ ['\n']) ∧
      List.Forall₂ Stripped (textLines (Utf8.decodeLossy stream)) (textLines (wholeText stream)) := by
  rw [wholeText, textLines_normalText]
  exact ⟨normalText_eq _, forall₂_stripped _⟩

/-- What a reader puts of its stream until it has come to its end is what the whole stream makes of
itself: in whatever blocks the bytes come, whatever the other reader does meanwhile, and however the
two are scheduled. To decode the stream line by line is to decode it as a whole; every line of it
stays a line and loses no more than the carriage returns at its end; and what is put of a text that
was put already is that text again. -/
theorem drained_text_is_whole_text (s : Stream) :
    (∀ (as : List Arrival) (blocks : List Bytes),
      as.filter (fun a => a.stream = s) = blocks.map (.bytes s) ++ [.ended s] →
      (linesOf s (Capture.start.receiveAll as).lines.reverse).flatten = wholeText blocks.flatten) ∧
    (∀ streams es c, (Readers.start streams).run es = some c →
      (c.reader s).stage = .finished true →
        (Readers.start streams).added s es = wholeText (streams s)) ∧
    ∀ stream, (pieces stream).map Utf8.decodeLossy = textLines (Utf8.decodeLossy stream) ∧
      wholeText stream = (textLines (wholeText stream)).flatMap (· ++ ['\n']) ∧
      List.Forall₂ Stripped (textLines (Utf8.decodeLossy stream)) (textLines (wholeText stream)) ∧
      wholeText (Utf8.encode (wholeText stream)) = wholeText stream := by
  refine ⟨fun as blocks own => ?_, fun streams es c run => Readers.added_of_finished run,
    fun stream => ⟨map_decodeLossy_pieces stream, (wholeText_lines stream).1,
      (wholeText_lines stream).2, wholeText_encode stream⟩⟩
  have fresh : Capture.start.drain s = .start := by cases s <;> rfl
  rw [Capture.linesOf_receiveAll own, fresh, Drain.feed_finish, ← flatten_lines]
  rfl

namespace Torn

/-- A character that is cut off by the end of a line, and one whose first byte is missing. -/
def streams : Stream → Bytes
  | .stdout => [0xC3, 13, lineFeed, 0xA9]
  | .stderr => []

def arrivals : List Arrival :=
  [.bytes .stdout [0xC3], .bytes .stderr [65], .bytes .stdout [13, lineFeed, 0xA9],
    .ended .stdout]

def schedule : List Event :=
  [.move .stdout (.read 1), .move .stdout .scan, .move .stdout (.read 3), .move .stdout .scan,
    .move .stdout .scan, .lock .stdout, .put .stdout, .release .stdout, .move .stdout .scan,
    .move .stdout .close, .lock .stdout, .put .stdout, .release .stdout, .move .stdout .close]

def text : List Char := ['\ufffd', '\n', '\ufffd', '\n']

theorem wholeText_stdout : wholeText (streams .stdout) = text := by decide +kernel

theorem run : ((Readers.start streams).run schedule).map (fun c => (c.reader .stdout).stage) =
    some (.finished true) := by
  decide +kernel

end Torn

theorem drained_text_is_whole_text_of_torn :
    (linesOf .stdout (Capture.start.receiveAll Torn.arrivals).lines.reverse).flatten = Torn.text ∧
      (∃ c, (Readers.start Torn.streams).run Torn.schedule = some c ∧
        (c.reader .stdout).stage = .finished true) ∧
      (Readers.start Torn.streams).added .stdout Torn.schedule = Torn.text := by
  obtain ⟨received, added, _⟩ := drained_text_is_whole_text .stdout
  obtain ⟨c, run, finished⟩ := Option.map_eq_some_iff.mp Torn.run
  refine ⟨?_, ⟨c, run, finished⟩, ?_⟩
  · rw [received Torn.arrivals [[0xC3], [13, lineFeed, 0xA9]] rfl, ← Torn.wholeText_stdout]
    rfl
  · rw [added _ _ c run finished, Torn.wholeText_stdout]

end TestBench.Child
