import Mathlib
import TestBench.Proofs.Plan.Disabled
import TestBench.Proofs.Run.Results
/-!
# The results file as a table

The line of a row that is not executed is written without any quoting, and still it is one line of
five columns, as no field of a plan holds a comma or a newline. So a results file that holds the
header and such lines only is read back as the table that was written.
-/
namespace TestBench

namespace Plan

variable {path : Path} {n : Nat} {lines : List Bytes} {line : Line} {row : Row}

theorem exists_line_of_mem_itemsOf (h : .ok line ∈ itemsOf path n lines) :
    ∃ m bytes cs, bytes ∈ lines ∧ Utf8.decode? bytes = some cs ∧ line = parseChars m cs := by
  induction lines generalizing n with
  | nil => cases h
  | cons bytes rest ih =>
    have later {k : Nat} (h : .ok line ∈ itemsOf path k rest) : ∃ m bs cs, bs ∈ bytes :: rest ∧
        Utf8.decode? bs = some cs ∧ line = parseChars m cs := by
      obtain ⟨m, bs, cs, there, decoded, same⟩ := ih h
      exact ⟨m, bs, cs, List.mem_cons_of_mem bytes there, decoded, same⟩
    unfold itemsOf at h
    cases decoded : Utf8.decode? bytes with
    | none =>
      simp only [decoded, List.mem_cons] at h
      rcases h with flawed | h
      · cases flawed
      · exact later h
    | some cs =>
      simp only [decoded] at h
      by_cases blank : isBlank cs = true
      · rw [if_pos blank] at h
        exact later h
      · rw [if_neg blank] at h
        rcases List.mem_cons.mp h with same | h
        · exact ⟨n + 1, bytes, cs, List.mem_cons_self, decoded, Except.ok.inj same⟩
        · exact later h

/-- The fields of a line hold no comma, and no newline if the line holds none. -/
theorem fits_of_parseChars {cs : List Char} (plain : '\n' ∉ cs)
    (h : parseChars n cs = .row row) : Fits row.displayName := by
  have field {f : List Char} (hf : f ∈ Text.splitOn ',' (Text.trimEnd cs)) :
      Fits (String.ofList f) := by
    rw [Fits, String.toList_ofList]
    exact ⟨Text.notMem_of_mem_splitOn hf, fun inside =>
      plain (Text.mem_of_mem_trimEnd ((Text.piece_of_mem_splitOn hf).2 inside))⟩
  unfold parseChars at h
  dsimp only at h
  split at h
  · rename_i name sub a b flag fields
    obtain rfl := Line.row.inj h
    exact Fits.displayName (field (by rw [fields]; simp)) (field (by rw [fields]; simp))
  · cases h

theorem fits_of_mem_itemsOf {content : Bytes}
    (h : .ok (.row row) ∈ itemsOf path n (Text.splitOn newline content)) :
    Fits row.displayName := by
  obtain ⟨m, bytes, cs, there, decoded, parsed⟩ := exists_line_of_mem_itemsOf h
  have plain : newline ∉ bytes := Text.notMem_of_mem_splitOn there
  exact fits_of_parseChars (Utf8.notMem_of_decode? decoded plain) parsed.symm

theorem fits_of_mem_rows {content : Bytes} (h : row ∈ rows (itemsIn path content)) :
    Fits row.displayName := by
  obtain ⟨item, there, same⟩ := List.mem_filterMap.mp h
  obtain rfl : item = .ok (.row row) := by
    unfold Item.row? at same
    split at same
    · rw [Option.some.inj same]
    · cases same
  exact fits_of_mem_itemsOf there

/-- The name of a row that a reader gives out fits into a column, whatever the plan file holds. -/
theorem Reader.fits_of_next {fs : FileSystem} {r : Reader}
    (h : (r.next fs).1 = some (.ok (.row row))) : Fits row.displayName := by
  cases held : r.handle.readAll fs with
  | error e =>
    rw [next, held] at h
    cases h
  | ok content =>
    rcases next_cases held with ⟨_, left, hn⟩ | ⟨item, left, hn, ahead, _⟩
    · rw [hn] at h
      cases h
    · rw [hn] at h
      obtain rfl := Option.some.inj h
      have first : .ok (.row row) ∈ r.ahead content := by
        rw [ahead]
        exact List.mem_cons_self
      exact fits_of_mem_itemsOf first

end Plan

namespace Records

/-- The cells of a text: its lines, and each line cut at its commas. -/
def cells (text : String) : List (List String) :=
  (Text.splitOn '\n' text.toList).map fun line => (Text.splitOn ',' line).map .ofList

def columns : List String := ["Test Name", "Result", "Passes", "Fails", "Timeouts"]

def notExecutedCells (row : Plan.Row) : List String :=
  [row.displayName, "NOT_EXECUTED", "", "", ""]

def tableLines (rows : List Plan.Row) : List (List Char) :=
  resultsHeader.toList :: rows.map fun row => (notExecutedRow row.displayName).toList

theorem toList_notExecutedRow (name : String) :
    (notExecutedRow name).toList = name.toList ++ ',' :: "NOT_EXECUTED,,,".toList :=
  String.toList_append

theorem plain_of_mem_tableLines {rows : List Plan.Row} {line : List Char}
    (fit : ∀ row ∈ rows, Plan.Fits row.displayName) (h : line ∈ tableLines rows) : '\n' ∉ line := by
  rcases List.mem_cons.mp h with rfl | h
  · exact Plan.inert_header.line
  · obtain ⟨row, there, rfl⟩ := List.mem_map.mp h
    exact (Plan.inert_notExecuted (fit row there)).line

theorem encode_tableLines (rows : List Plan.Row) :
    header ++ rows.flatMap (fun row => notExecutedLine row.displayName) =
      Utf8.encode ((tableLines rows).flatMap (· ++ ['\n'])) := by
  have line (row : Plan.Row) : notExecutedLine row.displayName =
      Utf8.encode ((notExecutedRow row.displayName).toList ++ ['\n']) := by
    rw [notExecutedLine, Utf8.ofText, String.toList_append]
    rfl
  rw [tableLines, List.flatMap_cons, List.flatMap_map, Utf8.encode_append, header, Utf8.ofText,
    String.toList_append, Utf8.encode.eq_1 (List.flatMap _ _), List.flatMap_assoc]
  simp only [line]
  rfl

theorem shape_of_fits {name : String} (fits : Plan.Fits name) :
    let line := (notExecutedRow name ++ "\n").toList
    line.getLast? = some '\n' ∧ line.count '\n' = 1 ∧ line.count ',' = 4 := by
  have line : (notExecutedRow name ++ "\n").toList =
      name.toList ++ ",NOT_EXECUTED,,,\n".toList := by
    rw [String.toList_append, toList_notExecutedRow, List.append_assoc]
    rfl
  dsimp only
  rw [line, List.count_append, List.count_append, List.count_eq_zero_of_not_mem fits.1,
    List.count_eq_zero_of_not_mem fits.2, List.getLast?_append]
  exact ⟨rfl, by decide, by decide⟩

theorem cells_tableLines {rows : List Plan.Row} (fit : ∀ row ∈ rows, Plan.Fits row.displayName) :
    cells (.ofList ((tableLines rows).flatMap (· ++ ['\n']))) =
      columns :: rows.map notExecutedCells ++ [[""]] := by
  have cut := Text.splitOn_flatMap fun _ h => plain_of_mem_tableLines fit h
  have first : (Text.splitOn ',' resultsHeader.toList).map String.ofList = columns := by decide
  have others : ∀ row ∈ rows, (Text.splitOn ',' (notExecutedRow row.displayName).toList).map
      String.ofList = notExecutedCells row := by
    intro row there
    rw [toList_notExecutedRow, Text.splitOn_append_cons (fit row there).1]
    rw [List.map_cons, String.ofList_toList]
    rfl
  have rest := List.map_congr_left others
  rw [cells, String.toList_ofList, cut, List.map_append, tableLines, List.map_cons, first,
    List.map_map, Function.comp_def, rest]
  rfl

end Records

namespace Run

open FileSystem (Handle)

variable {s : Setup} {p q t : Progress} {item : Plan.Item} {fs ready : FileSystem} {id : Nat}
  {written content : Bytes} {r : Plan.Reader} {n : Nat}

theorem Kept.idle_done {h : Handle} (apart : Apart ready s.context.resultsPath id h)
    (kept : Kept ready id h written p.files) (done : Done s p item q)
    (idle : Plan.enabledRows [item] = []) :
    Kept ready id h (written ++ (Plan.rows [item]).flatMap fun row =>
      Records.notExecutedLine row.displayName) q.files := by
  cases done with
  | malformed m =>
    rw [show Plan.rows [.ok (.malformed m)] = [] from rfl, List.flatMap_nil, List.append_nil]
    exact kept
  | enabled on known =>
    rw [Plan.enabledRows_on on] at idle
    cases idle
  | disabled off opened put =>
    rw [Plan.rows_row, List.flatMap_singleton]
    exact kept.record apart opened put

/-- Without an enabled row ahead, a run that is not interrupted adds one line for each row ahead. -/
theorem Kept.idle_run (apart : Apart ready s.context.resultsPath id r.handle)
    (readable : r.handle.readAll ready = .ok content)
    (kept : Kept ready id r.handle written p.files)
    (idle : Plan.enabledRows (r.ahead content) = [])
    (run : plan s n r p = .completed t) (whole : t.summary.interrupted = false) :
    Kept ready id r.handle (written ++ (Plan.rows (r.ahead content)).flatMap
      fun row => Records.notExecutedLine row.displayName) t.files := by
  induction n generalizing r p written with
  | zero => cases run
  | succ n ih =>
    simp only [plan] at run
    rcases Plan.Reader.next_cases (kept.source.trans readable) with
      ⟨ahead, left, hn⟩ | ⟨item, left, hn, ahead, same⟩
    · simp only [hn, Finish.completed.injEq] at run
      subst run
      rw [ahead, show Plan.rows [] = [] from rfl, List.flatMap_nil, List.append_nil]
      exact kept
    · rw [ahead, ← List.singleton_append, Plan.enabledRows_append, List.append_eq_nil_iff] at idle
      simp only [hn] at run
      by_cases seen : (p.pull s.stop).stopped = true
      · simp only [takeItem_seen seen, Finish.completed.injEq] at run
        subst run
        cases whole
      rw [takeItem_unseen (Bool.not_eq_true _ ▸ seen)] at run
      rw [← p.pull_files s.stop] at kept
      rcases process_cases s item (p.pull s.stop) with ⟨q, hq, done⟩ | ⟨f, hf⟩
      · simp only [hq] at run
        have step := kept.idle_done apart done idle.1
        rw [← same] at apart readable step
        rw [ahead, ← List.singleton_append, Plan.rows_append, List.flatMap_append,
          ← List.append_assoc, ← same]
        exact ih apart readable step idle.2 run
      · rw [process_refused hf] at run
        cases run

/-- A run over a plan without enabled rows that is not the results file. Its preparation succeeds,
and the run is completed and not interrupted. -/
structure IdleRun (s : Setup) (planPath : Path) (fs : FileSystem) (content : Bytes)
    (r : Plan.Reader) (ready : FileSystem) (n : Nat) (t : Progress) : Prop where
  sound : fs.Sound
  opened : Plan.Reader.open fs planPath = .ok r
  readable : r.handle.readAll fs = .ok content
  idle : Plan.enabledRows (Plan.itemsIn planPath content) = []
  prepared : Records.prepare fs s.context = (none, ready)
  other : ∀ id x, ready.stat s.context.resultsPath = .ok (.file id x) → r.handle ≠ .file id
  run : plan s n r (.start ready) = .completed t
  whole : t.summary.interrupted = false

variable {planPath : Path} {x : Bool}

theorem IdleRun.readBytes (h : IdleRun s planPath fs content r ready n t)
    (results : ready.stat s.context.resultsPath = .ok (.file id x)) :
    t.files.readBytes s.context.resultsPath =
      .ok (Records.header ++ (Plan.rows (Plan.itemsIn planPath content)).flatMap fun row =>
        Records.notExecutedLine row.displayName) := by
  obtain ⟨apart, still⟩ :=
    apart_of_prepare h.sound h.opened h.readable h.prepared results (h.other id x results)
  have items := Plan.Reader.ahead_open h.opened content
  have kept := Kept.idle_run apart still (.start ready id r.handle) (items ▸ h.idle) h.run h.whole
  have there := FileSystem.stat_keep kept.grown.keeps kept.grown.home results
  have header := (Records.prepared_of_prepare h.prepared).results id x results
  rw [FileSystem.readBytes_of_stat there, kept.results, header, items]

/-- Whatever a plan file holds, a row that is read from it is recorded in one line of five columns.
So a run over rows that are not executed, with its results kept in a file, leaves a table that is
read back by cutting the results file at its newlines and commas: the columns, a line for each row
of the plan, and nothing after the last newline. -/
theorem not_executed_lines_read_back :
    (∀ (fs : FileSystem) (r left : Plan.Reader) (row : Plan.Row),
      r.next fs = (some (.ok (.row row)), left) →
        let line := Records.notExecutedRow row.displayName ++ "\n"
        line.toList.getLast? = some '\n' ∧ line.toList.count '\n' = 1 ∧
          line.toList.count ',' = 4 ∧
          ∀ files new path, Records.appendNotExecuted files path row.displayName = (none, new) →
            ∀ id x, files.stat path = .ok (.file id x) →
              files.Appended id (Utf8.ofText line) new) ∧
    ∀ (s : Setup) (planPath : Path) (fs : FileSystem) (content : Bytes) (r : Plan.Reader)
      (ready : FileSystem) (n : Nat) (t : Progress), IdleRun s planPath fs content r ready n t →
      (∃ id x, ready.stat s.context.resultsPath = .ok (.file id x)) →
        ∃ text, t.files.readText s.context.resultsPath = .ok text ∧
          Records.cells text = Records.columns ::
            (Plan.rows (Plan.itemsIn planPath content)).map Records.notExecutedCells ++ [[""]] := by
  constructor
  · intro fs r left row given line
    have fits : Plan.Fits row.displayName := Plan.Reader.fits_of_next (congrArg Prod.fst given)
    obtain ⟨last, newlines, commas⟩ := Records.shape_of_fits fits
    refine ⟨last, newlines, commas, ?_⟩
    intro files new path added id x there
    unfold Records.appendNotExecuted at added
    simp only [FileSystem.openAppend_of_stat there, Handle.write] at added
    obtain rfl := (Prod.mk.inj added).2
    exact FileSystem.appended_append _ _ _
  · intro s planPath fs content r ready n t h file
    obtain ⟨id, x, results⟩ := file
    have fit : ∀ row ∈ Plan.rows (Plan.itemsIn planPath content), Plan.Fits row.displayName :=
      fun row there => Plan.fits_of_mem_rows there
    refine ⟨_, ?_, Records.cells_tableLines fit⟩
    simp only [FileSystem.readText, h.readBytes results, Records.encode_tableLines, Utf8.text?,
      Utf8.decode?_encode, Option.map_some]

namespace Odd

def text : String :=
  "\"a\r b\",none,,,\n,none,x,y,Enabled\r\n \r\n\nä,日\t;n,1,2,enabled?\nnot a row\n,,,,-"

def files : FileSystem :=
  ⟨[([Utf8.ofText "p"], .file 0 false), ([Utf8.ofText "null"], .device .null)],
    [(0, Utf8.ofText text)], 1, []⟩

def setup (results : String) : Setup := Sample.setup results []

def prepared (results : String) : FileSystem :=
  (Records.prepare files (setup results).context).2

def rows : List Plan.Row :=
  [⟨1, "\"a\r b\"", "none", "", "", ""⟩, ⟨2, "", "none", "x", "y", "Enabled"⟩,
    ⟨5, "ä", "日\t;n", "1", "2", "enabled?"⟩, ⟨7, "", "", "", "", "-"⟩]

theorem files_sound : files.Sound := by
  apply FileSystem.sound_of_entries
  intro t ht id x he
  simp only [files, List.mem_cons, List.not_mem_nil, or_false] at ht
  rcases ht with rfl | rfl
  · cases he
    exact Nat.zero_lt_one
  · cases he

theorem rows_eq : Plan.rows (Plan.itemsIn (.ofText "p") (Utf8.ofText text)) = rows := by cbv

/-- What a run leaves, if it is completed without being interrupted. -/
def left : Finish → Option Progress
  | .completed t => if t.summary.interrupted then none else some t
  | _ => none

theorem completed_of_left {f : Finish} (h : left f = some t) :
    f = .completed t ∧ t.summary.interrupted = false := by
  cases f with
  | completed u =>
    cases on : u.summary.interrupted with
    | true => simp [left, on] at h
    | false =>
      simp only [left, on, Bool.false_eq_true, if_false, Option.some.injEq] at h
      subst h
      exact ⟨rfl, on⟩
  | failed g u => cases h
  | unfinished u => cases h

theorem idleRun {results : String}
    (done : (Records.prepare files (setup results).context).1 = none)
    (other : ∀ id x, (prepared results).stat (setup results).context.resultsPath =
      .ok (.file id x) → Sample.reader.handle ≠ .file id)
    (leaves : left (plan (setup results) 6 Sample.reader (.start (prepared results))) = some t) :
    IdleRun (setup results) (.ofText "p") files (Utf8.ofText text) Sample.reader
      (prepared results) 6 t := by
  obtain ⟨run, whole⟩ := completed_of_left leaves
  refine ⟨files_sound, by cbv, rfl, ?_, Prod.ext done rfl, other, run, whole⟩
  rw [Plan.enabledRows, rows_eq]
  decide

end Odd

theorem not_executed_lines_read_back_of_odd :
    (∃ t, IdleRun (Odd.setup "t") (.ofText "p") Odd.files (Utf8.ofText Odd.text) Sample.reader
        (Odd.prepared "t") 6 t ∧
      (Odd.prepared "t").stat (Odd.setup "t").context.resultsPath = .ok (.file 1 false) ∧
      ∃ text, t.files.readText (.ofText "t") = .ok text ∧ Records.cells text = [Records.columns,
        ["\"a\r b\"", "NOT_EXECUTED", "", "", ""], ["", "NOT_EXECUTED", "", "", ""],
        ["ä-日\t;n", "NOT_EXECUTED", "", "", ""], ["-", "NOT_EXECUTED", "", "", ""], [""]]) ∧
    ∃ left, Sample.reader.next Odd.files = (some (.ok (.row ⟨1, "\"a\r b\"", "none", "", "", ""⟩)),
        left) ∧
      (Records.notExecutedRow "\"a\r b\"" ++ "\n").toList.count ',' = 4 := by
  constructor
  · have results : (Odd.prepared "t").stat (Odd.setup "t").context.resultsPath =
        .ok (.file 1 false) := by cbv
    have other : ∀ id x, (Odd.prepared "t").stat (Odd.setup "t").context.resultsPath =
        .ok (.file id x) → Sample.reader.handle ≠ .file id := by
      intro id x there
      cases results.symm.trans there
      decide
    have whole : (Odd.left (plan (Odd.setup "t") 6 Sample.reader
        (.start (Odd.prepared "t")))).isSome = true := by cbv
    obtain ⟨t, leaves⟩ := Option.isSome_iff_exists.mp whole
    have idle := Odd.idleRun (by cbv) other leaves
    obtain ⟨text, holds, cells⟩ :=
      not_executed_lines_read_back.2 _ _ _ _ _ _ _ _ idle ⟨1, false, results⟩
    refine ⟨t, idle, results, text, holds, ?_⟩
    rw [cells, Odd.rows_eq]
    decide
  · have given : (Sample.reader.next Odd.files).1 =
        some (.ok (.row ⟨1, "\"a\r b\"", "none", "", "", ""⟩)) := by cbv
    exact ⟨_, Prod.ext given rfl,
      (not_executed_lines_read_back.1 _ _ _ _ (Prod.ext given rfl)).2.2.1⟩

/-- A device in the place of the results file keeps nothing of the same run, which is completed all
the same: there is one empty cell where the columns should be. -/
theorem device_keeps_no_lines :
    ∃ t, IdleRun (Odd.setup "null") (.ofText "p") Odd.files (Utf8.ofText Odd.text) Sample.reader
        (Odd.prepared "null") 6 t ∧
      (Odd.prepared "null").stat (Odd.setup "null").context.resultsPath = .ok (.device .null) ∧
      t.files.readText (.ofText "null") = .ok "" ∧ Records.cells "" = [[""]] ∧
      Records.columns :: (Plan.rows (Plan.itemsIn (.ofText "p") (Utf8.ofText Odd.text))).map
        Records.notExecutedCells ++ [[""]] ≠ [[""]] := by
  have results : (Odd.prepared "null").stat (Odd.setup "null").context.resultsPath =
      .ok (.device .null) := by cbv
  have leaves : (Odd.left (plan (Odd.setup "null") 6 Sample.reader
      (.start (Odd.prepared "null")))).map (·.files.readText (.ofText "null")) = some (.ok "") := by
    cbv
  obtain ⟨t, run, holds⟩ := Option.map_eq_some_iff.mp leaves
  have idle := Odd.idleRun (by cbv) (fun id x there => by cases results.symm.trans there) run
  exact ⟨t, idle, results, holds, rfl, by simp⟩

end Run

end TestBench
