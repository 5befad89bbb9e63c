import TestBench.Child.Launch
import TestBench.Proofs.Run.LogFiles
import TestBench.Proofs.Run.Records
import TestBench.Proofs.Run.Transcript
/-!
# The logs of a run

A run whose children leave its log directory alone fills it with one file for each row that is
executed, and each of them holds what the child of that row has put out.
-/
namespace TestBench.Run

open Console (Notice)
open Records (logFile logPath)

variable {s : Setup} {p q t : Progress} {item : Plan.Item} {row : Plan.Row}

theorem notices_poll (p : Progress) (r : StopRequest) : p.notices <+: (p.poll r).notices := by
  unfold Progress.poll
  split
  · exact List.prefix_rfl
  · split
    · dsimp only
      split
      · exact List.prefix_append _ _
      · exact List.prefix_rfl
    · exact List.prefix_rfl

theorem notices_pull (p : Progress) (r : StopRequest) : p.notices <+: (p.pull r).notices :=
  notices_poll { p with taken := p.taken + 1 } r

theorem notices_settle (s : Setup) (p : Progress) : p.notices <+: (settle s p).notices := by
  unfold settle
  split
  · exact List.prefix_rfl
  · exact notices_poll { p with clock := p.clock + s.stop.pause p.moment s.config.settleMillis } _

/-- A log that is not written is reported. -/
theorem notices_keepLog (s : Setup) (number : Nat) (row : Plan.Row) (output : String)
    (p : Progress) :
    p.notices <+: (keepLog s number row output p).notices ∧
      ∀ f left, Records.writeLog p.files (logPath s.context.logDir number row.displayName) output =
        (some f, left) → .logFailed f.chain ∈ (keepLog s number row output p).notices := by
  unfold keepLog
  generalize Records.writeLog p.files (logPath s.context.logDir number row.displayName) output = w
  obtain ⟨failure, files⟩ := w
  cases failure with
  | none => exact ⟨List.prefix_rfl, fun f left h => by cases h⟩
  | some f =>
    refine ⟨List.prefix_append _ _, ?_⟩
    rintro _ _ ⟨⟩
    exact List.mem_append_right _ List.mem_cons_self

theorem notices_enabled (s : Setup) (row : Plan.Row) (i : Invocation) (p : Progress) :
    p.notices <+: (afterEnabled s row i p).notices ∧
      .banner (p.summary.rows + 1) row ∈ (afterEnabled s row i p).notices ∧
      ∀ f left, Records.writeLog (s.launch (p.summary.rows + 1) i p.files).report.files
          (logPath s.context.logDir (p.summary.rows + 1) row.displayName)
          (s.launch (p.summary.rows + 1) i p.files).report.output = (some f, left) →
        .logFailed f.chain ∈ (afterEnabled s row i p).notices := by
  let l := s.launch (p.summary.rows + 1) i p.files
  let started := ((p.announce row).tell (.command i)).after l
  let logged := keepLog s (p.summary.rows + 1) row l.report.output (started.poll s.stop)
  have files : (started.poll s.stop).files = l.report.files := Progress.poll_files started s.stop
  have begun : p.notices ++ [.banner (p.summary.rows + 1) row] <+: started.notices :=
    List.prefix_append _ _
  obtain ⟨kept, failed⟩ := notices_keepLog s (p.summary.rows + 1) row l.report.output
    (started.poll s.stop)
  have ended : logged.notices <+: (afterEnabled s row i p).notices :=
    (List.prefix_append _ _).trans (notices_settle s (logged.conclude row l.outcome))
  have whole := ((begun.trans (notices_poll started s.stop)).trans kept).trans ended
  refine ⟨(List.prefix_append _ _).trans whole, ?_, ?_⟩
  · exact whole.subset (List.mem_append_right _ List.mem_cons_self)
  · intro f left h
    rw [files] at failed
    exact ended.subset (failed f left h)

theorem notices_done (d : Done s p item q) : p.notices <+: q.notices := by
  cases d with
  | malformed m => exact List.prefix_append _ _
  | enabled on known => exact (notices_enabled s _ _ p).1
  | disabled off opened written =>
    exact (List.prefix_append _ _).trans (List.prefix_append _ _)

/-- What is there when an item has been taken stays there. -/
structure Onward (p q : Progress) : Prop where
  notices : p.notices <+: q.notices
  launches : p.launches <+: q.launches

theorem Onward.refl (p : Progress) : Onward p p := ⟨List.prefix_rfl, List.prefix_rfl⟩

theorem Onward.trans (h : Onward p q) (g : Onward q t) : Onward p t :=
  ⟨h.notices.trans g.notices, h.launches.trans g.launches⟩

theorem onward_pull (p : Progress) (r : StopRequest) : Onward p (p.pull r) :=
  ⟨notices_pull p r, by rw [Progress.pull_launches]⟩

theorem onward_of_done (d : Done s p item q) : Onward p q := by
  obtain ⟨ls, launched, _⟩ := starts_of_done d
  exact ⟨notices_done d, launched ▸ List.prefix_append _ _⟩

theorem done_of_takeItem (h : takeItem s item p = .onward q) : Done s (p.pull s.stop) item q := by
  cases seen : (p.pull s.stop).stopped with
  | true =>
    rw [takeItem_seen seen] at h
    cases h
  | false =>
    rw [takeItem_unseen seen] at h
    exact process_onward h

theorem onward_of_advance {lines : List Plan.Item} (h : advance s lines p = .onward q) :
    Onward p q := by
  induction lines generalizing p with
  | nil =>
    obtain rfl := Turn.onward.inj h
    exact .refl p
  | cons item rest ih =>
    obtain ⟨u, taken, left⟩ := onward_of_cons h
    exact (onward_pull p s.stop).trans ((onward_of_done (done_of_takeItem taken)).trans (ih left))

/-- A child that leaves a directory and the files in it as it finds them, and the way to it. -/
structure Spares (dir : Path) (d : Location) (found left : FileSystem) : Prop where
  leads : found.LeadsTo dir d → left.LeadsTo dir d
  entry : ∀ m, d <+: m → left.entry? m = found.entry? m
  content : ∀ m id x, d <+: m → found.entry? m = some (.file id x) →
    left.content id = found.content id
  sound : found.Sound → left.Sound

/-- The place of the log of a row and its child. -/
def logPlace (d : Location) (t : Plan.Row × Launch) : Location :=
  d ++ [logFile t.2.number t.1.displayName]

/-- A log directory that holds the logs of some rows with their children, and nothing else. -/
structure Shelf (dir : Path) (d : Location) (logs : List (Plan.Row × Launch)) (fs : FileSystem) :
    Prop where
  sound : fs.Sound
  leads : fs.LeadsTo dir d
  directory : fs.entry? d = some .directory
  held : ∀ t ∈ logs, ∃ id x, fs.entry? (logPlace d t) = some (.file id x) ∧
    fs.content id = Utf8.ofText t.2.report.output
  only : ∀ m, d <+: m → m ≠ d → fs.entry? m ≠ none → ∃ t ∈ logs, m = logPlace d t

/-- The results file is none of the files in a directory. -/
def ResultsApart (c : Context) (d : Location) (fs : FileSystem) : Prop :=
  ∀ id x, fs.stat c.resultsPath = .ok (.file id x) →
    ∀ m y, d <+: m → fs.entry? m ≠ some (.file id y)

namespace Shelf

variable {dir : Path} {d : Location} {logs : List (Plan.Row × Launch)} {fs new : FileSystem}

theorem prefix_logPlace (d : Location) (t : Plan.Row × Launch) : d <+: logPlace d t :=
  List.prefix_append _ _

theorem spared (h : Shelf dir d logs fs) (spares : Spares dir d fs new) : Shelf dir d logs new := by
  refine ⟨spares.sound h.sound, spares.leads h.leads, ?_, ?_, ?_⟩
  · rw [spares.entry d List.prefix_rfl, h.directory]
  · intro t ht
    obtain ⟨id, x, there, holds⟩ := h.held t ht
    refine ⟨id, x, (spares.entry _ (prefix_logPlace d t)).trans there, ?_⟩
    rw [spares.content _ id x (prefix_logPlace d t) there, holds]
  · intro m below other stands
    rw [spares.entry m below] at stands
    exact h.only m below other stands

theorem appended {c : Context} {id : Nat} {x : Bool} (h : Shelf dir d logs fs) (bs : Bytes)
    (apart : ResultsApart c d fs) (results : fs.stat c.resultsPath = .ok (.file id x)) :
    Shelf dir d logs (fs.append id bs) := by
  refine ⟨h.sound, h.leads.keep (fun _ _ there => there) rfl h.directory, h.directory, ?_, h.only⟩
  intro t ht
  obtain ⟨j, y, there, holds⟩ := h.held t ht
  refine ⟨j, y, there, ?_⟩
  rw [FileSystem.content_append, if_neg, holds]
  rintro rfl
  exact apart j x results _ y (prefix_logPlace d t) there

/-- There is no log yet with a number that no row has had. -/
theorem free (h : Shelf dir d logs fs) {number : Nat} (new : ∀ t ∈ logs, t.2.number ≠ number)
    (name : String) : fs.entry? (d ++ [logFile number name]) = none := by
  by_contra stands
  obtain ⟨t, ht, place⟩ := h.only _ (List.prefix_append _ _) (by simp) stands
  have same := (List.cons.inj (List.append_cancel_left place)).1
  exact new t ht (Records.number_of_logFile same).symm

theorem added (h : Shelf dir d logs fs) (l : Launch)
    (more : fs.Added (d ++ [logFile l.number row.displayName]) (Utf8.ofText l.report.output) new) :
    Shelf dir d (logs ++ [(row, l)]) new := by
  refine ⟨more.sound h.sound, h.leads.keep more.keeps more.home h.directory,
    more.keeps d _ h.directory, ?_, ?_⟩
  · intro t ht
    rcases List.mem_append.mp ht with ht | ht
    · obtain ⟨id, x, there, holds⟩ := h.held t ht
      refine ⟨id, x, more.keeps _ _ there, ?_⟩
      rw [more.content id (h.sound _ id x there), holds]
    · obtain rfl := List.mem_singleton.mp ht
      obtain ⟨id, x, there, _, holds⟩ := more.file
      exact ⟨id, x, there, holds⟩
  · intro m below other stands
    by_cases place : m = d ++ [logFile l.number row.displayName]
    · exact ⟨(row, l), List.mem_append_right _ List.mem_cons_self, place⟩
    · rw [more.entry m place] at stands
      obtain ⟨t, ht, hm⟩ := h.only m below other stands
      exact ⟨t, List.mem_append_left _ ht, hm⟩

end Shelf

/-- The rows that are to be executed among some items, with their numbers. -/
def numbered (lines : List Plan.Item) : List (Plan.Row × Nat) :=
  ((Plan.rows lines).zipIdx 1).filter (·.1.isEnabled)

theorem numbered_append (xs : List Plan.Item) (item : Plan.Item) :
    numbered (xs ++ [item]) = numbered xs ++
      (((Plan.rows [item]).zipIdx (1 + (Plan.rows xs).length)).filter (·.1.isEnabled)) := by
  rw [numbered, Plan.rows_append, List.zipIdx_append, List.filter_append]
  rfl

theorem le_of_mem_numbered {lines : List Plan.Item} {r : Plan.Row} {k : Nat}
    (h : (r, k) ∈ numbered lines) : k ≤ (Plan.rows lines).length := by
  have mine := List.mem_zipIdx (List.mem_of_mem_filter h)
  omega

/-- Where a run stands with its logs after some items: they are those of the rows among the items
that are executed, by their numbers, each announced by its banner, with the children of the run. -/
structure Filed (s : Setup) (d : Location) (done : List Plan.Item)
    (logs : List (Plan.Row × Launch)) (p : Progress) : Prop where
  shelf : Shelf s.context.logDir d logs p.files
  launches : logs.map (·.2) = p.launches
  numbers : logs.map (fun t => (t.1, t.2.number)) = numbered done
  banners : ∀ t ∈ logs, .banner t.2.number t.1 ∈ p.notices
  rows : p.summary.rows = (Plan.rows done).length

namespace Filed

variable {d : Location} {front : List Plan.Item} {logs : List (Plan.Row × Launch)}

theorem pull (h : Filed s d front logs p) (r : StopRequest) : Filed s d front logs (p.pull r) := by
  refine ⟨?_, ?_, h.numbers, ?_, ?_⟩
  · rw [Progress.pull_files]
    exact h.shelf
  · rw [Progress.pull_launches]
    exact h.launches
  · exact fun t ht => (notices_pull p r).subset (h.banners t ht)
  · rw [Progress.pull_summary]
    exact h.rows

theorem new_number (h : Filed s d front logs p) : ∀ t ∈ logs, t.2.number ≠ p.summary.rows + 1 := by
  intro t ht same
  have mine : (t.1, t.2.number) ∈ numbered front := by
    rw [← h.numbers]
    exact List.mem_map_of_mem ht
  have small := le_of_mem_numbered mine
  rw [same, h.rows] at small
  omega

/-- The log of a row that is executed is a new file. -/
theorem added_of_enabled {i : Invocation} (h : Filed s d front logs p)
    (spares : Spares s.context.logDir d p.files
      (s.launch (p.summary.rows + 1) i p.files).report.files)
    (kept : ∀ chain, .logFailed chain ∉ (afterEnabled s row i p).notices) :
    let l := s.launch (p.summary.rows + 1) i p.files
    l.report.files.Added (d ++ [logFile l.number row.displayName]) (Utf8.ofText l.report.output)
      (afterEnabled s row i p).files := by
  intro l
  have shelf := h.shelf.spared spares
  have failed := (notices_enabled s row i p).2.2
  rw [afterEnabled_files]
  generalize written : Records.writeLog (s.launch (p.summary.rows + 1) i p.files).report.files
    (logPath s.context.logDir (p.summary.rows + 1) row.displayName)
    (s.launch (p.summary.rows + 1) i p.files).report.output = w at failed ⊢
  cases w with
  | mk failure left =>
    cases failure with
    | some f => exact absurd (failed f left rfl) (kept f.chain)
    | none => exact Records.added_of_writeLog shelf.leads (shelf.free h.new_number _) written

theorem step (h : Filed s d front logs p) (d' : Done s p item q)
    (spares : ∀ l ∈ q.launches, Spares s.context.logDir d l.found l.report.files)
    (kept : ∀ chain, .logFailed chain ∉ q.notices) (apart : ResultsApart s.context d p.files) :
    ∃ more, Filed s d (front ++ [item]) (logs ++ more) q := by
  have banners (t : Plan.Row × Launch) (ht : t ∈ logs) : .banner t.2.number t.1 ∈ q.notices :=
    (notices_done d').subset (h.banners t ht)
  have rows : q.summary.rows = (Plan.rows (front ++ [item])).length := by
    rw [(Tally.of_done d').rows, h.rows, Plan.rows_append, List.length_append]
  cases d' with
  | malformed m =>
    refine ⟨[], ?_⟩
    rw [List.append_nil]
    refine ⟨h.shelf, h.launches, ?_, banners, rows⟩
    rw [h.numbers, numbered_append]
    exact (List.append_nil _).symm
  | @enabled row i on known =>
    let l := s.launch (p.summary.rows + 1) i p.files
    have mine : l ∈ (afterEnabled s row i p).launches := by
      rw [afterEnabled_launches]
      exact List.mem_append_right _ List.mem_cons_self
    have added := h.added_of_enabled (spares l mine) kept
    refine ⟨[(row, l)], (h.shelf.spared (spares l mine)).added l added, ?_, ?_, ?_, rows⟩
    · rw [List.map_append, h.launches, afterEnabled_launches]
      rfl
    · have one : ((Plan.rows [.ok (.row row)]).zipIdx (1 + (Plan.rows front).length)).filter
          (·.1.isEnabled) = [(row, p.summary.rows + 1)] := by
        rw [Plan.rows_row, List.zipIdx_singleton, h.rows, Nat.add_comm 1]
        exact List.filter_eq_self.mpr (by simpa using on)
      rw [List.map_append, h.numbers, numbered_append, one]
      rfl
    · intro t ht
      rcases List.mem_append.mp ht with ht | ht
      · exact banners t ht
      · obtain rfl := List.mem_singleton.mp ht
        exact (notices_enabled s row i p).2.1
  | @disabled row handle files off opened written =>
    refine ⟨[], ?_⟩
    rw [List.append_nil]
    refine ⟨?_, h.launches, ?_, banners, rows⟩
    · rcases FileSystem.write_of_openAppend opened written with ⟨id, x, results, rfl⟩ | rfl
      · exact h.shelf.appended _ apart results
      · exact h.shelf
    · have none : ((Plan.rows [.ok (.row row)]).zipIdx (1 + (Plan.rows front).length)).filter
          (·.1.isEnabled) = [] := by
        rw [Plan.rows_row, List.zipIdx_singleton]
        exact List.filter_eq_nil_iff.mpr (by simpa using off)
      rw [h.numbers, numbered_append, none, List.append_nil]

theorem advance {lines : List Plan.Item} (h : Filed s d front logs p)
    (reached : advance s lines p = .onward q)
    (spares : ∀ l ∈ q.launches, Spares s.context.logDir d l.found l.report.files)
    (kept : ∀ chain, .logFailed chain ∉ q.notices)
    (apart : ∀ done u, done <+: lines → Run.advance s done p = .onward u →
      ResultsApart s.context d u.files) :
    ∃ more, Filed s d (front ++ lines) (logs ++ more) q := by
  induction lines generalizing p front logs with
  | nil =>
    obtain rfl := Turn.onward.inj reached
    refine ⟨[], ?_⟩
    rw [List.append_nil, List.append_nil]
    exact h
  | cons item rest ih =>
    obtain ⟨u, taken, left⟩ := onward_of_cons reached
    have onward := onward_of_advance left
    have first : ResultsApart s.context d (p.pull s.stop).files := by
      rw [Progress.pull_files]
      exact apart [] p List.nil_prefix rfl
    obtain ⟨some, filed⟩ := (h.pull s.stop).step (done_of_takeItem taken)
      (fun l hl => spares l (onward.launches.subset hl))
      (fun chain hc => kept chain (onward.notices.subset hc)) first
    obtain ⟨more, filed⟩ := ih filed left fun done v before arrived => by
      apply apart (item :: done) v (List.cons_prefix_cons.mpr ⟨rfl, before⟩)
      rw [advance_cons s item done taken]
      exact arrived
    refine ⟨some ++ more, ?_⟩
    rw [List.append_assoc, List.singleton_append, List.append_assoc] at filed
    exact filed

theorem nodup (h : Filed s d front logs p) : (logs.map (logPlace d)).Nodup := by
  have numbers : (logs.map (·.2.number)).Nodup := by
    have same : logs.map (·.2.number) = (numbered front).map (·.2) := by
      rw [← h.numbers, List.map_map]
      rfl
    rw [same]
    have all : (((Plan.rows front).zipIdx 1).map (·.2)).Nodup := by
      rw [List.zipIdx_map_snd]
      exact List.nodup_range'
    exact all.sublist ((List.filter_sublist).map _)
  rw [List.Nodup, List.pairwise_map] at numbers ⊢
  refine numbers.imp fun other same => other ?_
  exact Records.number_of_logFile (List.cons.inj (List.append_cancel_left same)).1

end Filed

/-- A run that is completed and has begun with an empty log directory. Its children leave that
directory alone, and no log has failed. -/
structure Undisturbed (s : Setup) (n : Nat) (r : Plan.Reader) (ready : FileSystem) (d : Location)
    (t : Progress) : Prop where
  sound : ready.Sound
  leads : ready.LeadsTo s.context.logDir d
  directory : ready.entry? d = some .directory
  empty : ∀ m, d <+: m → m ≠ d → ready.entry? m = none
  run : plan s n r (.start ready) = .completed t
  spares : ∀ l ∈ t.launches, Spares s.context.logDir d l.found l.report.files
  kept : ∀ chain, .logFailed chain ∉ t.notices

/-- At no head of the loop the results file is one of the files in a directory. -/
def StaysApart (s : Setup) (n : Nat) (r : Plan.Reader) (ready : FileSystem) (d : Location) : Prop :=
  ∀ done q, done <+: pulled s n r (.start ready) → advance s done (.start ready) = .onward q →
    ResultsApart s.context d q.files

section

variable {n : Nat} {r : Plan.Reader} {ready : FileSystem} {d : Location} {done : List Plan.Item}

namespace Undisturbed

theorem filed_start (h : Undisturbed s n r ready d t) : Filed s d [] [] (.start ready) := by
  refine ⟨⟨h.sound, h.leads, h.directory, ?_, ?_⟩, rfl, rfl, ?_, rfl⟩
  · exact fun t ht => absurd ht List.not_mem_nil
  · exact fun m below other stands => absurd (h.empty m below other) stands
  · exact fun t ht => absurd ht List.not_mem_nil

theorem filed (h : Undisturbed s n r ready d t) (apart : StaysApart s n r ready d)
    (before : done <+: pulled s n r (.start ready))
    (reached : advance s done (.start ready) = .onward q) (onward : Onward q t) :
    ∃ logs, Filed s d done logs q := by
  obtain ⟨logs, filed⟩ := h.filed_start.advance reached
    (fun l hl => h.spares l (onward.launches.subset hl))
    (fun chain hc => h.kept chain (onward.notices.subset hc))
    (fun front u early arrived => apart front u (early.trans before) arrived)
  exact ⟨logs, filed⟩

end Undisturbed

theorem onward_of_dealt {done rest : List Plan.Item} (h : Dealt s done rest p t) :
    ∃ q, advance s done p = .onward q ∧ Onward q t ∧ t.files = q.files ∧
      t.launches = q.launches ∧ t.summary.rows = q.summary.rows := by
  obtain ⟨q, reached, ⟨_, rfl⟩ | ⟨_, _, rfl⟩⟩ := h
  · exact ⟨q, reached, ⟨List.prefix_rfl, List.prefix_rfl⟩, rfl, rfl, rfl⟩
  · obtain ⟨notices, launches⟩ := onward_pull q s.stop
    have rows : (q.pull s.stop).summary.rows = q.summary.rows := by rw [Progress.pull_summary]
    exact ⟨q, reached, ⟨notices, launches⟩, Progress.pull_files q s.stop,
      Progress.pull_launches q s.stop, rows⟩

theorem Filed.of_dealt {logs : List (Plan.Row × Launch)}
    (h : Filed s d done logs q) (onward : Onward q t) (files : t.files = q.files)
    (launches : t.launches = q.launches) (rows : t.summary.rows = q.summary.rows) :
    Filed s d done logs t := by
  refine ⟨?_, h.launches.trans launches.symm, h.numbers, ?_, rows.trans h.rows⟩
  · rw [files]
    exact h.shelf
  · exact fun t ht => onward.notices.subset (h.banners t ht)

/-- The log of each row is a new file when it is written. -/
theorem Undisturbed.added {rest before : List Plan.Item} (h : Undisturbed s n r ready d t)
    (apart : StaysApart s n r ready d)
    (split : pulled s n r (.start ready) = done ++ rest)
    (dealt : Dealt s done rest (.start ready) t)
    (front : before ++ [.ok (.row row)] <+: done) (on : row.isEnabled = true)
    (here : advance s before (.start ready) = .onward p)
    (there : advance s (before ++ [.ok (.row row)]) (.start ready) = .onward q) :
    ∃ l : Launch, q.launches = p.launches ++ [l] ∧ l.report.files.Added
      (d ++ [logFile l.number row.displayName]) (Utf8.ofText l.report.output) q.files := by
  obtain ⟨u, reached, later, _⟩ := onward_of_dealt dealt
  obtain ⟨after, rfl⟩ := front
  rw [advance_append after there] at reached
  have onward := (onward_of_advance reached).trans later
  rw [advance_append [.ok (.row row)] here] at there
  obtain ⟨v, taken, same⟩ := onward_of_cons there
  obtain rfl := Turn.onward.inj same
  have step := done_of_takeItem taken
  have early : before <+: pulled s n r (.start ready) := by
    rw [split, List.append_assoc, List.append_assoc]
    exact List.prefix_append _ _
  obtain ⟨logs, filed⟩ := h.filed apart early here
    (((onward_pull p s.stop).trans (onward_of_done step)).trans onward)
  cases step with
  | @enabled row i on' known =>
    have head := filed.pull s.stop
    let l := s.launch ((p.pull s.stop).summary.rows + 1) i (p.pull s.stop).files
    have launches : (afterEnabled s row i (p.pull s.stop)).launches = p.launches ++ [l] := by
      rw [afterEnabled_launches, Progress.pull_launches]
    have mine : l ∈ (afterEnabled s row i (p.pull s.stop)).launches := by
      rw [launches]
      exact List.mem_append_right _ List.mem_cons_self
    refine ⟨l, launches, head.added_of_enabled (h.spares l (onward.launches.subset mine)) ?_⟩
    exact fun chain hc => h.kept chain (onward.notices.subset hc)
  | disabled off opened written =>
    rw [on] at off
    cases off

end

theorem exists_report_result (files : FileSystem) (limit : Option Nat) (w : Process.World) :
    ∃ exit, (Child.report files limit w).result = .ok exit := by
  unfold Child.report
  dsimp only
  split <;> exact ⟨_, rfl⟩

/-- A child that could not be started has put out nothing. -/
theorem launch_unstarted {env : Environment} {fs : FileSystem} {program : String}
    {args : List String} {limit : Option Nat} {e : IoError}
    (unstarted : (Child.launch env fs program args limit).result = .error e) :
    (Child.launch env fs program args limit).output = "" := by
  unfold Child.launch at unstarted ⊢
  split
  · rfl
  · rename_i plain
    rw [if_neg plain] at unstarted
    dsimp only at unstarted ⊢
    split
    · rfl
    · rename_i tool words found
      rw [found] at unstarted
      dsimp only at unstarted ⊢
      split
      · rfl
      · rename_i program loaded
        rw [loaded] at unstarted
        obtain ⟨exit, ended⟩ := exists_report_result fs limit
          ((Child.world fs program).run (limit.map (· * 1000)) Child.stepBound)
        rw [ended] at unstarted
        cases unstarted

/-- Children that put out nothing if they cannot be started. -/
def SilentUnstarted (children : Child.Children) : Prop :=
  ∀ number fs program args limit e,
    (children.ofRow number fs program args limit).result = .error e →
      (children.ofRow number fs program args limit).output = ""

theorem Filed.empty_of_unstarted {n : Nat} {r : Plan.Reader} {ready : FileSystem} {d : Location}
    {done : List Plan.Item} {logs : List (Plan.Row × Launch)} {log : Plan.Row × Launch}
    {e : IoError} (filed : Filed s d done logs t) (run : plan s n r (.start ready) = .completed t)
    (silent : SilentUnstarted s.children) (there : log ∈ logs)
    (unstarted : log.2.report.result = .error e) :
    ∃ id x, t.files.entry? (logPlace d log) = some (.file id x) ∧ t.files.content id = [] := by
  obtain ⟨id, x, stands, holds⟩ := filed.shelf.held log there
  have started : log.2 ∈ (plan s n r (.start ready)).progress.launches := by
    rw [run]
    exact filed.launches ▸ List.mem_map_of_mem there
  have own := launch_of_plan started
  rw [own] at unstarted
  have nothing : (s.launch log.2.number log.2.invocation log.2.found).report.output = "" :=
    silent _ _ _ _ _ e unstarted
  rw [own, nothing] at holds
  exact ⟨id, x, stands, holds⟩

/-- The path of a log is that of its directory with one name joined to it, which holds no slash and
no NUL and is not made of dots; and no two numbers have the same. So a run that is completed, has
begun with an empty log directory and is not disturbed in it, and whose results file is never in it,
leaves there one file for each row that it has executed, by the number of the row's banner, with
what the child of that row has put out, and nothing else. Each of these files was new when it was
written, and nothing but that file was changed. The log of a runner that could not be started is
empty if the children are silent then, as those are that the bench starts. -/
theorem logs_are_own_files :
    (∀ dir number name, ∃ c, logPath dir number name = Path.join dir c ∧ Path.IsName c ∧ 0 ∉ c) ∧
    (∀ dir number number' name name', logPath dir number name = logPath dir number' name' →
      number = number') ∧
    (∀ s n r ready d t, Undisturbed s n r ready d t → StaysApart s n r ready d →
      ∃ done rest logs,
      pulled s n r (.start ready) = done ++ rest ∧ Dealt s done rest (.start ready) t ∧
      Filed s d done logs t ∧ (logs.map (logPlace d)).Nodup ∧
      (∀ before row p q, before ++ [.ok (.row row)] <+: done → row.isEnabled = true →
        advance s before (.start ready) = .onward p →
        advance s (before ++ [.ok (.row row)]) (.start ready) = .onward q →
        ∃ l, q.launches = p.launches ++ [l] ∧ l.report.files.Added
          (d ++ [logFile l.number row.displayName]) (Utf8.ofText l.report.output) q.files) ∧
      (SilentUnstarted s.children → ∀ log ∈ logs, ∀ e, log.2.report.result = .error e →
        ∃ id x, t.files.entry? (logPlace d log) = some (.file id x) ∧ t.files.content id = [])) ∧
    ∀ env, SilentUnstarted (.alike (Child.launch env)) := by
  refine ⟨?_, ?_, ?_, ?_⟩
  · intro dir number name
    exact ⟨_, rfl, Records.isName_logFile number name, Records.notMem_logFile_nul number name⟩
  · intro dir number number' name name' same
    exact Records.number_of_logPath same
  · intro s n r ready d t h apart
    have lines : items s (pulled s n r (.start ready)) (.start ready) = .completed t := by
      rcases plan_eq_items s n r (.start ready) with ⟨q, hq⟩ | same
      · rw [h.run] at hq
        cases hq
      · exact same.symm.trans h.run
    obtain ⟨done, rest, split, dealt⟩ := exists_dealt lines
    obtain ⟨q, reached, onward, files, launches, rows⟩ := onward_of_dealt dealt
    obtain ⟨logs, filed⟩ := h.filed apart (split ▸ List.prefix_append _ _) reached onward
    have filed := filed.of_dealt onward files launches rows
    refine ⟨done, rest, logs, split, dealt, filed, filed.nodup, ?_, ?_⟩
    · intro before row p q' front on here there
      exact h.added apart split dealt front on here there
    · intro silent log there e unstarted
      exact filed.empty_of_unstarted h.run silent there unstarted
  · intro env number fs program args limit e unstarted
    exact launch_unstarted unstarted

theorem Spares.refl (dir : Path) (d : Location) (fs : FileSystem) : Spares dir d fs fs :=
  ⟨fun h => h, fun _ _ => rfl, fun _ _ _ _ _ => rfl, fun h => h⟩

theorem ResultsApart.of_entries {c : Context} {d : Location} {fs : FileSystem}
    (h : ∀ id x, fs.stat c.resultsPath = .ok (.file id x) →
      (fs.entries.all fun t =>
        !(d.isPrefixOf t.1 && (t.2 == .file id false || t.2 == .file id true))) = true) :
    ResultsApart c d fs := by
  intro id x there m y below stands
  have listed := FileSystem.mem_entries (FileSystem.ne_nil_of_file stands) stands
  have apart := List.all_eq_true.mp (h id x there) _ listed
  have inside : d.isPrefixOf m = true := List.isPrefixOf_iff_prefix.mpr below
  cases y <;> simp [inside] at apart

namespace OneLog

def files : FileSystem :=
  ⟨[([Utf8.ofText "p"], .file 0 false), ([Utf8.ofText "logs"], .directory),
      ([Utf8.ofText "t"], .file 1 false)],
    [(0, Utf8.ofText "a,none,1,2,enabled\nb,none,1,2,off\n"), (1, [])], 2, []⟩

def ended : Except IoError Child.Exit := .ok (.exited (.ofCode 0))

def missing : Except IoError Child.Exit := .error (.system .noEntry)

def context (results : String) : Context := ⟨"", .ofText "logs", .ofText results⟩

def setup (result : Except IoError Child.Exit) (results output : String) : Setup :=
  ⟨[], { Config.standard with runner := ⟨"r", []⟩, settleSecs := 0 }, context results,
    .alike fun fs _ _ _ => ⟨result, output, fs, 0⟩, .never⟩

def reader : Plan.Reader := ⟨.ofText "p", .file 0, 0, [], 0⟩

def place : Location := [Utf8.ofText "logs"]

/-- The numbers and outputs of the children of a run, and what is in the first log, if the run is
completed and no log has failed. -/
def left : Finish → Option (List (Nat × String) × Bytes)
  | .completed t =>
    if t.notices.any fun n => n matches .logFailed _ then none
    else
      match t.files.entry? (place ++ [logFile 1 "a"]) with
      | some (.file id _) =>
        some (t.launches.map fun l => (l.number, l.report.output), t.files.content id)
      | _ => none
  | _ => none

theorem files_sound : files.Sound := by
  apply FileSystem.sound_of_entries
  intro t ht id x he
  simp only [files, List.mem_cons, List.not_mem_nil, or_false] at ht
  rcases ht with rfl | rfl | rfl
  · cases he
    decide
  · cases he
  · cases he
    decide

theorem leads : files.LeadsTo (.ofText "logs") place := by
  have there : files.entry? place = some .directory := by cbv
  have located : files.locate .follow (.ofText "logs") = .ok ⟨place, some .directory⟩ := by cbv
  rw [← there] at located
  exact .path located

variable {result : Except IoError Child.Exit} {results output : String}

theorem undisturbed {told : List (Nat × String)} {bs : Bytes}
    (leaves : left (plan (setup result results output) 3 reader (.start files)) = some (told, bs)) :
    ∃ t, Undisturbed (setup result results output) 3 reader files place t ∧
      t.launches.map (fun l => (l.number, l.report.output)) = told ∧
      ∃ id x, t.files.entry? (place ++ [logFile 1 "a"]) = some (.file id x) ∧
        t.files.content id = bs := by
  cases run : plan (setup result results output) 3 reader (.start files) with
  | completed t =>
    rw [run] at leaves
    simp only [left] at leaves
    split at leaves
    · cases leaves
    · rename_i kept
      split at leaves
      · rename_i id x stands
        obtain ⟨rfl, rfl⟩ := Prod.mk.inj (Option.some.inj leaves)
        refine ⟨t, ⟨files_sound, leads, by cbv, ?_, run, ?_, ?_⟩, rfl, id, x, stands, rfl⟩
        · intro m below other
          by_contra stands
          obtain ⟨e, there⟩ := Option.ne_none_iff_exists'.mp stands
          have full : m ≠ [] := by
            rintro rfl
            cases List.prefix_nil.mp below
          have listed := FileSystem.mem_entries full there
          simp only [files, List.mem_cons, Prod.mk.injEq, List.not_mem_nil, or_false] at listed
          rcases listed with ⟨rfl, _⟩ | ⟨rfl, _⟩ | ⟨rfl, _⟩
          · exact absurd below (by decide)
          · exact other rfl
          · exact absurd below (by decide)
        · intro l hl
          have started :
              l ∈ (plan (setup result results output) 3 reader (.start files)).progress.launches := by
            rw [run]
            exact hl
          rw [launch_of_plan started]
          exact .refl _ _ _
        · intro chain hc
          exact kept (List.any_eq_true.mpr ⟨_, hc, rfl⟩)
      · cases leaves
  | failed f t =>
    rw [run] at leaves
    cases leaves
  | unfinished t =>
    rw [run] at leaves
    cases leaves

/-- Whether the results file stays apart from the logs when the loop comes to its head after some
items. -/
def apartAfter (result : Except IoError Child.Exit) (results output : String) (done : List Plan.Item) : Bool :=
  match advance (setup result results output) done (.start files) with
  | .onward q =>
    match q.files.stat (.ofText results) with
    | .ok (.file id _) => q.files.entries.all fun t =>
        !(place.isPrefixOf t.1 && (t.2 == .file id false || t.2 == .file id true))
    | _ => true
  | _ => true

theorem staysApart
    (apart : (pulled (setup result results output) 3 reader (.start files)).inits.all
      (apartAfter result results output) = true) :
    StaysApart (setup result results output) 3 reader files place := by
  intro done q front reached
  have here := List.all_eq_true.mp apart done (List.mem_inits done _ |>.mpr front)
  apply ResultsApart.of_entries
  intro id x there
  have there : q.files.stat (.ofText results) = .ok (.file id x) := there
  simp only [apartAfter, reached, there] at here
  exact here

def enabled : Plan.Row := ⟨1, "a", "none", "1", "2", "enabled"⟩

def disabled : Plan.Row := ⟨2, "b", "none", "1", "2", "off"⟩

def rest : Plan.Reader := ⟨.ofText "p", .file 0, 34, Utf8.ofText "b,none,1,2,off\n", 1⟩

def command (results : String) : Invocation :=
  ⟨"r", rowArguments enabled (context results)⟩

def kept (output : String) : FileSystem :=
  (files.create (place ++ [logFile 1 "a"]) false []).append 2 (Utf8.ofText output)

/-- When the loop comes to its head after the first row. -/
def once (result : Except IoError Child.Exit) (results output : String) : Progress :=
  let l : Launch := ⟨1, command results, files, ⟨result, output, files, 0⟩⟩
  ⟨kept output, 0, 1, false, { Summary.zero with rows := 1 }.record l.outcome,
    [.banner 1 enabled, .command (command results), .outcome enabled l.outcome], [l]⟩

theorem known : Invocation.make (setup result results output).config.runner [] enabled
    (setup result results output).context = .ok (command results) := by
  have name : Expand.full [] "r" = .ok "r" := by cbv
  rw [show "r" = (setup result results output).config.runner.program from rfl] at name
  simp only [Invocation.make, name]
  rfl

theorem writes : Records.writeLog files (logPath (.ofText "logs") 1 "a") output =
    (none, kept output) := by
  have located : files.locate .make (logPath (.ofText "logs") 1 "a") =
      .ok ⟨place ++ [logFile 1 "a"], none⟩ := by cbv
  have opens := FileSystem.openWrite_of_free located (by decide +kernel)
  simp only [Records.writeLog, opens]
  rfl

theorem settle_setup {p : Progress} (going : p.stopped = false) :
    settle (setup result results output) p = p := by
  have none : (setup result results output).config.settleMillis = 0 := Nat.zero_mul _
  obtain ⟨files, clock, taken, stopped, summary, notices, launches⟩ := p
  subst going
  rw [settle, none]
  rfl

theorem takeItem_row : takeItem (setup result results output) (.ok (.row enabled)) (.start files) =
    .onward (once result results output) := by
  rw [takeItem_silent StopRequest.never_silent rfl, process_enabled rfl known]
  dsimp only [afterEnabled]
  rw [keepLog_kept]
  · exact congrArg Turn.onward (settle_setup rfl)
  · exact writes

theorem next_row :
    reader.next (Progress.start files).files = (some (.ok (.row enabled)), rest) := by
  show reader.next files = _
  cbv

theorem plan_row (n : Nat) : plan (setup result results output) (n + 1) reader (.start files) =
    plan (setup result results output) n rest (once result results output) := by
  rw [plan, next_row]
  simp only [takeItem_row]

theorem pulled_row (n : Nat) : pulled (setup result results output) (n + 1) reader (.start files) =
    .ok (.row enabled) :: pulled (setup result results output) n rest (once result results output) := by
  rw [pulled, next_row]
  simp only [takeItem_row]

/-- Two rows are taken; the results file is looked for at the head of the loop before each and after
the last. -/
theorem staysApart_beside
    (last : pulled (setup result "t" output) 2 rest (once result "t" output) =
      [.ok (.row disabled)])
    (apart : List.all (List.inits [.ok (.row enabled), .ok (.row disabled)])
      (apartAfter result "t" output) = true) :
    StaysApart (setup result "t" output) 3 reader files place := by
  apply staysApart
  rw [pulled_row, last]
  exact apart

theorem staysApart_ended : StaysApart (setup ended "t" "out\n") 3 reader files place := by
  apply staysApart_beside
  · cbv
  · simp only [List.inits, List.map, List.all_cons, apartAfter, advance, takeItem_row]
    cbv

theorem staysApart_missing : StaysApart (setup missing "t" "") 3 reader files place := by
  apply staysApart_beside
  · cbv
  · simp only [List.inits, List.map, List.all_cons, apartAfter, advance, takeItem_row]
    cbv

theorem silent : SilentUnstarted (setup missing "t" "").children := fun _ _ _ _ _ _ _ => rfl

end OneLog

/-- One row is executed and the other is not. The log of the first holds what its child has put out,
and nothing if the child could not be started. -/
theorem logs_are_own_files_of_oneLog :
    (∃ t, Undisturbed (OneLog.setup OneLog.ended "t" "out\n") 3 OneLog.reader OneLog.files
        OneLog.place t ∧
      StaysApart (OneLog.setup OneLog.ended "t" "out\n") 3 OneLog.reader OneLog.files
        OneLog.place ∧
      ∃ done logs, Filed (OneLog.setup OneLog.ended "t" "out\n") OneLog.place done logs t ∧
        logs.map (fun t => (t.2.number, t.2.report.output)) = [(1, "out\n")]) ∧
    ∃ t, Undisturbed (OneLog.setup OneLog.missing "t" "") 3 OneLog.reader OneLog.files
        OneLog.place t ∧
      StaysApart (OneLog.setup OneLog.missing "t" "") 3 OneLog.reader OneLog.files OneLog.place ∧
      SilentUnstarted (OneLog.setup OneLog.missing "t" "").children ∧
      ∃ log : Plan.Row × Launch, log.2.report.result = OneLog.missing ∧
        ∃ id x, t.files.entry? (logPlace OneLog.place log) = some (.file id x) ∧
          t.files.content id = [] := by
  constructor
  · have leaves : OneLog.left (plan (OneLog.setup OneLog.ended "t" "out\n") 3 OneLog.reader
        (.start OneLog.files)) = some ([(1, "out\n")], Utf8.ofText "out\n") := by
      rw [OneLog.plan_row]
      cbv
    obtain ⟨t, undisturbed, launches, _⟩ := OneLog.undisturbed leaves
    obtain ⟨done, rest, logs, split, dealt, filed, _⟩ :=
      logs_are_own_files.2.2.1 _ _ _ _ _ _ undisturbed OneLog.staysApart_ended
    refine ⟨t, undisturbed, OneLog.staysApart_ended, done, logs, filed, ?_⟩
    rw [← launches, ← filed.launches, List.map_map]
    rfl
  · have leaves : OneLog.left (plan (OneLog.setup OneLog.missing "t" "") 3 OneLog.reader
        (.start OneLog.files)) = some ([(1, "")], []) := by
      rw [OneLog.plan_row]
      cbv
    obtain ⟨t, undisturbed, launches, _⟩ := OneLog.undisturbed leaves
    obtain ⟨done, rest, logs, split, dealt, filed, _, _, empty⟩ :=
      logs_are_own_files.2.2.1 _ _ _ _ _ _ undisturbed OneLog.staysApart_missing
    have one : logs.length = 1 := by
      have := congrArg List.length launches
      rwa [List.length_map, ← filed.launches, List.length_map] at this
    obtain ⟨log, rfl⟩ := List.length_eq_one_iff.mp one
    have unstarted : log.2.report.result = OneLog.missing := by
      have started : log.2 ∈ (plan (OneLog.setup OneLog.missing "t" "") 3 OneLog.reader
          (.start OneLog.files)).progress.launches := by
        rw [undisturbed.run]
        exact filed.launches ▸ List.mem_cons_self
      rw [launch_of_plan started]
      rfl
    exact ⟨t, undisturbed, OneLog.staysApart_missing, OneLog.silent, log, unstarted,
      empty OneLog.silent log List.mem_cons_self _ unstarted⟩

/-- With its results kept where the first log is kept the same run adds the line of its second row
to that log, and the child of the first row has put out nothing. -/
theorem log_holds_a_result :
    ∃ t, Undisturbed (OneLog.setup OneLog.ended "logs/001_a.log" "") 3 OneLog.reader OneLog.files
        OneLog.place t ∧
      t.launches.map (fun l => (l.number, l.report.output)) = [(1, "")] ∧
      ∃ id x, t.files.entry? (OneLog.place ++ [logFile 1 "a"]) = some (.file id x) ∧
        t.files.content id = Records.notExecutedLine "b" := by
  apply OneLog.undisturbed
  rw [OneLog.plan_row]
  cbv

end TestBench.Run
