import TestBench.Proofs.FileSystem.Joining
import TestBench.Proofs.Text.Decimal
import TestBench.Proofs.Text.Utf8
import TestBench.Run.Records
/-!
# The file of a log

The name of a log is a single name in the log directory, and its number can be read off it. So the
log of a row is a new file there unless a log with its number has been there before.
-/
namespace TestBench

open FileSystem (LeadsTo Walks)

namespace Records

/-- The name of a log as it stands in the log directory. -/
def logFile (number : Nat) (name : String) : Bytes := Path.ofText (logName number name)

variable {number : Nat} {name : String} {dir : Path}

theorem keptInName_slash : keptInName '/' = false := by decide

theorem keptInName_nul : keptInName '\x00' = false := by decide

theorem notMem_sanitize {c : Char} (cut : keptInName c = false) (other : c ≠ '_')
    (cs : List Char) : c ∉ sanitize cs := by
  intro hm
  obtain ⟨d, _, hd⟩ := List.mem_map.mp hm
  by_cases kept : keptInName d = true
  · rw [if_pos kept] at hd
    subst hd
    rw [cut] at kept
    cases kept
  · rw [if_neg kept] at hd
    exact other hd.symm

theorem toList_logName (number : Nat) (name : String) :
    (logName number name).toList =
      Decimal.padded 3 number ++ '_' :: (sanitize name.toList ++ ".log".toList) := by
  rw [logName, String.toList_ofList, List.append_assoc]
  rfl

theorem notMem_logName {c : Char} (cut : keptInName c = false) (other : c ≠ '_')
    (digit : c.isDigit = false) (last : c ∉ ".log".toList) :
    c ∉ (logName number name).toList := by
  rw [toList_logName]
  intro hm
  rcases List.mem_append.mp hm with hm | hm
  · rw [Decimal.digits_padded 3 number c hm] at digit
    cases digit
  rcases List.mem_cons.mp hm with hm | hm
  · exact other hm
  rcases List.mem_append.mp hm with hm | hm
  · exact notMem_sanitize cut other _ hm
  · exact last hm

theorem logFile_ne (dots : List Char) (front : ∀ c, dots.head? = some c → c.isDigit = false) :
    logFile number name ≠ Utf8.encode dots := by
  intro h
  have same : (logName number name).toList = dots := Utf8.encode_injective h
  rw [toList_logName] at same
  cases number' : Decimal.padded 3 number with
  | nil => exact Decimal.padded_ne_nil 3 number number'
  | cons c cs =>
    have digit := Decimal.digits_padded 3 number c (number' ▸ List.mem_cons_self)
    rw [front c] at digit
    · cases digit
    · rw [← same, number']
      rfl

/-- Whatever the name of a row, the name of its log is the name of one entry of a directory. -/
theorem isName_logFile (number : Nat) (name : String) : Path.IsName (logFile number name) := by
  refine ⟨logFile_ne [] (by simp), ?_, logFile_ne ['.'] ?_, logFile_ne ['.', '.'] ?_⟩
  · intro hm
    have slash := Utf8.mem_of_mem_encode (c := '/') (by decide) (by decide) hm
    exact notMem_logName keptInName_slash (by decide) (by decide) (by decide) slash
  · rintro c ⟨⟩
    rfl
  · rintro c ⟨⟩
    rfl

theorem notMem_logFile_nul (number : Nat) (name : String) : 0 ∉ logFile number name := by
  intro hm
  have nul := Utf8.mem_of_mem_encode (c := '\x00') (by decide) (by decide) hm
  exact notMem_logName keptInName_nul (by decide) (by decide) (by decide) nul

theorem splitAt_unique {c : Char} {xs ys xs' ys' : List Char} (plain : c ∉ xs) (plain' : c ∉ xs')
    (h : xs ++ c :: ys = xs' ++ c :: ys') : xs = xs' := by
  have pieces := congrArg (Text.splitOn c) h
  rw [Text.splitOn_append_cons plain, Text.splitOn_append_cons plain'] at pieces
  exact (List.cons.inj pieces).1

/-- The number ends where the first underscore stands, so it can be read off. -/
theorem number_of_logFile {number' : Nat} {name' : String}
    (h : logFile number name = logFile number' name') : number = number' := by
  have same : (logName number name).toList = (logName number' name').toList :=
    Utf8.encode_injective h
  rw [toList_logName, toList_logName] at same
  have bare (n : Nat) : '_' ∉ Decimal.padded 3 n := fun hm => by
    have digit := Decimal.digits_padded 3 n '_' hm
    cases digit
  exact Decimal.padded_injective (splitAt_unique (bare number) (bare number') same)

theorem logPath_eq (dir : Path) (number : Nat) (name : String) :
    logPath dir number name = Path.join dir (logFile number name) := rfl

theorem number_of_logPath {number' : Nat} {name' : String}
    (h : logPath dir number name = logPath dir number' name') : number = number' := by
  have names := congrArg Path.names h
  rw [logPath_eq, logPath_eq, (isName_logFile number name).names_join,
    (isName_logFile number' name').names_join] at names
  exact number_of_logFile (List.cons.inj (List.append_cancel_left names)).1

end Records

namespace FileSystem

/-- A file system that has one file more, a new one, and is otherwise as it was. -/
structure Added (fs : FileSystem) (l : Location) (bs : Bytes) (new : FileSystem) : Prop where
  free : fs.entry? l = none
  file : ∃ id x, new.entry? l = some (.file id x) ∧ fs.fresh ≤ id ∧ new.content id = bs
  entry : ∀ m, m ≠ l → new.entry? m = fs.entry? m
  content : ∀ id, id < fs.fresh → new.content id = fs.content id
  sound : fs.Sound → new.Sound
  home : new.workingDirectory = fs.workingDirectory

variable {fs new : FileSystem} {l : Location} {bs : Bytes} {dir : Path} {name : Bytes}

theorem added_create (free : fs.entry? l = none) (bs : Bytes) :
    fs.Added l bs ((fs.create l false []).append fs.fresh bs) := by
  have held (id : Nat) : ((fs.create l false []).append fs.fresh bs).content id =
      if id = fs.fresh then bs else fs.content id := by
    rw [content_append, content_create, content_create, if_pos rfl, List.nil_append]
    split <;> rfl
  have stands (m : Location) : entry? ((fs.create l false []).append fs.fresh bs) m =
      if m = l then some (.file fs.fresh false) else fs.entry? m :=
    entry?_create (ne_nil_of_free free) fs false [] m
  refine ⟨free, ⟨fs.fresh, false, ?_, Nat.le_refl _, ?_⟩, ?_, ?_, ?_, rfl⟩
  · rw [stands, if_pos rfl]
  · rw [held, if_pos rfl]
  · intro m other
    rw [stands, if_neg other]
  · intro id old
    rw [held, if_neg (Nat.ne_of_lt old)]
  · exact fun sound => sound.create free false []

theorem Added.keeps (h : fs.Added l bs new) : fs.Keeps new := by
  intro m e there
  rw [h.entry m, there]
  rintro rfl
  rw [h.free] at there
  cases there

end FileSystem

/-- A log that is written where none was is a new file in the log directory, and nothing else has
changed. -/
theorem Records.added_of_writeLog {fs new : FileSystem} {dir : Path} {d : Location} {number : Nat}
    {name output : String} (leads : fs.LeadsTo dir d)
    (free : fs.entry? (d ++ [logFile number name]) = none)
    (written : writeLog fs (logPath dir number name) output = (none, new)) :
    fs.Added (d ++ [logFile number name]) (Utf8.ofText output) new := by
  have own := isName_logFile number name
  unfold writeLog at written
  cases opens : fs.openWrite (logPath dir number name) with
  | error e =>
    rw [opens] at written
    cases written
  | ok t =>
    obtain ⟨handle, opened⟩ := t
    rw [opens] at written
    unfold FileSystem.openWrite at opens
    cases located : fs.locate .make (logPath dir number name) with
    | error e =>
      rw [located] at opens
      cases opens
    | ok spot =>
      rw [located] at opens
      obtain ⟨k, l, leads', last⟩ := FileSystem.exists_leadsTo_of_join located own
      obtain rfl := leads.unique leads'
      obtain rfl := last.eq_of_free own free
      dsimp only at opens
      split at opens
      · cases opens
      · cases opens
        obtain rfl := (Prod.mk.inj written).2
        exact FileSystem.added_create free _

end TestBench
