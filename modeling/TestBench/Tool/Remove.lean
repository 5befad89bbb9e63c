import TestBench.Path
import TestBench.Tool.Options
/-!
# Removing files

Names are removed one after the other, directories with what is in them if that is asked for.
-/
namespace TestBench.Tool.Remove

open Process

inductive Asks where
  | never
  | once
  | always
deriving DecidableEq, Repr

structure Style where
  force : Bool
  recursive : Bool
  empty : Bool
  asks : Asks
  verbose : Bool
  guarded : Bool
deriving DecidableEq, Repr

def refuse (name : Chars) (e : Errno) : Job Unit :=
  complain [str "cannot remove ", Quote.always name, reason e]

/-- Asks a question; a line that begins with a yes agrees. -/
def ask (parts : List Chars) : Job Bool := do
  let _ ← flush
  remark ((← get).name ++ str ": " ++ parts.flatten ++ str "? ")
  let answer ← inputLine stepBound []
  pure (answer.head? = some 0x79 || answer.head? = some 0x59)

def isDots (name : Bytes) : Bool :=
  match (Path.names name).getLast? with
  | some n => n = Path.single || n = Path.double
  | none => false

/-- A name with several slashes at its end has one. -/
def trimmed (name : Bytes) : Bytes :=
  let bare := (name.reverse.dropWhile (· == Path.slash)).reverse
  if bare.length < name.length then bare ++ [Path.slash] else name

def describe (f : Facts) : String :=
  match f.kind with
  | .file => if f.size = 0 then "regular empty file" else "regular file"
  | .directory => "directory"
  | .link => "symbolic link"
  | .device => "character special file"
  | .pipe => "fifo"

def said (s : Style) (what : String) (name : Bytes) : Job Unit :=
  if s.verbose then put (str what ++ Quote.always (Chars.ofBytes name) ++ ['\n']) else pure ()

/-- Removes a name and answers whether it is gone; `n` bounds how deep directories lie. -/
def remove (s : Style) : Nat → Bytes → Job Bool
  | 0, _ => pure false
  | n + 1, name => do
    let shown := Chars.ofBytes name
    match ← call (.inspect name false) with
    | .error e =>
      if s.force && (e = .noEntry || e = .notDirectory) then pure true
      else
        refuse shown e
        pure false
    | .ok f =>
      if f.kind = .directory then
        let names ← call (.names name)
        let inside := match names with
          | .ok ns => ns
          | .error _ => []
        if !s.recursive && (!s.empty || !inside.isEmpty) then
          refuse shown (if s.empty then .notEmpty else .isDirectory)
          pure false
        else
          let goes ← if s.recursive && !inside.isEmpty && s.asks = .always then
              ask [str "descend into directory ", Quote.always shown]
            else pure true
          if !goes then pure false
          else
            let cleared ← inside.foldlM (fun (cleared : Bool) child => do
              let gone ← remove s n (Path.join name child)
              pure (cleared && gone)) true
            let agrees ← if cleared && s.asks = .always then
                ask [str "remove directory ", Quote.always shown]
              else pure cleared
            if !agrees then pure false
            else match ← call (.removeDirectory name) with
              | .ok _ =>
                said s "removed directory " name
                pure true
              | .error e =>
                refuse shown e
                pure false
      else
        let agrees ← if s.asks = .always then
            ask [str "remove ", str (describe f), [' '], Quote.always shown]
          else pure true
        if !agrees then pure false
        else match ← call (.unlink name) with
          | .ok _ =>
            said s "removed " name
            pure true
          | .error e =>
            refuse shown e
            pure false

def deepest : Nat := 4096

def file (s : Style) (name : Chars) : Job Unit := do
  let bs := trimmed (Chars.toBytes name)
  if s.recursive && isDots bs then
    complain [str "refusing to remove '.' or '..' directory: skipping ", Quote.always name]
  else if s.recursive && s.guarded && !bs.isEmpty && (Path.names bs).isEmpty then
    complain [str "it is dangerous to operate recursively on '/'"]
    warn [str "use --no-preserve-root to override this failsafe"]
  else
    let _ ← remove s deepest bs

def options : Options where
  short := "dfiIrRv".toList.map fun c => (c, .nothing)
  long := [("force", .nothing, 'f'), ("interactive", .perhaps, 'q'),
    ("one-file-system", .nothing, 'x'), ("no-preserve-root", .nothing, 'y'),
    ("preserve-root", .perhaps, 'p'), ("recursive", .nothing, 'r'), ("dir", .nothing, 'd'),
    ("verbose", .nothing, 'v')] ++ Options.common
  inOrder := false

def setOption (s : Style) (letter : Char) (value : Chars) : Job Style := do
  match letter with
  | 'd' => pure { s with empty := true }
  | 'f' => pure { s with force := true, asks := .never }
  | 'i' => pure { s with force := false, asks := .always }
  | 'I' => pure { s with force := false, asks := .once }
  | 'v' => pure { s with verbose := true }
  | 'y' => pure { s with guarded := false }
  | 'q' =>
    let is := fun (w : String) => !value.isEmpty && value.isPrefixOf (str w)
    if value.isEmpty || is "always" || is "yes" then pure { s with asks := .always, force := false }
    else if is "never" || is "no" || is "none" then pure { s with asks := .never }
    else if is "once" then pure { s with asks := .once, force := false }
    else misuse [str "invalid argument ", Quote.plain value, str " for ",
      str "'--interactive'\nValid arguments are:\n  - 'never', 'no', 'none'\n  - 'once'\n  - 'always', 'yes'"]
  | c => pure (if c == 'r' || c == 'R' then { s with recursive := true } else s)

def job (args : List Chars) : Job Unit := do
  let p := options.parse args
  let s ← eachOption p.met ⟨false, false, false, .never, false, true⟩ setOption
  if p.operands.isEmpty then
    if s.force then finish 0
    misuse [str "missing operand"]
  let many := p.operands.length
  let goes ← if s.asks = .once && (s.recursive || 3 < many) then
      ask [str "remove ", Decimal.render many, str (if many = 1 then " argument" else " arguments"),
        str (if s.recursive then " recursively" else "")]
    else pure true
  if goes then p.operands.forM (file s)
  closeInput

end TestBench.Tool.Remove
