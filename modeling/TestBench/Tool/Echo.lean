import TestBench.Tool.Desk
import TestBench.Text.Split
/-!
# Writing words

The arguments with a blank between each two. Only the first words that consist of known letters
after a dash are options.
-/
namespace TestBench.Tool.Echo

structure Style where
  escapes : Bool
  line : Bool
deriving DecidableEq, Repr

def isOption : Chars → Bool
  | '-' :: c :: cs => (c :: cs).all "eEn".toList.contains
  | _ => false

def style (s : Style) (letter : Char) : Style :=
  if letter == 'e' then { s with escapes := true }
  else if letter == 'E' then { s with escapes := false }
  else if letter == 'n' then { s with line := false }
  else s

/-- One escape after its backslash: what it stands for and what follows. -/
def escape : Chars → Chars × Chars
  | [] => (['\\'], [])
  | 'a' :: r => (['\x07'], r)
  | 'b' :: r => (['\x08'], r)
  | 'e' :: r => (['\x1b'], r)
  | 'f' :: r => (['\x0c'], r)
  | 'n' :: r => (['\n'], r)
  | 'r' :: r => (['\x0d'], r)
  | 't' :: r => (['\t'], r)
  | 'v' :: r => (['\x0b'], r)
  | '\\' :: r => (['\\'], r)
  | 'x' :: r =>
    let ds := (r.take 2).takeWhile Text.isHex
    if ds.isEmpty then (['\\', 'x'], r) else ([byteChar (Text.valueIn 16 ds)], r.drop ds.length)
  | '0' :: r =>
    let ds := (r.take 3).takeWhile Text.isOctal
    ([byteChar (Text.valueIn 8 ds)], r.drop ds.length)
  | c :: r =>
    if Text.isOctal c then
      let ds := ((c :: r).take 3).takeWhile Text.isOctal
      ([byteChar (Text.valueIn 8 ds)], (c :: r).drop ds.length)
    else (['\\', c], r)

theorem escape_length (cs : Chars) : (escape cs).2.length ≤ cs.length := by
  fun_cases escape cs <;> simp [*] <;> omega

/-- Replaces the escapes; one of them ends all output, which the flag tells. -/
def unescape : Chars → Chars × Bool
  | [] => ([], false)
  | '\\' :: r =>
    if r.head? == some 'c' then ([], true)
    else
      let e := escape r
      let t := unescape e.2
      (e.1 ++ t.1, t.2)
  | c :: r =>
    let t := unescape r
    (c :: t.1, t.2)
termination_by cs => cs.length
decreasing_by
  all_goals simp_wf
  have := escape_length r
  omega

def job (args : List Chars) : Job Unit := do
  let onlyHelp := args.length = 1 && (args.contains (str "--help") || args.contains (str "--version"))
  if onlyHelp then finish 0
  let options := args.takeWhile isOption
  let s := options.foldl (fun s w => w.foldl style s) ⟨false, true⟩
  let words := args.drop options.length
  if s.escapes then
    let t := unescape (Text.joinWith [' '] words)
    put t.1
    if s.line && !t.2 then put ['\n']
  else
    put (Text.joinWith [' '] words)
    if s.line then put ['\n']

end TestBench.Tool.Echo
