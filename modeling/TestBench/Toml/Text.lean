/-!
# TOML strings

The four kinds of quoted text. Each reader starts after the opening quotes and answers with the
text and what follows the closing quotes.
-/
namespace TestBench.Toml

def isBlank (c : Char) : Bool := c == ' ' || c == '\t'

/-- Control characters apart from the tab may not stand in text or comments. -/
def isControl (c : Char) : Bool := (c.toNat < 32 && c != '\t') || c.toNat == 127

def hexDigit? (c : Char) : Option Nat :=
  if c.isDigit then some (c.toNat - 48)
  else if 'a' ≤ c && c ≤ 'f' then some (c.toNat - 87)
  else if 'A' ≤ c && c ≤ 'F' then some (c.toNat - 55)
  else none

def hexValue? (cs : List Char) : Option Nat :=
  cs.foldl (fun acc c => acc.bind fun v => (hexDigit? c).map (v * 16 + ·)) (some 0)

def hexEscape (n : Nat) (cs : List Char) : Option (Char × List Char) :=
  if (cs.take n).length < n then none
  else match hexValue? (cs.take n) with
    | none => none
    | some v => if v.isValidChar then some (Char.ofNat v, cs.drop n) else none

def letterEscapes : List (Char × Char) :=
  [('b', '\x08'), ('t', '\t'), ('n', '\n'), ('f', '\x0c'), ('r', '\r'), ('e', '\x1b'), ('"', '"'),
    ('\\', '\\')]

/-- The escapes that give the number of a character, and how many digits they have. -/
def numberEscapes : List (Char × Nat) := [('x', 2), ('u', 4), ('U', 8)]

def escape : List Char → Option (Char × List Char)
  | [] => none
  | c :: r =>
    match letterEscapes.lookup c, numberEscapes.lookup c with
    | some d, _ => some (d, r)
    | none, some n => hexEscape n r
    | none, none => none

theorem hexEscape_length {n : Nat} {cs rest : List Char} {c : Char}
    (h : hexEscape n cs = some (c, rest)) : rest.length ≤ cs.length := by
  simp only [hexEscape] at h
  split at h
  · simp at h
  · split at h
    · simp at h
    · split at h
      · simp only [Option.some.injEq, Prod.mk.injEq] at h
        rw [← h.2]
        simp
      · simp at h

theorem escape_length {cs rest : List Char} {c : Char} (h : escape cs = some (c, rest)) :
    rest.length < cs.length := by
  cases cs with
  | nil => simp [escape] at h
  | cons d r =>
    simp only [escape] at h
    split at h
    · simp only [Option.some.injEq, Prod.mk.injEq] at h
      simp [h.2]
    · exact Nat.lt_succ_of_le (hexEscape_length h)
    · simp at h

def basic (cs : List Char) : Option (List Char × List Char) :=
  match cs with
  | [] => none
  | c :: r =>
    if c == '"' then some ([], r)
    else if c == '\\' then
      match h : escape r with
      | none => none
      | some (d, rest) =>
        have := escape_length h
        (basic rest).map fun t => (d :: t.1, t.2)
    else if isControl c then none
    else (basic r).map fun t => (c :: t.1, t.2)
termination_by cs.length
decreasing_by
  · simp only [List.length_cons]
    omega
  · simp

def literal : List Char → Option (List Char × List Char)
  | [] => none
  | c :: r =>
    if c == '\'' then some ([], r)
    else if isControl c then none
    else (literal r).map fun t => (c :: t.1, t.2)

/-- A line end right after three opening quotes is no part of the text. -/
def dropFirstNewline : List Char → List Char
  | '\n' :: r => r
  | '\r' :: '\n' :: r => r
  | cs => cs

/-- Up to two quotes before the three closing ones belong to the text. -/
def closing (q : Char) : List Char → List Char × List Char
  | a :: b :: r =>
    if a == q && b == q then ([q, q], r) else if a == q then ([q], b :: r) else ([], a :: b :: r)
  | a :: r => if a == q then ([q], r) else ([], a :: r)
  | [] => ([], [])

def isClosing (q : Char) : List Char → Bool
  | a :: b :: c :: _ => a == q && b == q && c == q
  | _ => false

def dropLines : List Char → List Char
  | '\r' :: '\n' :: r => dropLines r
  | c :: r => if isBlank c || c == '\n' then dropLines r else c :: r
  | [] => []

theorem dropLines_length (cs : List Char) : (dropLines cs).length ≤ cs.length := by
  fun_induction dropLines cs with
  | case1 r ih => simp only [List.length_cons]; omega
  | case2 c r _ _ ih => simp only [List.length_cons]; omega
  | case3 => simp
  | case4 => simp

/-- A backslash at the end of a line: the text after it, without the white space in between. -/
def joinLines (cs : List Char) : Option (List Char) :=
  match cs.dropWhile isBlank with
  | '\n' :: r => some (dropLines r)
  | '\r' :: '\n' :: r => some (dropLines r)
  | _ => none

theorem joinLines_length {cs rest : List Char} (h : joinLines cs = some rest) :
    rest.length < cs.length := by
  have hd := (List.dropWhile_suffix isBlank (l := cs)).length_le
  simp only [joinLines] at h
  split at h
  · rename_i r heq
    rw [heq] at hd
    have := dropLines_length r
    simp only [Option.some.injEq] at h
    simp only [List.length_cons] at hd
    rw [← h]
    omega
  · rename_i r heq
    rw [heq] at hd
    have := dropLines_length r
    simp only [Option.some.injEq] at h
    simp only [List.length_cons] at hd
    rw [← h]
    omega
  · simp at h

def basicLines (cs : List Char) : Option (List Char × List Char) :=
  match cs with
  | [] => none
  | c :: r =>
    if isClosing '"' (c :: r) then some (closing '"' (r.drop 2))
    else if c == '\\' then
      match hj : joinLines r with
      | some rest =>
        have := joinLines_length hj
        basicLines rest
      | none =>
        match h : escape r with
        | none => none
        | some (d, rest) =>
          have := escape_length h
          (basicLines rest).map fun t => (d :: t.1, t.2)
    else if c == '\n' then (basicLines r).map fun t => (c :: t.1, t.2)
    else if c == '\r' then
      if r.head? == some '\n' then (basicLines r).map fun t => (c :: t.1, t.2) else none
    else if isControl c then none
    else (basicLines r).map fun t => (c :: t.1, t.2)
termination_by cs.length
decreasing_by
  all_goals simp only [List.length_cons]
  all_goals omega

def literalLines : List Char → Option (List Char × List Char)
  | [] => none
  | c :: r =>
    if isClosing '\'' (c :: r) then some (closing '\'' (r.drop 2))
    else if c == '\n' then (literalLines r).map fun t => (c :: t.1, t.2)
    else if c == '\r' then
      if r.head? == some '\n' then (literalLines r).map fun t => (c :: t.1, t.2) else none
    else if isControl c then none
    else (literalLines r).map fun t => (c :: t.1, t.2)

def string? : List Char → Option (List Char × List Char)
  | '"' :: '"' :: '"' :: r => basicLines (dropFirstNewline r)
  | '\'' :: '\'' :: '\'' :: r => literalLines (dropFirstNewline r)
  | '"' :: r => basic r
  | '\'' :: r => literal r
  | _ => none

end TestBench.Toml
