import TestBench.Script.Scan
/-!
# Reading scripts

From text to commands. Words are read in several settings; commands stand in words, and words in
commands.
-/
namespace TestBench.Script

open Reading

def redirection (fd : Option Nat) : Reading Unit := do
  let c ← take
  let r : Redirect ← if c == some '>' then do
      let fd := fd.getD 1
      if ← accept '>' then pure (.file fd .append [])
      else if ← accept '|' then pure (.file fd .clobber [])
      else if ← accept '&' then pure (.copyOf fd false [])
      else pure (.file fd .output [])
    else do
      let fd := fd.getD 0
      if ← accept '<' then
        let strip ← accept '-'
        let number := (← get).fresh
        modify fun t =>
          { t with fresh := number + 1, awaited := t.awaited ++ [⟨number, [], false, strip⟩] }
        pure (.document fd number)
      else if ← accept '&' then pure (.copyOf fd true [])
      else if ← accept '>' then pure (.file fd .both [])
      else pure (.file fd .input [])
  modify fun t => { t with redirect := r }

/-- Whether the line that begins here is the delimiter; if so it is taken. -/
def atDelimiter (a : Awaited) : Reading Bool := do
  let _ ← peek
  let s ← get
  let size := a.delimiter.length
  let known := s.rest.take (size + 1)
  if known.length ≤ size && a.delimiter.isPrefixOf known && !s.complete then throw .more
  else if known.length < size && known.isPrefixOf a.delimiter && !s.complete then throw .more
  else if a.delimiter.isPrefixOf s.rest && (known.length ≤ size || known.getLast? == some '\n') then
    (List.range (size + 1)).forM fun _ => skip
    if known.length ≤ size then modify fun s => { s with line := s.line + 1 }
    pure true
  else pure false

def stripTabs (a : Awaited) : Nat → Reading Unit
  | 0 => pure ()
  | n + 1 => do
    if a.strip && (← peek) == some '\t' then
      skip
      stripTabs a n

def literalLine : Nat → List Piece → Reading (List Piece)
  | 0, acc => pure acc
  | n + 1, acc => do
    match ← next with
    | none => pure acc
    | some c => if c == '\n' then pure (.char true c :: acc) else literalLine n (.char true c :: acc)

/-- A document whose text stands for itself. -/
def literalDocument : Nat → Awaited → List Piece → Reading (List Piece)
  | 0, _, acc => pure acc
  | n + 1, a, acc => do
    stripTabs a n
    if ← atDelimiter a then pure acc
    else
      let line ← literalLine n acc
      if (← peek).isNone then pure line else literalDocument n a line

/-- At the beginning of a line within a word: a document must not end here. -/
def checkDocument : Nat → Setting → Reading Unit
  | 0, _ => pure ()
  | n + 1, s => do
    match (← get).inside, s.openMessage true with
    | some a, some m =>
      stripTabs a n
      if ← atDelimiter a then wrong (str m)
    | _, _ => pure ()

def takeBack : Reading Unit := modify fun s => { s with again := true }

def inBackground : Command → Command
  | .pipeline stages _ => .pipeline stages true
  | .redirected line c rs => .background line c rs
  | c => .background 0 c []

mutual


/-- Reads the pieces of a word, last first, up to what ends it in its setting. -/
def pieces : Nat → Setting → List Piece → Reading (List Piece)
  | 0, _, acc => pure acc
  | n + 1, s, acc => do
    match ← (if s = .document then peek else look) with
    | none =>
      match s.openMessage (← get).inside.isSome with
      | none => pure acc
      | some m => wrong (str m)
    | some c =>
      let plain := do
        skip
        if c == '\n' then checkDocument n s
        pieces n s (.char false c :: acc)
      if c == '\\' then
        skip
        match ← peek with
        | none => pieces n s (.char true '\\' :: acc)
        | some d =>
          skip
          if d == '\n' then pieces n s acc
          else
            modify fun t => { t with hasQuotes := true }
            if s.escapes d then pieces n s (.char true d :: acc)
            else pieces n s (.char true d :: .char true '\\' :: acc)
      else if c == '$' then
        if (← get).looks.delimiter then plain
        else
          skip
          pieces n s ((← dollar n s) :: acc)
      else if c == graveAccent then
        if (← get).looks.delimiter then plain
        else
          skip
          pieces n s ((← grave n s) :: acc)
      else
        let quoting := do
          skip
          modify fun t => { t with hasQuotes := true }
        match s with
        | .bare =>
          if endsWord c then pure acc
          else if c == '\'' then
            quoting
            pieces n s (← singleQuoted n (.mark :: acc))
          else if c == '"' then
            quoting
            pieces n s (← pieces n (.quotes false) (.mark :: acc))
          else plain
        | .braces =>
          if c == closeBrace then
            skip
            pure acc
          else if c == '\'' then
            quoting
            pieces n s (← singleQuoted n (.mark :: acc))
          else if c == '"' then
            quoting
            pieces n s (← pieces n (.quotes true) (.mark :: acc))
          else plain
        | .quotes _ =>
          if c == '"' then
            skip
            pure (.mark :: acc)
          else plain
        | .quotedBraces isOpen inDocument =>
          if c == '"' then
            quoting
            pieces n (.quotedBraces (!isOpen) inDocument) (if inDocument then acc else .mark :: acc)
          else if c == closeBrace && !isOpen then
            skip
            pure acc
          else plain
        | .arithmetic depth =>
          if c == '(' then
            skip
            pieces n (.arithmetic (depth + 1)) (.char false c :: acc)
          else if c == ')' then
            skip
            if 0 < depth then pieces n (.arithmetic (depth - 1)) (.char false c :: acc)
            else if ← accept ')' then pure acc
            else pieces n s (.char false c :: acc)
          else plain
        | .document => if c == '\n' then pure acc else plain
termination_by structural x => x

def dollar : Nat → Setting → Reading Piece
  | 0, _ => pure (.char false '$')
  | n + 1, s => do
    match ← look with
    | none => pure (.char false '$')
    | some c =>
      if c == '(' then
        skip
        if ← accept '(' then
          let inner ← pieces n (.arithmetic 0) []
          pure (.arithmetic inner.reverse)
        else
          let body ← listInParens n
          pure (.substitution body)
      else if c == openBrace then
        skip
        let h ← readHead n
        if h.modifier = .plain || h.modifier = .length then
          pure (.parameter h.name h.modifier h.orNull [])
        else
          let trims := match h.modifier with
            | .trim _ _ => true
            | _ => false
          let inner : Setting :=
            if trims || !s.isQuoted then .braces
            else .quotedBraces false (match s with
              | .document => true
              | .quotedBraces _ d => d
              | _ => false)
          let argument ← pieces n inner []
          pure (.parameter h.name h.modifier h.orNull argument.reverse)
      else if isNameStart c then
        skip
        pure (.parameter (← nameRest n [c]) .plain false [])
      else if c.isDigit || isSpecial c then
        skip
        pure (.parameter [c] .plain false [])
      else pure (.char false '$')
termination_by structural x => x

/-- Reads a command between grave accents, which is a text of its own. -/
def grave : Nat → Setting → Reading Piece
  | 0, _ => pure (.char false graveAccent)
  | n + 1, s => do
    let text ← graveText s.isQuoted n []
    let t ← get
    set (Source.ofText text 1 true t.aliases t.documents t.fresh)
    let body ← listed n true
    let inner ← get
    set { t with documents := inner.documents, fresh := inner.fresh }
    pure (.substitution body)
termination_by structural x => x

def listInParens : Nat → Reading (Option Command)
  | 0 => pure none
  | n + 1 => do
    let before ← get
    set { before with awaited := [], inside := none, again := false }
    let body ← listed n true
    if (← nextToken n) != .closing then unexpected (some .closing)
    let left := (← get).awaited.map fun a => (a.number, ([] : Word))
    modify fun t =>
      { t with
        documents := left ++ t.documents
        awaited := before.awaited
        inside := before.inside
        looks := before.looks
        hasQuotes := before.hasQuotes }
    pure body
termination_by structural x => x

def rawToken : Nat → Reading Token
  | 0 => pure .fileEnd
  | n + 1 => do
    match ← skipBlanks n with
    | none => pure .fileEnd
    | some c =>
      let double := fun (one two : Token) => do
        skip
        if ← accept c then pure two else pure one
      match c with
      | '\n' =>
        skip
        pure .newline
      | '&' => double .ampersand .both
      | '|' => double .pipe .either
      | ';' => double .semicolon .armEnd
      | '(' =>
        skip
        pure .opening
      | ')' =>
        skip
        pure .closing
      | _ =>
        modify fun t => { t with hasQuotes := false }
        let word := (← pieces n .bare []).reverse
        let quoted := (← get).hasQuotes
        let angle ← look
        let number : Option (Option Nat) := match word with
          | [] => some none
          | [.char false d] => if d.isDigit then some (some (d.toNat - 48)) else none
          | _ => none
        match number with
        | some fd =>
          if !quoted && (angle == some '<' || angle == some '>') then
            redirection fd
            pure .redirect
          else
            modify fun t => { t with word := word }
            pure .word
        | none =>
          modify fun t => { t with word := word }
          pure .word
termination_by structural x => x

/-- The next token, as far as the script asks for reserved words, aliases and line ends. -/
def nextToken : Nat → Reading Token
  | 0 => pure .fileEnd
  | n + 1 => do
    let s ← get
    if s.again then
      set { s with again := false }
      skipLines n s.looks s.token
    else skipLines n s.looks (← rawToken n)
termination_by structural x => x

def skipLines : Nat → Looks → Token → Reading Token
  | 0, _, t => pure t
  | n + 1, l, t => do
    if t = .newline && l.lines then
      readDocuments n
      setLooks .nothing
      skipLines n l (← rawToken n)
    else
      let s ← get
      let l := { l with reserved := l.reserved || s.looks.reserved, aliases := l.aliases || s.looks.aliases }
      set { s with looks := .nothing, token := t }
      if t != .word || s.hasQuotes then pure t
      else match s.word.bareText? with
        | none => pure t
        | some text =>
          let w := String.ofList text
          if l.reserved && Token.isReserved w then
            modify fun s => { s with token := .reserved w }
            pure (.reserved w)
          else
            let usable := !(s.foldBack.unfolding.any fun u => u.name = text)
            match if l.aliases && usable then s.aliases.lookup text else none with
            | none => pure t
            | some value =>
              unfold text value
              skipLines n l (← rawToken n)
termination_by structural x => x

def readDocuments : Nat → Reading Unit
  | 0 => pure ()
  | n + 1 => do
    match (← get).awaited with
    | [] => pure ()
    | a :: as =>
      modify fun s => { s with awaited := as }
      let before ← get
      set { before with inside := some a }
      setLooks .nothing
      let body ← if a.literal then literalDocument n a [] else openDocument n a []
      modify fun s =>
        { s with
          documents := (a.number, body.reverse) :: s.documents
          inside := before.inside
          looks := before.looks
          hasQuotes := before.hasQuotes }
      readDocuments n
termination_by structural x => x

/-- A document in which parameters and commands are replaced. -/
def openDocument : Nat → Awaited → List Piece → Reading (List Piece)
  | 0, _, acc => pure acc
  | n + 1, a, acc => do
    stripTabs a n
    if ← atDelimiter a then pure acc
    else
      let line ← pieces n .document acc
      match ← next with
      | none => pure line
      | some c => openDocument n a (.char false c :: line)
termination_by structural x => x

/-- Reads commands up to a token that ends a list. `mayBeEmpty` lets it end at once. -/
def listed : Nat → Bool → Reading (Option Command)
  | 0, _ => pure none
  | n + 1, mayBeEmpty => listedFrom n mayBeEmpty none
termination_by structural x => x

def listedFrom : Nat → Bool → Option Command → Reading (Option Command)
  | 0, _, first => pure first
  | n + 1, mayEnd, first => do
    setLooks .forNext
    let t ← nextToken n
    if t = .fileEnd then
      readDocuments n
      modify fun s => { s with again := true, token := .fileEnd }
      pure first
    else
      takeBack
      if mayEnd && t.endsList then pure first
      else
        let one ← andOr n
        let t ← nextToken n
        let one := if t = .ampersand then inBackground one else one
        let all := some (match first with
          | none => one
          | some f => .sequence f one)
        match t with
        | .newline | .fileEnd =>
          takeBack
          listedFrom n true all
        | .ampersand | .semicolon => listedFrom n true all
        | _ =>
          takeBack
          pure all
termination_by structural x => x

def andOr : Nat → Reading Command
  | 0 => unexpected none
  | n + 1 => do andOrFrom n (← pipeline n)
termination_by structural x => x

def andOrFrom : Nat → Command → Reading Command
  | 0, first => pure first
  | n + 1, first => do
    let t ← nextToken n
    if t = .both || t = .either then
      setLooks .forNext
      let second ← pipeline n
      andOrFrom n (if t = .both then .both first second else .either first second)
    else
      takeBack
      pure first
termination_by structural x => x

def pipeline : Nat → Reading Command
  | 0 => unexpected none
  | n + 1 => do
    let negated := (← nextToken n) = .reserved "!"
    if negated then setLooks .forCommand else takeBack
    let first ← command n
    let all ← if (← nextToken n) = .pipe then do
        let rest ← stages n
        pure (Command.pipeline (first :: rest) false)
      else pure first
    takeBack
    pure (if negated then .negation all else all)
termination_by structural x => x

def stages : Nat → Reading (List Command)
  | 0 => pure []
  | n + 1 => do
    setLooks .forNext
    let one ← command n
    if (← nextToken n) = .pipe then do
      let rest ← stages n
      pure (one :: rest)
    else pure [one]
termination_by structural x => x

/-- A whole list has to stand here. At the end of the text there is none, and what has to follow it
is missing too. -/
def body : Nat → Reading Command
  | 0 => unexpected none
  | n + 1 => do pure ((← listed n false).getD (.simple 0 [] [] []))
termination_by structural x => x

def expect : Nat → Token → Reading Unit
  | 0, _ => unexpected none
  | n + 1, t => do
    if (← nextToken n) != t then unexpected (some t)
termination_by structural x => x

def command : Nat → Reading Command
  | 0 => unexpected none
  | n + 1 => do
    let line := (← get).line
    match ← nextToken n with
    | .reserved "if" =>
      let c ← conditional n
      expect n (.reserved "fi")
      withRedirects n line c
    | .reserved "while" => whileLoop n line true
    | .reserved "until" => whileLoop n line false
    | .reserved "for" => forLoop n line
    | .reserved "case" => selection n line
    | .opening =>
      let c ← body n
      expect n .closing
      setLooks .forCommand
      let rs ← redirects n
      pure (.subshell line c rs)
    | .reserved "\x7b" =>
      let c ← body n
      expect n (.reserved "\x7d")
      withRedirects n line c
    | .word | .redirect =>
      takeBack
      simple n (← get).line
    | _ => unexpected none
termination_by structural x => x

def withRedirects : Nat → Nat → Command → Reading Command
  | 0, _, c => pure c
  | n + 1, line, c => do
    setLooks .forCommand
    let rs ← redirects n
    pure (if rs.isEmpty then c else .redirected line c rs)
termination_by structural x => x

def redirects : Nat → Reading (List Redirect)
  | 0 => pure []
  | n + 1 => do
    if (← nextToken n) = .redirect then
      let r ← redirectTarget n
      let rest ← redirects n
      pure (r :: rest)
    else
      takeBack
      pure []
termination_by structural x => x

def redirectTarget : Nat → Reading Redirect
  | 0 => unexpected none
  | n + 1 => do
    let r := (← get).redirect
    match r with
    | .document _ _ => setLooks .forDelimiter
    | _ => pure ()
    if (← nextToken n) != .word then unexpected none
    let s ← get
    match r with
    | .file fd how _ => pure (.file fd how s.word)
    | .copyOf fd input _ =>
      match s.word.bareText? with
      | some ['-'] => pure (.copy fd input none)
      | some [d] =>
        if d.isDigit then pure (.copy fd input (some (d.toNat - 48)))
        else pure (.copyOf fd input s.word)
      | _ => pure (.copyOf fd input s.word)
    | .document fd number =>
      let marked := s.awaited.map fun a =>
        if a.number = number then { a with delimiter := s.word.text, literal := s.hasQuotes } else a
      set { s with awaited := marked }
      pure (.document fd number)
    | r => pure r
termination_by structural x => x

def conditional : Nat → Reading Command
  | 0 => unexpected none
  | n + 1 => do
    let test ← body n
    expect n (.reserved "then")
    let yes ← body n
    match ← nextToken n with
    | .reserved "elif" => do
      let no ← conditional n
      pure (.choice test yes (some no))
    | .reserved "else" => do
      let no ← body n
      pure (.choice test yes (some no))
    | _ =>
      takeBack
      pure (.choice test yes none)
termination_by structural x => x

def whileLoop : Nat → Nat → Bool → Reading Command
  | 0, _, _ => unexpected none
  | n + 1, line, whileTrue => do
    let test ← body n
    expect n (.reserved "do")
    let c ← body n
    expect n (.reserved "done")
    withRedirects n line (.loop whileTrue test c)
termination_by structural x => x

def forLoop : Nat → Nat → Reading Command
  | 0, _ => unexpected none
  | n + 1, line => do
    let t ← nextToken n
    let s ← get
    let name := (s.word.bareText?).getD []
    if t != .word || s.hasQuotes || !isName name then syntaxError (str "Bad for loop variable")
    setLooks .forNext
    let t ← nextToken n
    let words ← if t = .reserved "in" then do
        let ws ← argumentWords n
        let t := (← get).token
        if t != .newline && t != .semicolon then unexpected none
        pure ws
      else do
        if t != .semicolon then takeBack
        pure [[.mark, .parameter ['@'] .plain false [], .mark]]
    setLooks .forNext
    expect n (.reserved "do")
    let c ← body n
    expect n (.reserved "done")
    withRedirects n line (.each line name words c)
termination_by structural x => x

def argumentWords : Nat → Reading (List Word)
  | 0 => pure []
  | n + 1 => do
    if (← nextToken n) = .word then
      let w := (← get).word
      let rest ← argumentWords n
      pure (w :: rest)
    else pure []
termination_by structural x => x

def selection : Nat → Nat → Reading Command
  | 0, _ => unexpected none
  | n + 1, line => do
    expect n .word
    let subject := (← get).word
    setLooks .forNext
    expect n (.reserved "in")
    let arms ← arms n
    withRedirects n line (.select line subject arms)
termination_by structural x => x

def arms : Nat → Reading (List (List Word × Option Command))
  | 0 => pure []
  | n + 1 => do
    setLooks .forPattern
    let t ← nextToken n
    if t = .reserved "esac" then pure []
    else
      if t = .opening then
        let _ ← nextToken n
      let patterns ← patterns n
      if (← get).token != .closing then unexpected (some .closing)
      let c ← listed n true
      setLooks .forPattern
      let t ← nextToken n
      if t = .reserved "esac" then pure [(patterns, c)]
      else if t != .armEnd then unexpected (some .armEnd)
      else
        let rest ← arms n
        pure ((patterns, c) :: rest)
termination_by structural x => x

/-- The patterns of an arm; the first token of them has been read. -/
def patterns : Nat → Reading (List Word)
  | 0 => pure []
  | n + 1 => do
    let s ← get
    if (← nextToken n) = .pipe then
      let _ ← nextToken n
      let rest ← patterns n
      pure (s.word :: rest)
    else pure [s.word]
termination_by structural x => x

def simple : Nat → Nat → Reading Command
  | 0, _ => unexpected none
  | n + 1, line => simpleFrom n line true [] [] []
termination_by structural x => x

/-- Collects assignments, words and redirections, each last first. -/
def simpleFrom : Nat → Nat → Bool → List Word → List Word → List Redirect → Reading Command
  | 0, line, _, assigned, words, rs => pure (.simple line assigned.reverse words.reverse rs.reverse)
  | n + 1, line, atFront, assigned, words, rs => do
    setLooks (if atFront then .forAlias else .nothing)
    match ← nextToken n with
    | .word =>
      let w := (← get).word
      if atFront && w.assigned?.isSome then simpleFrom n line true (w :: assigned) words rs
      else simpleFrom n line false assigned (w :: words) rs
    | .redirect =>
      let r ← redirectTarget n
      simpleFrom n line atFront assigned words (r :: rs)
    | .opening =>
      match words, assigned, rs with
      | [w], [], [] => function n w
      | _, _, _ =>
        takeBack
        pure (.simple line assigned.reverse words.reverse rs.reverse)
    | _ =>
      takeBack
      pure (.simple line assigned.reverse words.reverse rs.reverse)
termination_by structural x => x

def function : Nat → Word → Reading Command
  | 0, _ => unexpected none
  | n + 1, w => do
    expect n .closing
    let name := (w.bareText?).getD []
    if !isName name || specialCommands.contains (String.ofList name) then
      syntaxError (str "Bad function name")
    setLooks .forNext
    let line := (← get).line
    let c ← command n
    pure (.define line name c)
termination_by structural x => x

end

end TestBench.Script
