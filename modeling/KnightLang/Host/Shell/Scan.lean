import KnightLang.Host.Shell.Syntax

namespace KnightLang.Host.Shell

structure SyntaxError where
  line : Nat
  message : String

structure Awaited where
  id : Nat
  delimiter : String
  stripTabs : Bool
  literal : Bool

inductive Token
  | endOfFile
  | newline
  | redirection (channel : Option Nat) (op : String)
  | word (w : Word)
  | symbol (s : String)
  | keyword (s : String)

def Token.name : Token → String
  | endOfFile => "end of file"
  | newline => "newline"
  | redirection _ _ => "redirection"
  | word _ => "word"
  | symbol s | keyword s => "\"" ++ s ++ "\""

structure Source where
  rest : List Char
  line : Nat := 1
  aliases : List (String × String) := []
  open' : List (String × Nat) := []
  awaited : List Awaited := []
  documents : List (Nat × Word) := []
  next : Nat := 0
  pushed : Option Token := none
  latest : Word := []

abbrev Parser : Type → Type := StateT Source (Except SyntaxError)

namespace Source

def fail {α : Type} (s : Source) (message : String) : Except SyntaxError α :=
  .error ⟨s.line, message⟩

def joined (s : Source) : Source :=
  go s.rest s.line
where
  go : List Char → Nat → Source
    | '\\' :: '\n' :: rest, line => go rest (line + 1)
    | rest, line => { s with rest, line }

def newlines (cs : List Char) : Nat := cs.countP (· = '\n')

def past (s : Source) (read rest : List Char) : Source :=
  { s with rest, line := s.line + newlines read }

end Source

def endsWord (c : Char) : Bool := " \t\n;&()|<>".contains c

inductive Inside
  | quotes
  | braces (again : Bool)
  | document
  deriving DecidableEq, Repr

def SyntaxError.within (e : SyntaxError) (place : Inside) : SyntaxError :=
  if place = .document && e.message = "Unterminated quoted string" then
    { e with message := "Missing '\x7d'" }
  else e

def readModifier : List Char → Modifier × List Char
  | ':' :: '-' :: rest => (.default true, rest)
  | ':' :: '=' :: rest => (.assign true, rest)
  | ':' :: '+' :: rest => (.alternative true, rest)
  | ':' :: '?' :: rest => (.require true, rest)
  | ':' :: '}' :: rest => (.bad, rest)
  | ':' :: _ :: rest => (.bad, rest)
  | '-' :: rest => (.default false, rest)
  | '=' :: rest => (.assign false, rest)
  | '+' :: rest => (.alternative false, rest)
  | '?' :: rest => (.require false, rest)
  | '%' :: '%' :: rest => (.trim true true, rest)
  | '%' :: rest => (.trim true false, rest)
  | '#' :: '#' :: rest => (.trim false true, rest)
  | '#' :: rest => (.trim false false, rest)
  | _ :: rest => (.bad, rest)
  | [] => (.bad, [])

def isSpecial (c : Char) : Bool := "@*#?-$!".contains c

def joinedName (more : Char → Bool) : List Char → List Char × Nat
  | '\\' :: '\n' :: rest =>
    let (cs, n) := joinedName more rest
    (cs, n + 1)
  | c :: rest =>
    if more c then
      let (cs, n) := joinedName more rest
      (c :: cs, n)
    else (c :: rest, 0)
  | [] => ([], 0)

def readParameter : List Char → (String × Modifier × Bool) × List Char
  | '#' :: rest => afterSharp rest
  | cs => ordinary cs
where
  ordinary (cs : List Char) : (String × Modifier × Bool) × List Char :=
    match cs with
    | [] => (("", .bad, true), [])
    | c :: rest =>
      if isNameStart c then named (cs.takeWhile isNamePart) (cs.dropWhile isNamePart)
      else if c.isDigit then named (cs.takeWhile Char.isDigit) (cs.dropWhile Char.isDigit)
      else if isSpecial c then named [c] rest
      else (("", .bad, true), if c = '}' then cs else rest)
  named (name rest : List Char) : (String × Modifier × Bool) × List Char :=
    match rest with
    | '}' :: rest => ((String.ofList name, .plain, false), rest)
    | rest =>
      let (modifier, rest) := readModifier rest
      ((String.ofList name, modifier, true), rest)
  afterSharp (rest : List Char) : (String × Modifier × Bool) × List Char :=
    match rest with
    | c :: after =>
      if isNamePart c then
        let part := if c.isDigit then Char.isDigit else isNamePart
        match rest.dropWhile part with
        | '}' :: after => ((String.ofList (rest.takeWhile part), .length, false), after)
        | after => ((String.ofList (rest.takeWhile part), .bad, true), after)
      else if c ≠ '}' && after.head? = some '}' then
        if isSpecial c then ((String.singleton c, .length, false), after.drop 1)
        else (("", .bad, true), rest)
      else named ['#'] rest
    | [] => named ['#'] []

def readBackquoted (quoted : Bool) : List Char → List Char → Option (List Char × List Char)
  | _, [] => none
  | text, '\x60' :: rest => some (text.reverse, rest)
  | text, '\\' :: '\n' :: rest => readBackquoted quoted text rest
  | text, '\\' :: c :: rest =>
    if c = '\\' || c = '\x60' || c = '$' || (c = '"' && quoted) then
      readBackquoted quoted (c :: text) rest
    else readBackquoted quoted (c :: '\\' :: text) rest
  | text, c :: rest => readBackquoted quoted (c :: text) rest

abbrev Reading : Type := Except SyntaxError (List Piece × Source)

def readInner (script : Parser Command) (s : Source) (rest : List Char) :
    Except SyntaxError (Command × Source) :=
  script { s with rest, awaited := [], open' := [], pushed := none }

def readBracketed (script : Parser Command) (quoted : Bool) (pieces : List Piece) (s : Source) : Reading := do
  let (c, inner) ← readInner script s s.rest
  let unexpected (t : Token) : Reading :=
    inner.fail (t.name ++ " unexpected (expecting \")\")")
  match inner.pushed with
  | some (.symbol ")") =>
    return (.printed c quoted :: pieces,
      { s with rest := inner.rest, line := inner.line, documents := inner.documents,
               next := inner.next })
  | some t => unexpected t
  | none => unexpected .endOfFile

def readBackquote (script : Parser Command) (quoted : Bool) (pieces : List Piece) (s : Source) : Reading :=
  match readBackquoted quoted [] s.rest with
  | none => (s.past s.rest []).fail "EOF in backquote substitution"
  | some (text, rest) => do
    let (c, inner) ← readInner script { s with line := 1 } text
    let read := s.rest.take (s.rest.length - rest.length)
    return (.printed c quoted :: pieces,
      { s.past read rest with documents := inner.documents, next := inner.next })

def withText (text : List Char) : List Piece → List Piece
  | .text before false :: pieces => .text (before ++ String.ofList text) false :: pieces
  | pieces => .text (String.ofList text) false :: pieces

mutual

def readBare (script : Parser Command) (braces : Bool) : Nat → List Piece → Source → Reading
  | 0, _, s => s.fail "word too long"
  | fuel + 1, pieces, s =>
    match s.rest with
    | [] => if braces then s.fail "Missing '\x7d'" else .ok (pieces, s)
    | '\\' :: '\n' :: rest => readBare script braces fuel pieces (s.past ['\n'] rest)
    | ['\\'] => readBare script braces fuel (.text "\\" true :: pieces) { s with rest := [] }
    | '\\' :: c :: rest =>
      readBare script braces fuel (.text (String.singleton c) true :: pieces) { s with rest }
    | '\'' :: rest =>
      match rest.dropWhile (· ≠ '\'') with
      | [] => (s.past rest []).fail "Unterminated quoted string"
      | _ :: after =>
        let quoted := rest.takeWhile (· ≠ '\'')
        readBare script braces fuel
          (.quote :: .text (String.ofList quoted) true :: .quote :: pieces) (s.past quoted after)
    | '"' :: rest =>
      match readDouble script .quotes fuel (.quote :: pieces) { s with rest } with
      | .ok (pieces, s) => readBare script braces fuel (.quote :: pieces) s
      | .error e => .error e
    | '$' :: rest =>
      match readDollar script false .quotes fuel pieces { s with rest } with
      | .ok (pieces, s) => readBare script braces fuel pieces s
      | .error e => .error e
    | '\x60' :: rest =>
      match readBackquote script false pieces { s with rest } with
      | .ok (pieces, s) => readBare script braces fuel pieces s
      | .error e => .error e
    | c :: rest =>
      if braces && c = '}' then .ok (pieces, { s with rest })
      else if !braces && endsWord c then .ok (pieces, s)
      else
        let ordinary (c : Char) : Bool :=
          !"\\'\"$\x60".contains c && (if braces then c ≠ '}' else !endsWord c)
        let text := c :: rest.takeWhile ordinary
        readBare script braces fuel (withText text pieces) (s.past text (rest.dropWhile ordinary))

def readDouble (script : Parser Command) (place : Inside) : Nat → List Piece → Source → Reading
  | 0, _, s => s.fail "word too long"
  | fuel + 1, pieces, s =>
    match s.rest with
    | [] => if place = .document then .ok (pieces, s) else s.fail "Unterminated quoted string"
    | '\\' :: '\n' :: rest => readDouble script place fuel pieces (s.past ['\n'] rest)
    | ['\\'] => readDouble script place fuel (.text "\\" true :: pieces) { s with rest := [] }
    | '\\' :: c :: rest =>
      let bracketed := place = .braces true || place = .braces false
      let text :=
        if c = '\\' || c = '\x60' || c = '$' || (c = '"' && place ≠ .document) ||
            (c = '}' && bracketed) then [c]
        else ['\\', c]
      readDouble script place fuel (.text (String.ofList text) true :: pieces) { s with rest }
    | '$' :: rest =>
      match readDollar script true place fuel pieces { s with rest } with
      | .ok (pieces, s) => readDouble script place fuel pieces s
      | .error e => .error e
    | '\x60' :: rest =>
      match readBackquote script true pieces { s with rest } with
      | .ok (pieces, s) => readDouble script place fuel pieces s
      | .error e => .error e
    | c :: rest =>
      let text := c :: rest.takeWhile fun c => !"\\\"$\x60\x7d".contains c
      let after := rest.dropWhile fun c => !"\\\"$\x60\x7d".contains c
      let literal : Unit → Reading := fun _ =>
        readDouble script place fuel (.text (String.ofList text) true :: pieces) (s.past text after)
      match c, place with
      | '"', .quotes => .ok (pieces, { s with rest })
      | '"', .braces again => readDouble script (.braces !again) fuel (.quote :: pieces) { s with rest }
      | '}', .braces false => .ok (pieces, { s with rest })
      | _, _ => literal ()

def readDollar (script : Parser Command) (quoted : Bool) (place : Inside) :
    Nat → List Piece → Source → Reading
  | 0, _, s => s.fail "word too long"
  | fuel + 1, pieces, s =>
    let s := s.joined
    match s.rest with
    | '(' :: rest =>
      let s := ({ s with rest } : Source).joined
      match s.rest with
      | '(' :: rest =>
        match readArithmetic script 0 fuel [] { s with rest } with
        | .ok (expression, s) => .ok (.arithmetic expression.reverse quoted :: pieces, s)
        | .error e => .error (e.within place)
      | _ => readBracketed script quoted pieces s
    | '{' :: rest =>
      let (rest, lines) := joinedName (fun c => isNamePart c || ":=+%".contains c || isSpecial c) rest
      let ((name, modifier, more), rest) := readParameter rest
      let s := { s with rest, line := s.line + lines }
      if !more then .ok (.parameter name modifier [] quoted :: pieces, s)
      else
        let trims := match modifier with
          | .trim _ _ => true
          | _ => false
        let word :=
          if quoted && !trims then readDouble script (.braces false) fuel [] s
          else readBare script true fuel [] s
        match word with
        | .ok (word, s) => .ok (.parameter name modifier word.reverse quoted :: pieces, s)
        | .error e => .error (e.within place)
    | c :: rest =>
      let named (name : List Char) (rest : List Char) (lines : Nat) : Reading :=
        .ok (.parameter (String.ofList name) .plain [] quoted :: pieces,
          { s with rest, line := s.line + lines })
      if isNameStart c then
        let (rest, lines) := joinedName isNamePart rest
        named (c :: rest.takeWhile isNamePart) (rest.dropWhile isNamePart) lines
      else if c.isDigit || isSpecial c then named [c] rest 0
      else .ok (.text "$" quoted :: pieces, s)
    | [] => .ok (.text "$" quoted :: pieces, s)

def readArithmetic (script : Parser Command) (depth : Nat) : Nat → List Piece → Source → Reading
  | 0, _, s => s.fail "word too long"
  | fuel + 1, pieces, s =>
    match s.rest with
    | [] => s.fail "Missing '))'"
    | '\\' :: '\n' :: rest => readArithmetic script depth fuel pieces (s.past ['\n'] rest)
    | '\\' :: c :: rest =>
      let text := if "\\\x60$\"".contains c then [c] else ['\\', c]
      readArithmetic script depth fuel (.text (String.ofList text) true :: pieces) { s with rest }
    | '$' :: rest =>
      match readDollar script true .quotes fuel pieces { s with rest } with
      | .ok (pieces, s) => readArithmetic script depth fuel pieces s
      | .error e => .error e
    | '\x60' :: rest =>
      match readBackquote script true pieces { s with rest } with
      | .ok (pieces, s) => readArithmetic script depth fuel pieces s
      | .error e => .error e
    | '(' :: rest =>
      readArithmetic script (depth + 1) fuel (.text "(" true :: pieces) { s with rest }
    | ')' :: rest =>
      if depth = 0 then
        match ({ s with rest } : Source).joined with
        | { rest := ')' :: rest, line, .. } => .ok (pieces, { s with rest, line })
        | s => readArithmetic script 0 fuel (.text ")" true :: pieces) s
      else readArithmetic script (depth - 1) fuel (.text ")" true :: pieces) { s with rest }
    | c :: rest =>
      let text := c :: rest.takeWhile fun c => !"\\$\x60()".contains c
      readArithmetic script depth fuel (.text (String.ofList text) true :: pieces)
        (s.past text (rest.dropWhile fun c => !"\\$\x60()".contains c))

end

def readWord (script : Parser Command) (s : Source) : Except SyntaxError (Word × Source) := do
  let (pieces, s) ← readBare script false (4 * s.rest.length + 16) [] s
  return (pieces.reverse, s)

/-! ### Tokens -/

def readRedirection (s : Source) : String × Source :=
  match s.rest with
  | c :: rest =>
    let s := ({ s with rest } : Source).joined
    let two (op : String) : String × Source := (op, { s with rest := s.rest.drop 1 })
    match c, s.rest.head? with
    | '>', some '>' => two ">>"
    | '>', some '|' => two ">|"
    | '>', some '&' => two ">&"
    | '<', some '&' => two "<&"
    | '<', some '>' => two "<>"
    | '<', some '<' =>
      let (_, s) := two "<<"
      let s := s.joined
      match s.rest with
      | '-' :: rest => ("<<-", { s with rest })
      | _ => ("<<", s)
    | c, _ => (String.singleton c, s)
  | [] => ("", s)

def readToken (script : Parser Command) : Nat → Source → Except SyntaxError (Token × Source)
  | 0, s => s.fail "script too long"
  | fuel + 1, s =>
    let s := s.joined
    let maybe (c : Char) (one two : String) (rest : List Char) : Except SyntaxError (Token × Source) :=
      let s := ({ s with rest } : Source).joined
      if s.rest.head? = some c then .ok (.symbol two, { s with rest := s.rest.drop 1 })
      else .ok (.symbol one, s)
    match s.rest with
    | [] => .ok (.endOfFile, s)
    | c :: rest =>
      match c with
      | ' ' | '\t' => readToken script fuel { s with rest }
      | '#' => readToken script fuel { s with rest := rest.dropWhile (· ≠ '\n') }
      | '\n' => .ok (.newline, { s with rest, line := s.line + 1 })
      | '&' => maybe '&' "&" "&&" rest
      | '|' => maybe '|' "|" "||" rest
      | ';' => maybe ';' ";" ";;" rest
      | '(' => .ok (.symbol "(", { s with rest })
      | ')' => .ok (.symbol ")", { s with rest })
      | '<' | '>' =>
        let (op, s) := readRedirection s
        .ok (.redirection none op, s)
      | _ => do
        let (w, after) ← readWord script s
        match plainText? w, after.rest.head? with
        | some text, some '<' | some text, some '>' =>
          match text.toList with
          | [d] =>
            if d.isDigit then
              let (op, s) := readRedirection after
              return (.redirection (some (d.toNat - 48)) op, s)
            else return (.word w, after)
          | _ => return (.word w, after)
        | _, _ => return (.word w, after)

/-! ### Documents -/

def readDelimiter : Nat → List Char → Bool → List Char → Option ((String × Bool) × List Char)
  | 0, _, _, _ => none
  | fuel + 1, text, quoted, cs =>
    match cs with
    | '\'' :: rest =>
      if rest.contains '\'' then
        readDelimiter fuel ((rest.takeWhile (· ≠ '\'')).reverse ++ text) true
          ((rest.dropWhile (· ≠ '\'')).drop 1)
      else none
    | '"' :: rest =>
      if rest.contains '"' then
        readDelimiter fuel ((rest.takeWhile (· ≠ '"')).reverse ++ text) true
          ((rest.dropWhile (· ≠ '"')).drop 1)
      else none
    | '\\' :: '\n' :: rest => readDelimiter fuel text quoted rest
    | '\\' :: c :: rest => readDelimiter fuel (c :: text) true rest
    | c :: rest =>
      if endsWord c then some ((String.ofList text.reverse, quoted), cs)
      else readDelimiter fuel (c :: text) quoted rest
    | [] => some ((String.ofList text.reverse, quoted), [])

/-- The lines of a document up to its delimiter, and what is after that. A line that an escaped end
joins to text before it cannot be the delimiter. -/
def takeDocument (a : Awaited) : Nat → Bool → List (List Char) → List Char → List Char × List Char
  | 0, _, lines, rest => (lines.reverse.flatten, rest)
  | fuel + 1, joined, lines, rest =>
    if rest.isEmpty then (lines.reverse.flatten, [])
    else
      let line := rest.takeWhile (· ≠ '\n')
      let after := rest.dropWhile (· ≠ '\n')
      let line := if a.stripTabs && !joined then line.dropWhile (· = '\t') else line
      if !joined && String.ofList line = a.delimiter then (lines.reverse.flatten, after.drop 1)
      else
        let escaped := !a.literal && (line.reverse.takeWhile (· = '\\')).length % 2 = 1 &&
          (joined || line ≠ ['\\'])
        takeDocument a fuel escaped ((line ++ after.take 1) :: lines) (after.drop 1)

def readDocuments (script : Parser Command) (s : Source) : Except SyntaxError Source :=
  s.awaited.foldlM (fun s a => do
    let (text, rest) := takeDocument a (s.rest.length + 1) false [] s.rest
    let after := { s with rest, line := s.line + (Source.newlines s.rest - Source.newlines rest) }
    if a.literal then
      return { after with documents := (a.id, [.text (String.ofList text) true]) :: s.documents }
    else
      let (pieces, inner) ←
        readDouble script .document (4 * text.length + 16) [] { s with rest := text, awaited := [] }
      return { after with documents := (a.id, pieces.reverse) :: inner.documents,
                          next := inner.next }) { s with awaited := [] }

end KnightLang.Host.Shell
