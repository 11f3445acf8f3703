import KnightLang.Host.Shell.Scan

namespace KnightLang.Host.Shell

structure Expecting where
  more : Bool := false
  keywords : Bool := false
  aliases : Bool := false

namespace Parser

def fail {α : Type} (message : String) : Parser α := do
  throw ⟨(← get).line, message⟩

def unexpected {α : Type} (t : Token) : Parser α := fail (t.name ++ " unexpected")

def expecting {α : Type} (t : Token) (name : String) : Parser α :=
  fail (t.name ++ " unexpected (expecting " ++ name ++ ")")

def push (t : Token) : Parser Unit := modify fun s => { s with pushed := some t }

def openAlias (name text : String) : Parser Unit := modify fun s =>
  { s with rest := text.toList ++ s.rest, open' := (name, s.rest.length) :: s.open' }

def closeAliases : Parser Unit := modify fun s =>
  if s.open'.isEmpty then s
  else
    let left := s.rest.length
    { s with open' := s.open'.filter fun (_, after) => left > after }

def behindAlias (s : Source) : Bool :=
  let isBlank (c : Char) : Bool := c = ' ' || c = '\t'
  let left := (s.rest.dropWhile isBlank).length
  s.open'.any fun (name, after) =>
    left ≤ after && ((s.aliases.lookup name).bind fun text => text.toList.getLast?).any isBlank

def interpret (e : Expecting) (t : Token) : Parser (Option Token) := do
  match t with
  | .word w =>
    modify fun s => { s with latest := w }
    match plainText? w with
    | none => return some t
    | some text =>
      if e.keywords && keywords.contains text then return some (.keyword text)
      else if e.aliases then
        let s ← get
        if s.aliases.isEmpty then return some t
        else
          match s.aliases.lookup text with
          | some value =>
            if s.open'.any (·.1 = text) then return some t
            else
              openAlias text value
              return none
          | none => return some t
      else return some t
  | t => return some t

def documents (script : Parser Command) : Parser Unit := fun s => do
  return ((), ← readDocuments script s)

def next (script : Parser Command) (e : Expecting) : Parser Token := do
  let fuel := (← get).rest.length + (← get).aliases.foldl (fun n a => n + a.2.length) 0 + 2
  go fuel
where
  go : Nat → Parser Token
    | 0 => fail "script too long"
    | fuel + 1 => do
      let s ← get
      let (t, aliases) ←
        match s.pushed with
        | some t =>
          set { s with pushed := none }
          pure (t, false)
        | none =>
          closeAliases
          let aliases := !s.open'.isEmpty && behindAlias (← get)
          let t ← fun s => readToken script (s.rest.length + 1) s
          pure (t, aliases)
      match t with
      | .newline =>
        if e.more then
          documents script
          go fuel
        else return t
      | t =>
        match ← interpret { e with aliases := e.aliases || aliases } t with
        | some t => return t
        | none => go fuel

def endsList : Token → Bool
  | .endOfFile => true
  | .symbol s => s = ")" || s = ";;"
  | .keyword s => ["do", "done", "elif", "else", "esac", "fi", "then", "\x7d"].contains s
  | _ => false

def redirection (script : Parser Command) (channel : Option Nat) (op : String) : Parser Redirection := do
  match op with
  | "<<" | "<<-" =>
    let s ← get
    let start := s.rest.dropWhile fun c => c = ' ' || c = '\t'
    match start.head? with
    | none => unexpected .endOfFile
    | some c =>
      if endsWord c || c = '#' then unexpected (← next script {})
      else
        match readDelimiter (start.length + 1) [] false start with
        | none =>
          set (s.past start [])
          fail "Unterminated quoted string"
        | some ((delimiter, literal), rest) =>
          let a : Awaited := ⟨s.next, delimiter, op = "<<-", literal⟩
          let line := s.line + (Source.newlines start - Source.newlines rest)
          set { s with rest, line, awaited := s.awaited ++ [a], next := s.next + 1 }
          return .document (channel.getD 0) s.next
  | _ =>
    match ← next script {} with
    | .word w =>
      let file (n : Nat) (d : Direction) : Parser Redirection := return .file (channel.getD n) d w
      match op with
      | ">" => file 1 .output
      | ">>" => file 1 .append
      | ">|" => file 1 .overwrite
      | "<" => file 0 .input
      | "<>" => file 0 .update
      | "<&" => return .copy (channel.getD 0) w
      | _ => return .copy (channel.getD 1) w
    | t => unexpected t

def start : Expecting := { more := true, keywords := true, aliases := true }

def onLine : Expecting := { keywords := true, aliases := true }

def redirections (script : Parser Command) : Nat → Parser (List Redirection)
  | 0 => fail "script too long"
  | fuel + 1 => do
    match ← next script onLine with
    | .redirection channel op =>
      let r ← redirection script channel op
      return r :: (← redirections script fuel)
    | t =>
      push t
      return []

def words (script : Parser Command) : Nat → Parser (List Word)
  | 0 => fail "script too long"
  | fuel + 1 => do
    match ← next script {} with
    | .word w => return w :: (← words script fuel)
    | .newline => do
      documents script
      return []
    | .symbol ";" => return []
    | t => unexpected t

def specialCommands : List String :=
  [".", ":", "break", "continue", "eval", "exec", "exit", "export", "readonly", "return", "set",
    "shift", "times", "trap", "unset"]

structure Simple where
  assignments : List Word := []
  words : List Word := []
  redirections : List Redirection := []

def simpleParts (script : Parser Command) : Nat → Simple → Parser (Simple ⊕ String)
  | 0, _ => fail "script too long"
  | fuel + 1, found => do
    match ← next script { aliases := found.words.isEmpty } with
    | .word w =>
      match found.words, assignment? w with
      | [], some _ => simpleParts script fuel { found with assignments := w :: found.assignments }
      | words, _ => simpleParts script fuel { found with words := w :: words }
    | .redirection channel op =>
      let r ← redirection script channel op
      simpleParts script fuel { found with redirections := r :: found.redirections }
    | .symbol "(" =>
      match found with
      | ⟨[], [w], []⟩ =>
        match ← next script {} with
        | .symbol ")" =>
          match plainText? w with
          | some name =>
            if isName name && !specialCommands.contains name then return .inr name
            else fail "Bad function name"
          | none => fail "Bad function name"
        | t => expecting t "\")\""
      | _ =>
        push (.symbol "(")
        return .inl found
    | t =>
      push t
      return .inl found

def patternOf : Token → Parser Word
  | .word w => return w
  | .keyword s => return [.text s false]
  | _ => return (← get).latest

mutual

def list (wide : Bool) (empty : Bool) : Nat → Parser Command
  | 0 => fail "script nested too deeply"
  | fuel + 1 => listFrom wide fuel (if empty then some .nothing else none)

def listFrom (wide : Bool) : Nat → Option Command → Parser Command
  | 0, _ => fail "script nested too deeply"
  | fuel + 1, before => do
    let script := list true true fuel
    let e := if wide then start else onLine
    let t ← next script e
    match t with
    | .newline =>
      documents script
      return before.getD .nothing
    | .endOfFile =>
      documents script
      push .endOfFile
      return before.getD .nothing
    | t =>
      push t
      if wide && before.isSome && endsList t then return before.getD .nothing
      else
        let c ← andOr fuel
        let t ← next script onLine
        let background := match t with
          | .symbol "&" => true
          | _ => false
        let line := (← get).line
        let c := if background then .background line c else c
        let whole := match before with
          | none | some .nothing => c
          | some first => .sequence first c
        match t with
        | .symbol "&" | .symbol ";" => listFrom wide fuel (some whole)
        | .newline =>
          push .newline
          listFrom wide fuel (some whole)
        | .endOfFile =>
          documents script
          push .endOfFile
          return whole
        | t =>
          if wide then
            push t
            return whole
          else unexpected t

def andOr : Nat → Parser Command
  | 0 => fail "script nested too deeply"
  | fuel + 1 => do andOrFrom fuel (← pipeline onLine fuel)

def andOrFrom : Nat → Command → Parser Command
  | 0, _ => fail "script nested too deeply"
  | fuel + 1, left => do
    let script := list true true fuel
    match ← next script onLine with
    | .symbol "&&" => andOrFrom fuel (.and left (← pipeline start fuel))
    | .symbol "||" => andOrFrom fuel (.or left (← pipeline start fuel))
    | t =>
      push t
      return left

def pipeline (e : Expecting) : Nat → Parser Command
  | 0 => fail "script nested too deeply"
  | fuel + 1 => do
    let script := list true true fuel
    match ← next script e with
    | .keyword "!" => return .not (← pipelineFrom fuel)
    | t =>
      push t
      pipelineFrom fuel

def pipelineFrom : Nat → Parser Command
  | 0 => fail "script nested too deeply"
  | fuel + 1 => do
    let first ← command onLine fuel
    match ← pipelineRest fuel with
    | [] => return first
    | rest => return .pipeline (first :: rest)

def pipelineRest : Nat → Parser (List Command)
  | 0 => fail "script nested too deeply"
  | fuel + 1 => do
    let script := list true true fuel
    match ← next script onLine with
    | .symbol "|" =>
      let c ← command start fuel
      return c :: (← pipelineRest fuel)
    | t =>
      push t
      return []

def command (e : Expecting) : Nat → Parser Command
  | 0 => fail "script nested too deeply"
  | fuel + 1 => do
    let script := list true true fuel
    let t ← next script e
    let line := (← get).line
    let closed (c : Command) (name : String) : Parser Command := do
      match ← next script onLine with
      | .keyword s => if s = name then return c else expecting (.keyword s) ("\"" ++ name ++ "\"")
      | t => expecting t ("\"" ++ name ++ "\"")
    let redirected (c : Command) : Parser Command := do
      let fuel := (← get).rest.length + 2
      match ← redirections script fuel with
      | [] => return c
      | found => return .redirected line c found
    match t with
    | .keyword "if" =>
      let condition ← list true false fuel
      redirected (← closed (← branches fuel condition) "fi")
    | .keyword "while" => do redirected (← loop true fuel)
    | .keyword "until" => do redirected (← loop false fuel)
    | .keyword "for" => do redirected (← each line fuel)
    | .keyword "case" => do redirected (← choose line fuel)
    | .keyword "\x7b" => do redirected (← closed (← list true false fuel) "\x7d")
    | .symbol "(" =>
      let c ← list true false fuel
      match ← next script onLine with
      | .symbol ")" => return .subshell line c (← redirections script ((← get).rest.length + 2))
      | t => expecting t "\")\""
    | .word _ | .redirection _ _ =>
      push t
      match ← simpleParts script ((← get).rest.length + 2) {} with
      | .inl found =>
        return .simple line found.assignments.reverse found.words.reverse found.redirections.reverse
      | .inr name =>
        let line := (← get).line
        return .define line name (← command start fuel)
    | t => unexpected t

def branches : Nat → Command → Parser Command
  | 0, _ => fail "script nested too deeply"
  | fuel + 1, condition => do
    let script := list true true fuel
    match ← next script onLine with
    | .keyword "then" =>
      let yes ← list true false fuel
      match ← next script onLine with
      | .keyword "elif" =>
        let condition' ← list true false fuel
        return .branch condition yes (← branches fuel condition')
      | .keyword "else" => return .branch condition yes (← list true false fuel)
      | t =>
        push t
        return .branch condition yes .nothing
    | t => expecting t "\"then\""

def loop (whileTrue : Bool) : Nat → Parser Command
  | 0 => fail "script nested too deeply"
  | fuel + 1 => do
    let condition ← list true false fuel
    return .loop whileTrue condition (← doGroup onLine fuel)

def doGroup (e : Expecting) : Nat → Parser Command
  | 0 => fail "script nested too deeply"
  | fuel + 1 => do
    let script := list true true fuel
    match ← next script e with
    | .keyword "do" =>
      let body ← list true false fuel
      match ← next script onLine with
      | .keyword "done" => return body
      | t => expecting t "\"done\""
    | t => expecting t "\"do\""

def each (line : Nat) : Nat → Parser Command
  | 0 => fail "script nested too deeply"
  | fuel + 1 => do
    let script := list true true fuel
    match ← next script {} with
    | .word w =>
      match plainText? w with
      | some name =>
        if !isName name then fail "Bad for loop variable"
        else
          match ← next script start with
          | .keyword "in" =>
            let found ← words script ((← get).rest.length + 2)
            return .each line name found (← doGroup start fuel)
          | t =>
            match t with
            | .symbol ";" => pure ()
            | t => push t
            let all : Word := [.quote, .parameter "@" .plain [] true, .quote]
            return .each line name [all] (← doGroup start fuel)
      | none => fail "Bad for loop variable"
    | _ => fail "Bad for loop variable"

def choose (line : Nat) : Nat → Parser Command
  | 0 => fail "script nested too deeply"
  | fuel + 1 => do
    let script := list true true fuel
    match ← next script {} with
    | .word subject =>
      match ← next script start with
      | .keyword "in" => return .choose line subject (← cases fuel)
      | t => expecting t "\"in\""
    | t => expecting t "word"

def cases : Nat → Parser (List Case)
  | 0 => fail "script nested too deeply"
  | fuel + 1 => do
    let script := list true true fuel
    let patterns (first : Word) : Parser (List Case) := do
      let all ← alternatives first fuel
      let body ← list true true fuel
      match ← next script { more := true, keywords := true } with
      | .keyword "esac" => return [.mk all body]
      | .symbol ";;" => return .mk all body :: (← cases fuel)
      | t => expecting t "\";;\""
    match ← next script { more := true, keywords := true } with
    | .keyword "esac" => return []
    | .symbol "(" => do patterns (← patternOf (← next script {}))
    | t => do patterns (← patternOf t)

def alternatives (first : Word) : Nat → Parser (List Word)
  | 0 => fail "script nested too deeply"
  | fuel + 1 => do
    let script := list true true fuel
    match ← next script {} with
    | .symbol "|" =>
      let w ← patternOf (← next script {})
      return first :: (← alternatives w fuel)
    | .symbol ")" => return [first]
    | t => expecting t "\")\""

end

def line : Parser Command := fun s =>
  list false true (8 * s.rest.length + 64) { s with pushed := none }

end Parser

end KnightLang.Host.Shell
