import KnightLang.Host.Regex.Reader
import KnightLang.Host.Shell.Escape

namespace KnightLang.Host.Utility.Edit

structure Pattern where
  regex : Regex
  ignoreCase : Bool := false
  lines : Bool := false

inductive Address
  | line (n : Nat)
  | every (first step : Nat)
  | last
  | pattern (p : Option Pattern)

inductive Stop
  | at (a : Address)
  | after (count : Nat)
  | multiple (n : Nat)

inductive Casing
  | upper
  | lower
  | upperOne
  | lowerOne
  | same
  deriving DecidableEq

inductive Piece
  | text (s : String)
  | group (n : Nat)
  | casing (c : Casing)

structure Substitution where
  pattern : Option Pattern
  pieces : List Piece
  all : Bool := false
  first : Nat := 1
  prints : Bool := false
  target : Option String := none

inductive Action
  | block (past : Nat)
  | close
  | insert (text : String)
  | append (text : String)
  | change (text : String)
  | jump (label : String)
  | jumpIfChanged (label : String)
  | jumpIfSame (label : String)
  | substitute (s : Substitution)
  | map (pairs : List (Char × Char))
  | quit (status : Nat)
  | quitSilently (status : Nat)
  | readFile (path : String)
  | readLine (path : String)
  | write (path : String)
  | writeFirst (path : String)
  | display (width : Option Nat)
  | number
  | delete
  | deleteFirst
  | fileName
  | get
  | getMore
  | hold
  | holdMore
  | next
  | nextMore
  | print
  | printFirst
  | exchange
  | clear

structure Command where
  start : Option Address := none
  stop : Option Stop := none
  negated : Bool := false
  action : Action

structure Script where
  commands : Array Command := #[]
  labels : List (String × Nat) := []
  quiet : Bool := false

/-! ### Reading -/

inductive Origin
  | argument (n : Nat)
  | file (name : String)

structure Reading where
  rest : List Char := []
  used : Nat := 0
  line : Nat := 1
  origin : Origin := .argument 1
  script : Script := {}
  blocks : List Nat := []
  pending : Option Nat := none
  extended : Bool := false

abbrev Reader : Type → Type := StateT Reading (Except String)

def message (s : Reading) (used : Nat) (text : String) : String :=
  match s.origin with
  | .argument n => "-e expression #" ++ Decimal.ofNat n ++ ", char " ++ Decimal.ofNat used ++ ": " ++ text
  | .file name => "file " ++ name ++ " line " ++ Decimal.ofNat s.line ++ ": " ++ text

def fail {α : Type} (text : String) : Reader α := do
  let s ← get
  throw (message s s.used text)

def take : Reader (Option Char) := modifyGet fun s =>
  match s.rest with
  | c :: rest =>
    (some c, { s with rest, used := s.used + 1, line := if c = '\n' then s.line + 1 else s.line })
  | [] => (none, s)

def giveBack (c : Option Char) : Reader Unit := modify fun s =>
  match c with
  | some c =>
    { s with rest := c :: s.rest, used := s.used - 1, line := if c = '\n' then s.line - 1 else s.line }
  | none => s

def takeWhile (f : Char → Bool) : Reader (List Char) := do
  let cs := (← get).rest.takeWhile f
  modify fun s =>
    { s with rest := s.rest.drop cs.length, used := s.used + cs.length, line := s.line + cs.count '\n' }
  return cs

def isBlank (c : Char) : Bool := c = ' ' || c = '\t'

def takeVisible : Reader (Option Char) := do
  let _ ← takeWhile isBlank
  take

def number (c : Char) : Reader Nat := do
  let ds ← takeWhile Char.isDigit
  return Decimal.value (c :: ds)

def endCommand : Reader Unit := do
  match ← takeVisible with
  | some '}' => giveBack (some '}')
  | some '#' => giveBack (some '#')
  | none | some '\n' | some ';' => pure ()
  | some _ => fail "extra characters after command"

/-- Characters that are written as numbers or by letters after a backslash. A character that would have
a meaning in a replacement keeps a backslash there. -/
def decoded (replacement : Bool) : Nat → List Char → List Char
  | 0, cs => cs
  | _, [] => []
  | fuel + 1, '\\' :: c :: rest =>
    let kept (d : Char) : List Char :=
      if replacement && (d = '&' || d = '\\') then ['\\', d] else [d]
    let ofDigits (base count : Nat) (isDigit : Char → Bool) : List Char :=
      let ds := (rest.take count).takeWhile isDigit
      let value (d : Char) : Nat :=
        if d.isDigit then d.toNat - 48 else (d.toLower.toNat - 97) + 10
      if ds.isEmpty then '\\' :: c :: decoded replacement fuel rest
      else
        kept (Char.ofNat (ds.foldl (fun n d => n * base + value d) 0 % 256)) ++
          decoded replacement fuel (rest.drop ds.length)
    match c with
    | 'a' => '\x07' :: decoded replacement fuel rest
    | 'f' => '\x0c' :: decoded replacement fuel rest
    | 'n' => if replacement then '\n' :: decoded replacement fuel rest
      else '\\' :: 'n' :: decoded replacement fuel rest
    | 'r' => '\r' :: decoded replacement fuel rest
    | 't' => '\t' :: decoded replacement fuel rest
    | 'v' => '\x0b' :: decoded replacement fuel rest
    | 'c' =>
      match rest with
      | d :: rest => Char.ofNat (d.toUpper.toNat ^^^ 0x40) :: decoded replacement fuel rest
      | [] => ['\\', 'c']
    | 'd' => ofDigits 10 3 Char.isDigit
    | 'o' => ofDigits 8 3 Shell.Escape.isOctal
    | 'x' => ofDigits 16 2 (CharClass.holds "xdigit")
    | c => '\\' :: c :: decoded replacement fuel rest
  | fuel + 1, c :: rest => c :: decoded replacement fuel rest

structure Delimited where
  text : List Char
  closed : Bool
  rest : List Char

inductive Brackets
  | outside
  | opened
  | inside
  | named (mark : Char)
  deriving DecidableEq

def delimited (regex : Bool) (slash : Char) : Nat → Brackets → List Char → List Char → Delimited
  | 0, _, done, cs => ⟨done.reverse, false, cs⟩
  | _, _, done, [] => ⟨done.reverse, false, []⟩
  | fuel + 1, place, done, c :: rest =>
    let go := delimited regex slash fuel
    if c = '\n' && regex then ⟨done.reverse, false, c :: rest⟩
    else
      match place with
      | .outside =>
        if c = slash then ⟨done.reverse, true, rest⟩
        else
          match c, rest with
          | '\\', [] => ⟨done.reverse, false, []⟩
          | '\\', d :: rest =>
            if d = slash && (regex || d ≠ '&') then go .outside (d :: done) rest
            else if d = 'n' && regex then go .outside ('\n' :: done) rest
            else if d = '\n' then
              -- A line end in a replacement stands for itself.
              go .outside (d :: done) rest
            else go .outside (d :: '\\' :: done) rest
          | '[', _ => if regex then go .opened (c :: done) rest else go .outside (c :: done) rest
          | _, _ =>
            if c = '\n' then ⟨done.reverse, false, c :: rest⟩ else go .outside (c :: done) rest
      | .opened =>
        match c, rest with
        | '^', ']' :: rest => go .inside (']' :: '^' :: done) rest
        | '^', _ => go .inside (c :: done) rest
        | ']', _ => go .inside (c :: done) rest
        | _, _ => inner go done c rest
      | .inside => if c = ']' then go .outside (c :: done) rest else inner go done c rest
      | .named mark =>
        match c, rest with
        | _, ']' :: rest =>
          if c = mark then go .inside (']' :: c :: done) rest
          else go (.named mark) (c :: done) (']' :: rest)
        | _, _ => go (.named mark) (c :: done) rest
where
  inner (go : Brackets → List Char → List Char → Delimited) (done : List Char) (c : Char)
      (rest : List Char) : Delimited :=
    match c, rest with
    | '[', m :: rest =>
      if m = ':' || m = '.' || m = '=' then go (.named m) (m :: '[' :: done) rest
      else go .inside ('[' :: done) (m :: rest)
    | '\\', 'n' :: rest => go .inside ('\n' :: done) rest
    | c, rest => go .inside (c :: done) rest

def takeDelimited (regex : Bool) (slash : Char) (reason : String) : Reader (List Char) := do
  let s ← get
  let d := delimited regex slash (s.rest.length + 1) .outside [] s.rest
  let count := s.rest.length - d.rest.length
  let lines := (s.rest.take count).count '\n'
  set { s with rest := d.rest, used := s.used + count, line := s.line + lines }
  if d.closed then return d.text else fail reason

structure Flags where
  ignoreCase : Bool := false
  lines : Bool := false

def compiled (text : List Char) (flags : Flags) (needed : Nat) : Reader (Option Pattern) := do
  if text.isEmpty then return none
  else
    let source := String.ofList (decoded false (text.length + 1) text)
    match Regex.read { extended := (← get).extended, strict := true } source with
    | .error f => fail f.text
    | .ok w =>
      if w.groups < needed then
        fail ("invalid reference \\" ++ Decimal.ofNat needed ++ " on \x60s' command's RHS")
      else
        return some { regex := w.regex, ignoreCase := flags.ignoreCase, lines := flags.lines }

/-! ### Addresses -/

def addressFlags : Nat → Flags → Reader Flags
  | 0, f => return f
  | fuel + 1, f => do
    match ← takeVisible with
    | some 'I' => addressFlags fuel { f with ignoreCase := true }
    | some 'M' => addressFlags fuel { f with lines := true }
    | c =>
      giveBack c
      return f

def addressFrom (c : Char) : Reader (Option Stop) := do
  if c = '/' || c = '\\' then
    let unterminated := "unterminated address regex"
    let slash ← if c = '/' then pure c else do
      match ← take with
      | some d => pure d
      | none => fail unterminated
    let text ← takeDelimited true slash unterminated
    let flags ← addressFlags 10 {}
    return some (.at (.pattern (← compiled text flags 0)))
  else if c.isDigit then
    let n ← number c
    match ← takeVisible with
    | some '~' =>
      match ← takeVisible with
      | some d =>
        if d.isDigit then
          let step ← number d
          return some (.at (if step = 0 then .line n else .every n step))
        else
          giveBack (some d)
          return some (.at (.line n))
      | none => return some (.at (.line n))
    | d =>
      giveBack d
      return some (.at (.line n))
  else if c = '+' || c = '~' then
    match ← takeVisible with
    | some d =>
      if d.isDigit then
        let n ← number d
        return some (if c = '+' then .after n else .multiple n)
      else
        giveBack (some d)
        return some (if c = '+' then .after 0 else .multiple 0)
    | none => return some (if c = '+' then .after 0 else .multiple 0)
  else if c = '$' then return some (.at .last)
  else return none

/-! ### Commands -/

def add (c : Command) : Reader Nat := modifyGet fun s =>
  (s.script.commands.size,
    { s with script := { s.script with commands := s.script.commands.push c } })

def setAction (i : Nat) (a : Action) : Reader Unit := modify fun s =>
  { s with script := { s.script with
      commands := s.script.commands.modify i fun c => { c with action := a } } }

def textLines : Nat → List Char → Reader (List Char)
  | 0, done => return done.reverse
  | fuel + 1, done => do
    match ← take with
    | none | some '\n' => return done.reverse
    | some '\\' =>
      match ← take with
      | none => return done.reverse
      | some c => textLines fuel (c :: '\\' :: done)
    | some c => textLines fuel (c :: done)

def withoutBackslashes : List Char → List Char
  | '\\' :: c :: rest => c :: withoutBackslashes rest
  | c :: rest => c :: withoutBackslashes rest
  | [] => []

def takeText : Reader String := do
  let raw ← textLines ((← get).rest.length + 1) []
  let text := decoded true (raw.length + 1) raw
  return String.ofList (withoutBackslashes text) ++ "\n"

def withText (a : Action) (text : String) : Action :=
  match a with
  | .insert old => .insert (old ++ text)
  | .append old => .append (old ++ text)
  | .change old => .change (old ++ text)
  | a => a

def readText (i : Nat) (a : Action) : Reader Unit := do
  match ← takeVisible with
  | none => fail "expected \\ after \x60a', \x60c' or \x60i'"
  | some '\\' =>
    match ← take with
    | none => modify fun s => { s with pending := some i }
    | some '\n' => setAction i (withText a (← takeText))
    | some c =>
      giveBack (some c)
      setAction i (withText a (← takeText))
  | some c =>
    giveBack (some c)
    setAction i (withText a (← takeText))

def takeFileName : Reader String := do
  let _ ← takeWhile isBlank
  let name ← takeWhile (· ≠ '\n')
  if name.isEmpty then fail "missing filename in r/R/w/W commands" else return String.ofList name

def takeLabel : Reader String := do
  let _ ← takeWhile isBlank
  let label ← takeWhile fun c => !CharClass.isSpace c && c ≠ ';' && c ≠ '}'
  return String.ofList label

def pieces : Nat → List Char → List Char → List Piece
  | 0, done, _ | _, done, [] => text done
  | fuel + 1, done, c :: rest =>
    let special (p : Piece) (rest : List Char) : List Piece := text done ++ p :: pieces fuel [] rest
    match c, rest with
    | '\\', d :: rest =>
      match d with
      | 'L' => special (.casing .lower) rest
      | 'U' => special (.casing .upper) rest
      | 'E' => special (.casing .same) rest
      | 'l' => special (.casing .lowerOne) rest
      | 'u' => special (.casing .upperOne) rest
      | d =>
        if d.isDigit then special (.group (Decimal.value [d])) rest else pieces fuel (d :: done) rest
    | '&', rest => special (.group 0) rest
    | c, rest => pieces fuel (c :: done) rest
where
  text (done : List Char) : List Piece :=
    if done.isEmpty then [] else [.text (String.ofList done.reverse)]

def substitutionFlags : Nat → Substitution → Option Nat → Flags → Reader (Substitution × Flags)
  | 0, s, _, f => return (s, f)
  | fuel + 1, s, count, f => do
    match ← take with
    | some ' ' => substitutionFlags fuel s count f
    | some 'i' | some 'I' => substitutionFlags fuel s count { f with ignoreCase := true }
    | some 'm' | some 'M' => substitutionFlags fuel s count { f with lines := true }
    | some 'p' =>
      if s.prints then fail "multiple \x60p' options to \x60s' command"
      else substitutionFlags fuel { s with prints := true } count f
    | some 'g' =>
      if s.all then fail "multiple \x60g' options to \x60s' command"
      else substitutionFlags fuel { s with all := true } count f
    | some 'w' => return ({ s with target := some (← takeFileName) }, f)
    | some '}' =>
      giveBack (some '}')
      return (s, f)
    | some '#' =>
      giveBack (some '#')
      return (s, f)
    | none | some '\n' | some ';' => return (s, f)
    | some c =>
      if c.isDigit then
        if count.isSome then fail "multiple number options to \x60s' command"
        else
          let n ← number c
          if n = 0 then fail "number option to \x60s' command may not be zero"
          else substitutionFlags fuel { s with first := n } (some n) f
      else fail "unknown option to \x60s'"

def readSubstitution : Reader Action := do
  let unterminated := "unterminated \x60s' command"
  match ← take with
  | none => fail unterminated
  | some slash =>
    let source ← takeDelimited true slash unterminated
    let target ← takeDelimited false slash unterminated
    let target := decoded true (target.length + 1) target
    let parts := pieces (target.length + 1) [] target
    let needed := parts.foldl (fun n p => match p with
      | .group i => max n i
      | _ => n) 0
    let (s, flags) ← substitutionFlags ((← get).rest.length + 1) { pattern := none, pieces := parts } none {}
    return .substitute { s with pattern := ← compiled source flags needed }

def mapped : List Char → List Char
  | '\\' :: 'n' :: rest => '\n' :: mapped rest
  | '\\' :: c :: rest => c :: mapped rest
  | c :: rest => c :: mapped rest
  | [] => []

def readMapping : Reader Action := do
  let unterminated := "unterminated \x60y' command"
  match ← take with
  | none => fail unterminated
  | some slash =>
    let source ← takeDelimited false slash unterminated
    let target ← takeDelimited false slash unterminated
    let source := mapped (decoded false (source.length + 1) source)
    let target := mapped (decoded false (target.length + 1) target)
    if source.length ≠ target.length then fail "strings for \x60y' command are different lengths"
    else
      endCommand
      return .map (source.zip target)

def optionalNumber : Reader (Option Nat) := do
  match ← takeVisible with
  | some c =>
    if c.isDigit then some <$> number c
    else
      giveBack (some c)
      return none
  | none => return none

def plainAction? : Char → Option Action
  | '=' => some .number
  | 'd' => some .delete
  | 'D' => some .deleteFirst
  | 'F' => some .fileName
  | 'g' => some .get
  | 'G' => some .getMore
  | 'h' => some .hold
  | 'H' => some .holdMore
  | 'n' => some .next
  | 'N' => some .nextMore
  | 'p' => some .print
  | 'P' => some .printFirst
  | 'x' => some .exchange
  | 'z' => some .clear
  | _ => none

def readAction (start : Option Address) (stop : Option Stop) (negated : Bool) (c : Char) : Reader Unit := do
  let command (a : Action) : Command := { start, stop, negated, action := a }
  let plain (a : Action) : Reader Unit := do
    let _ ← add (command a)
  let once : Reader Unit := if stop.isSome then fail "command only uses one address" else pure ()
  let inserting (a : Action) : Reader Unit := do readText (← add (command a)) a
  match c with
  | '#' =>
    if start.isSome then fail "comments don't accept any addresses"
    else
      let cs ← takeWhile (· ≠ '\n')
      let s ← get
      let first := match s.origin with
        | .argument 1 => s.used = cs.length + 1
        | .argument _ => false
        | .file _ => s.line = 1
      if cs.head? = some 'n' && first then modify fun s => { s with script := { s.script with quiet := true } }
  | 'v' =>
    let _ ← takeLabel
  | '{' =>
    let i ← add (command (.block 0))
    modify fun s => { s with blocks := i :: s.blocks }
  | '}' =>
    match (← get).blocks with
    | [] => fail "unexpected \x60\x7d'"
    | i :: blocks =>
      if start.isSome then fail "\x7d doesn't want any addresses"
      else
        endCommand
        modify fun s => { s with blocks }
        setAction i (.block (← get).script.commands.size)
  | 'a' => inserting (.append "")
  | 'i' => inserting (.insert "")
  | 'c' => inserting (.change "")
  | ':' =>
    if start.isSome then fail ": doesn't want any addresses"
    else
      let label ← takeLabel
      if label.isEmpty then fail "\":\" lacks a label"
      else
        modify fun s => { s with script := { s.script with
          labels := s.script.labels ++ [(label, s.script.commands.size)] } }
  | 'b' => plain (.jump (← takeLabel))
  | 't' => plain (.jumpIfChanged (← takeLabel))
  | 'T' => plain (.jumpIfSame (← takeLabel))
  | 'q' | 'Q' =>
    once
    let n ← optionalNumber
    endCommand
    plain (if c = 'q' then .quit (n.getD 0) else .quitSilently (n.getD 0))
  | 'l' =>
    let n ← optionalNumber
    endCommand
    plain (.display n)
  | 'r' => plain (.readFile (← takeFileName))
  | 'R' => plain (.readLine (← takeFileName))
  | 'w' => plain (.write (← takeFileName))
  | 'W' => plain (.writeFirst (← takeFileName))
  | 's' => plain (← readSubstitution)
  | 'y' => plain (← readMapping)
  | c =>
    match plainAction? c with
    | some a =>
      endCommand
      plain a
    | none => fail ("unknown command: \x60" ++ String.singleton c ++ "'")

def readCommand (c : Char) : Reader Unit := do
  let first ← addressFrom c
  let (start, next) ← match first with
    | none => pure (none, some c)
    | some (.at a) => pure (some a, ← takeVisible)
    | some _ => fail "invalid usage of +N or ~N as first address"
  let (stop, next) ←
    if start.isSome && next = some ',' then do
      let stop ← match ← takeVisible with
        | some d => addressFrom d
        | none => pure none
      match stop with
      | none => fail "unexpected \x60,'"
      | some stop => pure (some stop, ← takeVisible)
    else pure (none, next)
  match start, stop with
  | some (.line 0), some (.at (.pattern _)) => pure ()
  | some (.line 0), _ => fail "invalid usage of line address 0"
  | _, _ => pure ()
  let (negated, next) ←
    if next = some '!' then do
      let next ← takeVisible
      if next = some '!' then fail "multiple \x60!'s" else pure (true, next)
    else pure (false, next)
  match next with
  | none => fail "missing command"
  | some c => readAction start stop negated c

def readCommands : Nat → Reader Unit
  | 0 => pure ()
  | fuel + 1 => do
    let _ ← takeWhile fun c => CharClass.isSpace c || c = ';'
    match ← take with
    | none => pure ()
    | some c =>
      readCommand c
      readCommands fuel

def readPart (origin : Origin) (text : String) : Reader Unit := do
  modify fun s => { s with rest := text.toList, used := 0, line := 1, origin }
  match (← get).pending with
  | some i =>
    modify fun s => { s with pending := none }
    if let some c := (← get).script.commands[i]? then setAction i (withText c.action (← takeText))
  | none => pure ()
  readCommands (text.length + 1)

def finishScript : Reader Script := do
  let s ← get
  if s.blocks.isEmpty then return s.script
  else throw (message s 0 "unmatched \x60\x7b'")

def read (extended : Bool) (parts : List (Origin × String)) : Except String Script := do
  let x : Reader Script := do
    for (origin, text) in parts do readPart origin text
    finishScript
  return (← x.run { extended }).1

def Script.missingLabel? (s : Script) : Option String :=
  s.commands.toList.findSome? fun c =>
    match c.action with
    | .jump l | .jumpIfChanged l | .jumpIfSame l =>
      if l.isEmpty || (s.labels.lookup l).isSome then none else some l
    | _ => none

end KnightLang.Host.Utility.Edit
