import KnightLang.Host.Regex.Basic
import KnightLang.Text.Decimal

namespace KnightLang.Host.Regex

inductive Fault
  | badPattern
  | openBracket
  | openGroup
  | closedGroup
  | openCount
  | badCount
  | reversedCount
  | badRange
  | badClass
  | badCollation
  | badReference
  | badRepetition
  | lastBackslash
  | tooBig
  | bareClass
  deriving DecidableEq, Repr

def Fault.text : Fault → String
  | badPattern => "Invalid regular expression"
  | openBracket => "Unmatched [, [^, [:, [., or [="
  | openGroup => "Unmatched ( or \\("
  | closedGroup => "Unmatched ) or \\)"
  | openCount => "Unmatched \\\x7b"
  | badCount | reversedCount => "Invalid content of \\\x7b\\\x7d"
  | badRange => "Invalid range end"
  | badClass => "Invalid character class name"
  | badCollation => "Invalid collation character"
  | badReference => "Invalid back reference"
  | badRepetition => "Invalid preceding regular expression"
  | lastBackslash => "Trailing backslash"
  | tooBig => "Regular expression too big"
  | bareClass => "character class syntax is [[:space:]], not [:space:]"

structure Dialect where
  extended : Bool := false
  strict : Bool := false
  emptyRanges : Bool := false
  guarded : Bool := false
  digits : Bool := false

inductive Mark
  | char (c : Char)
  | any
  | openGroup
  | closeGroup
  | bar
  | times (c : Char)
  | openCount
  | openBracket
  | edge (e : Edge)
  | kind (negated : Bool) (choices : List CharChoice)
  | reference (n : Nat)

structure Reading where
  rest : List Char
  opened : Nat := 0
  closed : List Nat := []
  warnings : List String := []

abbrev Reader : Type → Type := StateT Reading (Except Fault)

def markOf (d : Dialect) (first : Bool) : List Char → Except Fault (Option (Mark × List Char))
  | [] => .ok none
  | '\\' :: [] => .error .lastBackslash
  | '\\' :: c :: rest =>
    let found (m : Mark) : Except Fault (Option (Mark × List Char)) := .ok (some (m, rest))
    let basic (m : Mark) := found (if d.extended then .char c else m)
    match c with
    | '(' => basic .openGroup
    | ')' => basic .closeGroup
    | '{' => basic .openCount
    | '|' => basic .bar
    | '+' | '?' => basic (.times c)
    | '<' => found (.edge .wordStart)
    | '>' => found (.edge .wordEnd)
    | 'b' => found (.edge .word)
    | 'B' => found (.edge .noWord)
    | '\x60' => found (.edge .textStart)
    | '\'' => found (.edge .textEnd)
    | 'w' => found (.kind false [.named "alnum", .range '_' '_'])
    | 'W' => found (.kind true [.named "alnum", .range '_' '_'])
    | 's' => found (.kind false [.named "space"])
    | 'S' => found (.kind true [.named "space"])
    | c =>
      if '1' ≤ c && c ≤ '9' then found (.reference (c.toNat - '0'.toNat))
      else if d.digits && (c = 'd' || c = 'D') then found (.kind (c = 'D') [.named "digit"])
      else found (.char c)
  | c :: rest =>
    let found (m : Mark) : Except Fault (Option (Mark × List Char)) := .ok (some (m, rest))
    let extended (m : Mark) := found (if d.extended then m else .char c)
    match c with
    | '.' => found .any
    | '*' => found (.times c)
    | '[' => found .openBracket
    | '(' => extended .openGroup
    | ')' => extended .closeGroup
    | '{' => extended .openCount
    | '|' => extended .bar
    | '+' | '?' => extended (.times c)
    | '^' => found (if d.extended || first then .edge .lineStart else .char c)
    | '$' =>
      let last := match rest with
        | [] | '\\' :: ')' :: _ | '\\' :: '|' :: _ => true
        | _ => false
      found (if d.extended || last then .edge .lineEnd else .char c)
    | c => found (.char c)

/-! ### Brackets -/

inductive BracketPart
  | char (c : Char)
  | named (name : String)
  | equivalent (c : Char)

def readName (delimiter : Char) : List Char → List Char → Except Fault (String × List Char)
  | c :: ']' :: rest, name =>
    if c = delimiter then .ok (String.ofList name.reverse, rest)
    else readName delimiter (']' :: rest) (c :: name)
  | c :: rest, name => readName delimiter rest (c :: name)
  | [], _ => .error .openBracket

def readPart (hyphen : Bool) : List Char → Except Fault (BracketPart × List Char)
  | '[' :: ':' :: rest => do
    let (name, rest) ← readName ':' rest []
    if CharClass.names.contains name then return (.named name, rest) else throw .badClass
  | '[' :: '=' :: rest => do
    let (name, rest) ← readName '=' rest []
    match name.toList with
    | [c] => return (.equivalent c, rest)
    | _ => throw .badCollation
  | '[' :: '.' :: rest => do
    let (name, rest) ← readName '.' rest []
    match name.toList with
    | [c] => return (.char c, rest)
    | _ => throw .badCollation
  | '-' :: rest => if hyphen || rest.head? = some ']' then .ok (.char '-', rest) else .error .badRange
  | c :: rest => .ok (.char c, rest)
  | [] => .error .openBracket

def readParts (d : Dialect) : Nat → Bool → List CharChoice → List Char →
    Except Fault (List CharChoice × List Char)
  | 0, _, _, _ => .error .openBracket
  | fuel + 1, first, found, cs => do
    let (part, rest) ← readPart first cs
    let go (choice : List CharChoice) (rest : List Char) : Except Fault (List CharChoice × List Char) :=
      match rest with
      | [] => .error .openBracket
      | ']' :: rest => .ok (found ++ choice, rest)
      | _ => readParts d fuel false (found ++ choice) rest
    match part, rest with
    | .named name, _ => go [.named name] rest
    | .equivalent c, _ => go [.range c c] rest
    | .char _, '-' :: [] => throw .openBracket
    | .char c, '-' :: ']' :: rest => return (found ++ [.range c c, .range '-' '-'], rest)
    | .char c, '-' :: rest =>
      match ← readPart true rest with
      | (.char last, rest) =>
        if c ≤ last then go [.range c last] rest
        else if d.emptyRanges then go [] rest
        else throw .badRange
      | _ => throw .badRange
    | .char c, _ => go [.range c c] rest

def looksLikeClass (cs : List Char) : Bool :=
  match cs with
  | c :: rest =>
    let inside := rest.takeWhile (· ≠ ']')
    (c = ':' || c = '.' || c = '=') && inside.getLast? = some c && inside.length < rest.length
  | [] => false

def readBrackets (d : Dialect) (cs : List Char) : Except Fault (Regex × List Char) := do
  let (negated, inside) := match cs with
    | '^' :: inside => (true, inside)
    | inside => (false, inside)
  if inside.isEmpty then throw .badPattern
  else if d.guarded && looksLikeClass cs then throw .bareClass
  else
    let (choices, rest) ← readParts d (inside.length + 1) true [] inside
    return (.oneOf negated choices, rest)

/-! ### Counts -/

inductive CountPart
  | nothing
  | number (n : Nat)
  | malformed
  deriving DecidableEq

inductive CountStop
  | atEnd
  | atComma
  | closed
  deriving DecidableEq

def readNumber (d : Dialect) : CountPart → List Char → CountPart × CountStop × List Char
  | _, [] => (.malformed, .atEnd, [])
  | n, ',' :: rest => (n, .atComma, rest)
  | n, '}' :: rest => if d.extended then (n, .closed, rest) else readNumber d .malformed rest
  | n, '\\' :: '}' :: rest => if d.extended then readNumber d .malformed rest else (n, .closed, rest)
  | n, c :: rest =>
    let next : CountPart := match n with
      | .malformed => .malformed
      | .nothing => if c.isDigit then .number (Decimal.value [c]) else .malformed
      | .number n => if c.isDigit then .number (min 32768 (n * 10 + Decimal.value [c])) else .malformed
    readNumber d next rest

def readCount (d : Dialect) (cs : List Char) : Except Fault ((Nat × Option Nat) × List Char) := do
  let (first, stop, rest) := readNumber d .nothing cs
  let checked (least : Nat) (most : Option Nat) (rest : List Char) :
      Except Fault ((Nat × Option Nat) × List Char) :=
    if most.any (· < least) then .error .reversedCount
    else if 32767 < most.getD least then .error .tooBig
    else .ok ((least, most), rest)
  let broken (stop : CountStop) : Fault := if stop = .atEnd then .openCount else .badCount
  match first, stop with
  | .malformed, _ => throw (broken stop)
  | .nothing, .closed => throw .badCount
  | .nothing, .atEnd => throw .openCount
  | .number n, .closed => checked n (some n) rest
  | first, _ =>
    let least := match first with
      | .number n => n
      | _ => 0
    match readNumber d .nothing rest with
    | (.number n, .closed, rest) => checked least (some n) rest
    | (.nothing, .closed, rest) => checked least none rest
    | (_, stop, _) => throw (broken stop)

/-! ### Expressions -/

def readRepetitions (d : Dialect) : Nat → Bool → Regex → Reader Regex
  | 0, _, r => return r
  | fuel + 1, behind, r => do
    let s ← get
    match ← liftM (markOf d false s.rest) with
    | some (.times c, rest) =>
      if behind && c = '*' && d.strict && !d.extended then throw .badRepetition
      else
        set { s with rest }
        readRepetitions d fuel true (match c with
          | '+' => .repeated r 1 none
          | '?' => .repeated r 0 (some 1)
          | _ => .repeated r 0 none)
    | some (.openCount, rest) =>
      if behind && d.strict && !d.extended then throw .badRepetition
      else
        match readCount d rest with
        | .ok ((least, most), rest) =>
          set { s with rest }
          readRepetitions d fuel true (.repeated r least most)
        | .error f =>
          if d.extended && !d.strict && (f = .openCount || f = .badCount) then return r else throw f
    | _ => return r

def joined : Regex → Regex → Regex
  | .empty, b => b
  | a, b => .sequence a b

mutual

def readBranches (d : Dialect) : Nat → Nat → Reader Regex
  | 0, _ => return .empty
  | fuel + 1, depth => do
    let before := (← get).closed
    let branch ← readBranch d fuel depth true .empty
    let s ← get
    match ← liftM (markOf d false s.rest) with
    | some (.bar, rest) =>
      set { s with rest, closed := before }
      let others ← readBranches d fuel depth
      modify fun t => { t with closed := t.closed ++ s.closed }
      return .either branch others
    | _ => return branch

def readBranch (d : Dialect) : Nat → Nat → Bool → Regex → Reader Regex
  | 0, _, _, done => return done
  | fuel + 1, depth, first, done => do
    match ← liftM (markOf d first (← get).rest) with
    | none | some (.bar, _) => return done
    | some (.closeGroup, _) =>
      if depth > 0 then return done
      else
        let r ← readOne d fuel depth first
        readBranch d fuel depth false (joined done r)
    | _ =>
      let r ← readOne d fuel depth first
      readBranch d fuel depth false (joined done r)

/-- Reads one expression and what repeats it. A repetition of nothing is passed over, where it is not a
fault. -/
def readOne (d : Dialect) : Nat → Nat → Bool → Reader Regex
  | 0, _, _ => return .empty
  | fuel + 1, depth, first => do
    let s ← get
    let repeatable (r : Regex) (rest : List Char) : Reader Regex := do
      modify fun s => { s with rest }
      readRepetitions d (rest.length + 1) false r
    match ← liftM (markOf d first s.rest) with
    | none => return .empty
    | some (.char c, rest) => repeatable (.one c) rest
    | some (.any, rest) => repeatable .any rest
    | some (.kind negated choices, rest) => repeatable (.oneOf negated choices) rest
    | some (.edge e, rest) =>
      set { s with rest }
      return .edge e
    | some (.openBracket, rest) =>
      let (r, rest) ← liftM (readBrackets d rest)
      repeatable r rest
    | some (.reference n, rest) =>
      if s.closed.contains n then repeatable (.again n) rest else throw .badReference
    | some (.openGroup, rest) =>
      let n := s.opened + 1
      set { s with rest, opened := n }
      let inside ← readBranches d fuel (depth + 1)
      let t ← get
      match ← liftM (markOf d false t.rest) with
      | some (.closeGroup, rest) =>
        set { t with rest, closed := n :: t.closed }
        repeatable (.group n inside) rest
      | _ => throw .openGroup
    | some (.closeGroup, rest) =>
      if d.extended && !d.strict then repeatable (.one ')') rest else throw .closedGroup
    | some (.bar, _) => return .empty
    | some (.times c, rest) =>
      if !d.extended then repeatable (.one c) rest
      else if d.strict then throw .badRepetition
      else
        let warning := String.singleton c ++ " at start of expression"
        set { s with rest, warnings := s.warnings ++ [warning] }
        readOne d fuel depth first
    | some (.openCount, rest) =>
      if d.strict then throw .badRepetition
      else if !d.extended then repeatable (.one '{') rest
      else
        match readCount d rest with
        | .ok (_, rest) =>
          let warning := "\x7b...\x7d at start of expression"
          set { s with rest, warnings := s.warnings ++ [warning] }
          readOne d fuel depth first
        | .error _ => repeatable (.one '{') rest

end

structure Written where
  regex : Regex
  groups : Nat
  warnings : List String

def read (d : Dialect) (text : String) : Except Fault Written := do
  let cs := text.toList
  let (regex, s) ← (readBranches d (4 * cs.length + 8) 0).run { rest := cs }
  return { regex, groups := s.opened, warnings := s.warnings }

end KnightLang.Host.Regex
