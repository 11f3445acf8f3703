import KnightLang.Host.Shell.Arithmetic
import KnightLang.Host.Shell.Glyph
import KnightLang.Host.Shell.State

namespace KnightLang.Host.Shell

structure Manner where
  splits : Bool := false
  lists : Bool := false
  tildes : Bool := true

namespace Run

def allArguments (m : Manner) (apart quoted : Bool) : Run (Array Glyph) := do
  let arguments := (← shell).arguments
  let separators ← value? "IFS"
  if quoted && apart && m.splits then
    let groups := arguments.map fun a => #[Glyph.quote] ++ Glyph.ofText .fixed a
    return (groups.intersperse #[.border]).foldl (· ++ ·) #[]
  else
    let glyph := if quoted then Glyph.fixed else Glyph.value
    let between : Array Glyph :=
      if !quoted && m.splits then #[.value (if separators.isNone then ' ' else '\x00')]
      else
        match separators with
        | none => #[glyph ' ']
        | some s => (s.toList.head?.map glyph).toArray
    return ((arguments.map (Glyph.ofText glyph)).intersperse between).foldl (· ++ ·) #[.edge]

def optionLetters : Run String := do
  let set := (← shell).options
  return String.ofList ("ubaCEVvxsnmiIfe".toList.filter set.contains)

def parameter? (name : String) : Run (Option String) := do
  let s ← shell
  match name with
  | "?" => return some (Decimal.ofNat s.status)
  | "$" => return some (Decimal.ofNat s.root)
  | "#" => return some (Decimal.ofNat s.arguments.length)
  | "!" => return s.background.map Decimal.ofNat
  | "-" => return some (← optionLetters)
  | _ =>
    match name.toNat? with
    | some 0 => return some s.name
    | some n => return s.arguments[n - 1]?
    | none => value? name

def home? (user : String) : Run (Option String) := do
  match user with
  | "" => value? "HOME"
  | "root" => return some "/root"
  | _ => return none

def bareText (m : Manner) (first last : Bool) (s : String) : Run (Array Glyph) := do
  go (s.length + 1) first s.toList #[]
where
  go : Nat → Bool → List Char → Array Glyph → Run (Array Glyph)
    | 0, _, _, gs => return gs
    | _, _, [], gs => return gs
    | fuel + 1, atStart, '~' :: rest, gs => do
      let ends (c : Char) : Bool := c = '/' || (m.lists && c = ':')
      let user := rest.takeWhile (!ends ·)
      let after := rest.dropWhile (!ends ·)
      if m.tildes && atStart && (last || !after.isEmpty) then
        match ← home? (String.ofList user) with
        | some path => go fuel false after (gs ++ #[.quote] ++ Glyph.ofText .fixed path)
        | none => go fuel false rest (gs.push (.bare '~'))
      else go fuel false rest (gs.push (.bare '~'))
    | fuel + 1, _, c :: rest, gs => go fuel (m.lists && c = ':') rest (gs.push (.bare c))

/-- What is left of a value after the shortest or longest part that matches is cut off. Where the value
is made of several arguments, with zeros between them, a part ends with its argument, and what is looked
for from the left is only looked for in the first one. What is looked for from the right is too if
`aligned` is set, and its place is then counted from the end of the value. -/
def trimmed (aligned atEnd longest : Bool) (ps : List PatternPart) (cs : List Char) : List Char :=
  let argument (cs : List Char) : List Char := cs.takeWhile (· ≠ '\x00')
  let first := (argument cs).length
  let fits (n : Nat) : Bool := Pattern.isMatch ps (argument (if atEnd then cs.drop n else cs.take n))
  let cut :=
    if atEnd = longest then (List.range (first + 1)).find? fits
    else if aligned then
      ((List.range (first + 1)).reverse.find? fits).map (· + (cs.length - first))
    else (List.range (cs.length + 1)).reverse.find? fits
  match cut with
  | some n => if atEnd then cs.take n else cs.drop n
  | none => cs

def isMarked (c : Char) : Bool := "!*?[=~:/-]\\".contains c

def trimGlyphs (atEnd longest : Bool) (ps : List PatternPart) (gs : Array Glyph) : Array Glyph :=
  let shown := gs.toList.filter fun g => g.char?.isSome
  let cs := shown.filterMap (·.char?)
  let aligned := shown.any (fun g => g matches .border) &&
    (cs.takeWhile (· ≠ '\x00')).any isMarked
  let left := (trimmed aligned atEnd longest ps cs).length
  let kept := if atEnd then shown.take left else shown.drop (cs.length - left)
  let quotes : List Glyph := if gs.contains .quote then [.quote] else []
  let kept := kept.flatMap fun g => if g = .border then g :: quotes else [g]
  (Glyph.edge :: quotes ++ kept).toArray

def computed (text : String) : Run String := do
  let values := (← shell).bindings
  match Arithmetic.evaluate (fun name => ((values.lookup name).bind (·.value)).getD "") text with
  | .ok (n, assigned) =>
    for (name, value) in assigned do
      assign name (Decimal.ofInt value.toInt)
    return Decimal.ofInt n.toInt
  | .error (.expecting what) =>
    fail ("arithmetic expression: expecting " ++ what ++ ": \"" ++ text ++ "\"")
  | .error .divisionByZero =>
    fail ("arithmetic expression: division by zero: \"" ++ text ++ "\"")
  | .error (.illegalNumber text) => illegalNumber text
  | .error .overflow => throw (.halt (.killed 8))

def asValue (printed : String) : String :=
  let cs := printed.toList.filter (· ≠ '\x00')
  String.ofList (cs.reverse.dropWhile (· = '\n')).reverse

def parameter (inner : Manner → Word → Run (Array Glyph)) (m : Manner) (name : String)
    (modifier : Modifier) (word : Word) (quoted : Bool) : Run (Array Glyph) := do
  if modifier = .bad then fail "Bad substitution"
  let several := name = "@" || name = "*"
  let shown : Option (Array Glyph) ←
    if several then some <$> allArguments m (name = "@") quoted
    else
      pure ((← parameter? name).map fun value =>
        #[.edge] ++ Glyph.ofText (if quoted then .fixed else .value) value)
  let isEmpty := match shown with
    | some gs => (Glyph.text gs).isEmpty
    | none => true
  let present (orEmpty : Bool) : Bool := shown.isSome && !(orEmpty && isEmpty)
  let needed : Run (Array Glyph) := do
    match shown with
    | some gs => return gs
    | none => if (← option 'u') then fail (name ++ ": parameter not set") else return #[.edge]
  let other : Run (Array Glyph) := do
    let gs ← inner { m with lists := false, tildes := !quoted } word
    if quoted then return gs
    else
      return #[.edge] ++ gs.map fun g => match g with
        | .bare c => .value c
        | g => g
  match modifier with
  | .plain | .bad => needed
  | .length =>
    let count := match ← needed with
      | gs => (Glyph.text gs).length
    return #[.edge] ++ Glyph.ofText (if quoted then .fixed else .value) (Decimal.ofNat count)
  | .default orEmpty => if present orEmpty then needed else other
  | .alternative orEmpty => if present orEmpty then other else return #[.edge]
  | .assign orEmpty =>
    if present orEmpty then needed
    else
      let text := Glyph.text (← inner { tildes := !quoted } word)
      unless isName name do fail (name ++ ": bad variable name")
      assign name text
      return #[.edge] ++ Glyph.ofText (if quoted then .fixed else .value) text
  | .require orEmpty =>
    if present orEmpty then needed
    else
      let text := Glyph.text (← inner { tildes := !quoted } word)
      let reason :=
        if word.isEmpty then "parameter not set" ++ (if orEmpty then " or null" else "") else text
      fail (name ++ ": " ++ reason)
  | .trim atEnd longest =>
    let gs ← needed
    if shown.isNone then return gs
    let ps := Glyph.pattern (← inner { tildes := true } word)
    return trimGlyphs atEnd longest ps gs

def expand (substitute : Command → Run String) : Nat → Manner → Word → Run (Array Glyph)
  | 0, _, _ => throw (.halt .endless)
  | fuel + 1, m, w =>
    match w with
    | [.quote, .parameter "@" .plain [] true, .quote] => allArguments m true true
    | w => do
      let mut gs : Array Glyph := #[]
      let mut left := w.length
      for p in w do
        left := left - 1
        match p with
        | .quote => gs := gs.push .quote
        | .text s true => gs := gs ++ Glyph.ofText .fixed s
        | .text s false =>
          gs := gs ++ (← bareText m gs.isEmpty (left = 0) s)
        | .arithmetic e quoted =>
          let text := Glyph.text (← expand substitute fuel { tildes := false } e)
          let glyph := if quoted then Glyph.fixed else .value
          gs := gs.push .edge ++ Glyph.ofText glyph (← computed text)
        | .printed c quoted =>
          let value := asValue (← substitute c)
          gs := gs.push .edge ++ Glyph.ofText (if quoted then .fixed else .value) value
        | .parameter name modifier word quoted =>
          gs := gs ++ (← parameter (expand substitute fuel) m name modifier word quoted)
      return gs

def depth : Nat := 1000

def fields (substitute : Command → Run String) (w : Word) : Run (List String) := do
  let gs ← expand substitute depth { splits := true } w
  let found := Glyph.fields (← separators) gs
  if ← option 'f' then return found.map Glyph.text
  else
    let files := (← world).files
    let here := (← shell).process.directory
    return found.flatMap (Glyph.expanded files here)

def text (substitute : Command → Run String) (m : Manner) (w : Word) : Run String :=
  Glyph.text <$> expand substitute depth m w

def assignmentText (substitute : Command → Run String) (name : String) (value : Word) : Run String := do
  return name ++ "=" ++ (← text substitute { lists := true } value)

end Run

end KnightLang.Host.Shell
