import KnightLang.Host.Utility.Lines
import KnightLang.Host.Utility.Plain

namespace KnightLang.Host.Utility

open Kernel (Call Work)

def splitEnd (l : String) : String × String :=
  if l.endsWith "\n" then ((l.dropEnd 1).copy, "\n") else (l, "")

def finishLines (call : Call) (paths : List String) (change : List String → List String) : Work Nat := do
  let (texts, good) ← readInputs call true plainFault paths
  finish call (join (change (texts.flatMap fun (_, s) => linesWithEnds s))) (if good then 0 else 1)

/-! ### Numbers of lines -/

def numberLines : Kernel.Program := fun call =>
  let known : Options.Known :=
    { letters := "b:d:f:h:i:l:n:ps:v:w:",
      names := [("body-numbering", 'b'), ("line-increment", 'i'), ("number-format", 'n'),
        ("number-separator", 's'), ("starting-line-number", 'v'), ("number-width", 'w')] }
  withOptions call 1 known fun o => do
    let natOf (c : Char) (n : Nat) : Nat := ((o.last? c).bind (·.toNat?)).getD n
    let width := natOf 'w' 6
    let separator := (o.last? 's').getD "\t"
    let style := (o.last? 'b').getD "t"
    let number (n : Nat) : String :=
      let digits := Decimal.ofNat n
      match o.last? 'n' with
      | some "ln" => alignLeft width digits
      | some "rz" => "".pushn '0' (width - digits.length) ++ digits
      | _ => alignRight width digits
    finishLines call o.operands fun lines =>
      (lines.foldl (fun ((done, n) : Array String × Nat) l =>
        let counts := match style with
          | "a" => true
          | "n" => false
          | _ => l ≠ "\n"
        if counts then (done.push (number n ++ separator ++ l), n + natOf 'i' 1)
        else (done.push ("".pushn ' ' (width + separator.length) ++ l), n)) (#[], natOf 'v' 1)).1.toList

/-! ### Widths -/

def columnAfter (bytes : Bool) (column : Nat) (c : Char) : Nat :=
  if bytes then column + 1
  else if c = '\t' then column + (8 - column % 8)
  else if c = '\x08' then column - 1
  else if c = '\r' then 0
  else column + 1

def foldLine (bytes atBlanks : Bool) (width : Nat) : Nat → List Char → List Char → Nat → String
  | 0, current, _, _ => String.ofList current.reverse
  | _, current, [], _ => String.ofList current.reverse
  | fuel + 1, current, c :: rest, column =>
    if c = '\n' then String.ofList (('\n' :: current).reverse)
    else
      let next := columnAfter bytes column c
      if next ≤ width || current.isEmpty then
        foldLine bytes atBlanks width fuel (c :: current) rest next
      else
        let after := current.takeWhile fun d => d ≠ ' ' && d ≠ '\t'
        if atBlanks && after.length < current.length then
          let start := String.ofList (current.drop after.length).reverse
          let column := after.reverse.foldl (columnAfter bytes) 0
          start ++ "\n" ++ foldLine bytes atBlanks width fuel after (c :: rest) column
        else
          String.ofList current.reverse ++ "\n" ++
            foldLine bytes atBlanks width fuel [] (c :: rest) 0

def fold : Kernel.Program := fun call =>
  let known : Options.Known :=
    { letters := "bsw:0::1::2::3::4::5::6::7::8::9::",
      names := [("bytes", 'b'), ("spaces", 's'), ("width", 'w')] }
  withOptions call 1 known fun o => do
    let given := match o.lastOf? "w0123456789".toList with
      | none => some "80"
      | some 'w' => o.last? 'w'
      | some d => (o.last? d).map fun rest => String.singleton d ++ rest
    match given.bind (·.toNat?) with
    | none =>
      complain call ("invalid number of columns: " ++ quoted (given.getD ""))
      return 1
    | some 0 =>
      complain call ("invalid number of columns: " ++ quoted (given.getD "") ++
        ": Numerical result out of range")
      return 1
    | some width =>
      finishLines call o.operands fun lines => lines.map fun l =>
        foldLine (o.has 'b') (o.has 's') width (4 * l.length + 4) [] l.toList 0

def tabStop (stops : List Nat) (column : Nat) : Nat :=
  match stops with
  | [n] => column + (n - column % n)
  | stops => (stops.find? (column < ·)).getD (column + 1)

def tabStops (o : Options) : List Nat :=
  let given := (o.last? 't').getD "8"
  let stops := ((given.replace "," " ").splitOn " ").filterMap (·.toNat?)
  let stops := stops.filter (0 < ·)
  if stops.isEmpty then [8] else stops

def expandTabs : Kernel.Program := fun call =>
  withOptions call 1 { letters := "it:", names := [("initial", 'i'), ("tabs", 't')] } fun o => do
    let stops := tabStops o
    finishLines call o.operands fun lines => lines.map fun l =>
      (l.foldl (fun ((s, column, start) : String × Nat × Bool) c =>
        if c = '\t' && (start || !o.has 'i') then
          let next := tabStop stops column
          (s.pushn ' ' (next - column), next, start)
        else if c = '\x08' then (s.push c, column - 1, start)
        else (s.push c, column + 1, start && c = ' ')) ("", 0, true)).1

def tabbed (stops : List Nat) : Nat → Nat → Nat → String
  | 0, _, _ => ""
  | fuel + 1, start, stop =>
    let next := tabStop stops start
    if next ≤ stop && (next > start + 1 || next < stop) then "\t" ++ tabbed stops fuel next stop
    else "".pushn ' ' (stop - start)

def collapseBlanks : Kernel.Program := fun call =>
  withOptions call 1 { letters := "at:", names := [("all", 'a'), ("tabs", 't')] } fun o => do
    let stops := tabStops o
    let everywhere := o.has 'a' || o.has 't'
    let flush (s : String) (start column : Nat) : String :=
      if start = column then s else s ++ tabbed stops (column + 1) start column
    finishLines call o.operands fun lines => lines.map fun l =>
      let (s, start, column, _) := l.foldl (fun ((s, start, column, initial) :
          String × Nat × Nat × Bool) c =>
        if (c = ' ' || c = '\t') && (initial || everywhere) then
          (s, start, if c = ' ' then column + 1 else tabStop stops column, initial)
        else
          let s := (flush s start column).push c
          (s, column + 1, column + 1, false)) ("", 0, 0, true)
      flush s start column

/-! ### Side by side -/

def separatorsOf : List Char → List String
  | '\\' :: '0' :: rest => "" :: separatorsOf rest
  | '\\' :: 'n' :: rest => "\n" :: separatorsOf rest
  | '\\' :: 't' :: rest => "\t" :: separatorsOf rest
  | '\\' :: c :: rest => String.singleton c :: separatorsOf rest
  | c :: rest => String.singleton c :: separatorsOf rest
  | [] => []

def interleave (separators : List String) (texts : List String) : String :=
  match texts with
  | [] => ""
  | t :: rest =>
    let n := max 1 separators.length
    rest.zipIdx.foldl (fun s (t, i) => s ++ (separators[i % n]?).getD "" ++ t) t

def paste : Kernel.Program := fun call =>
  let known : Options.Known :=
    { letters := "d:sz", names := [("delimiters", 'd'), ("serial", 's'), ("zero-terminated", 'z')] }
  withOptions call 1 known fun o => do
    let separators := separatorsOf ((o.last? 'd').getD "\t").toList
    let paths := if o.operands.isEmpty then ["-"] else o.operands
    let shared := paths.countP (· = "-")
    let input ← if shared > 0 then Work.readAll 0 true else pure (.ok "")
    let inputLines := linesOf (input.toOption.getD "")
    let mut columns := #[]
    let mut status := 0
    let mut seen := 0
    for path in paths do
      if path = "-" then
        let mine := if o.has 's' then (if seen = 0 then inputLines else [])
          else (inputLines.zipIdx.filter fun (_, i) => i % shared = seen).map (·.1)
        seen := seen + 1
        columns := columns.push mine
      else
        match ← readInput path true with
        | .ok s => columns := columns.push (linesOf s)
        | .error f =>
          complain call (plainFault path f)
          status := 1
          if !o.has 's' then return status
    if o.has 's' then finish call (unlines (columns.toList.map (interleave separators))) status
    else
      let rows := columns.foldl (fun n c => max n c.length) 0
      let tables := columns.toList.map (·.toArray)
      let row (i : Nat) : String := interleave separators (tables.map fun t => (t[i]?).getD "")
      finish call (unlines ((List.range rows).map row)) status

/-! ### Parts of lines -/

structure Range where
  first : Nat
  last : Option Nat

def readRanges (zero : String) (wrong : String → String) (s : String) : Except String (List Range) :=
  let parts := (s.foldl (fun t c => t.push (if c = ' ' || c = '\t' then ',' else c)) "").splitOn ","
  parts.mapM fun part =>
    let isNumber (w : String) : Bool := !w.isEmpty && w.all Char.isDigit
    let value (w : String) : Nat := w.toNat?.getD 0
    match part.splitOn "-" with
    | [w] =>
      if !isNumber w then .error (if w.isEmpty then zero else wrong w)
      else if value w = 0 then .error zero
      else .ok ⟨value w, some (value w)⟩
    | [a, b] =>
      if a.isEmpty && b.isEmpty then .error "invalid range with no endpoint: -"
      else if !(a.isEmpty || isNumber a) then .error (wrong a)
      else if !(b.isEmpty || isNumber b) then .error (wrong b)
      else if isNumber a && value a = 0 || isNumber b && value b = 0 then .error zero
      else
        let first := if a.isEmpty then 1 else value a
        if b.isEmpty then .ok ⟨first, none⟩
        else if value b < first then .error "invalid decreasing range"
        else .ok ⟨first, some (value b)⟩
    | _ => .error (wrong part)

def inRanges (rs : List Range) (n : Nat) : Bool :=
  rs.any fun r => r.first ≤ n && r.last.all (n ≤ ·)

def chosenCharacters (chosen : Nat → Bool) (separator : Option String) (starts : Nat → Bool)
    (l : String) : String :=
  (l.foldl (fun ((s, i) : String × Nat) c =>
    if chosen i then
      let gap := match separator with
        | some t => if s.isEmpty then "" else if starts i then t else ""
        | none => ""
      ((s ++ gap).push c, i + 1)
    else (s, i + 1)) ("", 1)).1

def cut : Kernel.Program := fun call =>
  let known : Options.Known :=
    { letters := "b:c:d:f:nszO:C",
      names := [("bytes", 'b'), ("characters", 'c'), ("delimiter", 'd'), ("fields", 'f'),
        ("only-delimited", 's'), ("output-delimiter", 'O'), ("complement", 'C'),
        ("zero-terminated", 'z')] }
  withOptions call 1 known fun o => do
    let lists := o.found.filter fun (c, _) => c = 'b' || c = 'c' || c = 'f'
    match lists with
    | [] => misused call 1 "you must specify a list of bytes, characters, or fields"
    | _ :: _ :: _ => misused call 1 "only one list may be specified"
    | [(kind, list)] =>
      let byFields := kind = 'f'
      if !byFields && o.has 'd' then
        misused call 1 "an input delimiter may be specified only when operating on fields"
      else if !byFields && o.has 's' then
        misused call 1 "suppressing non-delimited lines makes sense\n\tonly when operating on fields"
      else if ((o.last? 'd').getD "x").length > 1 then
        misused call 1 "the delimiter must be a single character"
      else
        let zero := if byFields then "fields are numbered from 1"
          else "byte/character positions are numbered from 1"
        let wrong (w : String) : String :=
          if byFields then "invalid field value " ++ quoted w
          else "invalid byte/character position " ++ quoted w
        match readRanges zero wrong list with
        | .error text => misused call 1 text
        | .ok ranges =>
          let chosen (n : Nat) : Bool := inRanges ranges n ≠ o.has 'C'
          let delimiter := match (o.last? 'd').map (·.toList) with
            | none => '\t'
            | some (c :: _) => c
            | some [] => '\x00'
          let separator := (o.last? 'O').getD (String.singleton delimiter)
          let starts (n : Nat) : Bool := ranges.any (·.first = n) && !ranges.any fun r =>
            r.first < n && r.last.all (n - 1 ≤ ·)
          let change (l : String) : Option String :=
            if !byFields then some (chosenCharacters chosen (o.last? 'O') starts l)
            else
              let parts := l.splitOn (String.singleton delimiter)
              if parts.length = 1 then (if o.has 's' then none else some l)
              else some (separator.intercalate
                ((parts.zipIdx.filter fun (_, i) => chosen (i + 1)).map (·.1)))
          let (texts, good) ← readInputs call true plainFault o.operands
          let zeroes := o.has 'z'
          let lines := texts.flatMap fun (_, s) => if zeroes then splitAtChar '\x00' s else linesOf s
          let lineEnd := if zeroes then "\x00" else "\n"
          finish call (join ((lines.filterMap change).map (· ++ lineEnd))) (if good then 0 else 1)
where
  splitAtChar (c : Char) (s : String) : List String :=
    let parts := s.splitOn (String.singleton c)
    if parts.getLast? = some "" then parts.dropLast else parts

end KnightLang.Host.Utility
