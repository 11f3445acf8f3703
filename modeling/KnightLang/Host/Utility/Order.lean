import KnightLang.Host.Utility.Columns
import KnightLang.Host.Utility.Sequence

namespace KnightLang.Host.Utility

open Kernel (Call Work)

/-! ### Orders of texts -/

inductive Comparison
  | bytes
  | numeric
  | general
  | human
  | month
  | version
  deriving DecidableEq, Repr

def leadingNumber (s : String) : Fraction × List Char :=
  let (negative, cs) := match s.toList.dropWhile fun c => c = ' ' || c = '\t' with
    | '-' :: rest => (true, rest)
    | rest => (false, rest)
  let whole := cs.takeWhile Char.isDigit
  let rest := cs.drop whole.length
  let (part, rest) := match rest with
    | '.' :: rest => (rest.takeWhile Char.isDigit, rest.dropWhile Char.isDigit)
    | rest => ([], rest)
  let n := Int.ofNat (Decimal.value (whole ++ part))
  (⟨if negative then -n else n, part.length⟩, rest)

def compareFractions (a b : Fraction) : Ordering :=
  let places := max a.places b.places
  compare (a.atPlaces places) (b.atPlaces places)

def unitRank : List Char → Nat
  | c :: _ => match "KMGTPEZY".toList.findIdx? (· = c.toUpper) with
    | some i => i + 1
    | none => 0
  | [] => 0

def compareHuman (a b : String) : Ordering :=
  let (m, r) := leadingNumber a
  let (n, t) := leadingNumber b
  let sign (f : Fraction) : Int := if f.units < 0 then -1 else if f.units = 0 then 0 else 1
  let rank (f : Fraction) (r : List Char) : Int := sign f * Int.ofNat (unitRank r)
  ((compare (sign m) (sign n)).then (compare (rank m r) (rank n t))).then (compareFractions m n)

def monthNumber (s : String) : Nat :=
  let name := (String.ofList ((s.toList.dropWhile fun c => c = ' ' || c = '\t').take 3)).toUpper
  match ["JAN", "FEB", "MAR", "APR", "MAY", "JUN", "JUL", "AUG", "SEP", "OCT", "NOV", "DEC"].findIdx?
      (· = name) with
  | some i => i + 1
  | none => 0

def compareGeneral (a b : String) : Ordering :=
  let rank : Option (Floating × List Char) → Nat
    | none => 0
    | some (.nan _, _) => 1
    | some (f, _) => if f.isFinite then 3 else if f.isNegative then 2 else 4
  let x := Floating.read 64 a.toList
  let y := Floating.read 64 b.toList
  match compare (rank x) (rank y), x, y with
  | .eq, some (f, _), some (g, _) =>
    if f.isFinite then
      let (m, n) := f.fraction
      let (p, q) := g.fraction
      let signed (f : Floating) (k : Nat) : Int := if f.isNegative then -Int.ofNat k else Int.ofNat k
      compare (signed f (m * q)) (signed g (p * n))
    else .eq
  | o, _, _ => o

def versionOrder : List Char → Int
  | [] => -1
  | c :: _ =>
    if c.isDigit then 0
    else if c.isAlpha then c.toNat
    else if c = '~' then -2
    else c.toNat + 256

def compareParts : Nat → List Char → List Char → Ordering
  | 0, _, _ => .eq
  | _, [], [] => .eq
  | fuel + 1, a, b =>
    let isDigit (cs : List Char) : Bool := (cs.head?.map Char.isDigit).getD true
    if !isDigit a || !isDigit b then
      match compare (versionOrder a) (versionOrder b) with
      | .eq => compareParts fuel (a.drop 1) (b.drop 1)
      | o => o
    else
      let m := (a.takeWhile Char.isDigit)
      let n := (b.takeWhile Char.isDigit)
      match compare (Decimal.value m) (Decimal.value n) with
      | .eq => compareParts fuel (a.drop m.length) (b.drop n.length)
      | o => o

def withoutSuffixes (cs : List Char) : List Char :=
  let rec strip : Nat → List Char → List Char
    | 0, back => back
    | fuel + 1, back =>
      let word := back.takeWhile fun c => c.isAlphanum || c = '~'
      match back.drop word.length, word.getLast? with
      | '.' :: rest, some first =>
        if (first.isAlpha || first = '~') && !rest.isEmpty then strip fuel rest else back
      | _, _ => back
  (strip (cs.length + 1) cs.reverse).reverse

def compareVersions (a b : String) : Ordering :=
  let (x, y) := (a.toList, b.toList)
  let fuel := x.length + y.length + 2
  (compareParts fuel (withoutSuffixes x) (withoutSuffixes y)).then (compareParts fuel x y)

def compareTexts (c : Comparison) (a b : String) : Ordering :=
  match c with
  | .bytes => compare a b
  | .numeric => compareFractions (leadingNumber a).1 (leadingNumber b).1
  | .general => compareGeneral a b
  | .human => compareHuman a b
  | .month => compare (monthNumber a) (monthNumber b)
  | .version => compareVersions a b

/-! ### Keys -/

structure SortKey where
  field : Nat := 0
  char : Nat := 0
  stop : Option (Nat × Nat) := none
  startBlanks : Bool := false
  stopBlanks : Bool := false
  comparison : Comparison := .bytes
  fold : Bool := false
  dictionary : Bool := false
  printing : Bool := false
  reversed : Bool := false

namespace SortKey

def set (k : SortKey) (atStop : Bool) : Char → Option SortKey
  | 'b' => some (if atStop then { k with stopBlanks := true } else { k with startBlanks := true })
  | 'd' => some { k with dictionary := true }
  | 'f' => some { k with fold := true }
  | 'g' => some { k with comparison := .general }
  | 'h' => some { k with comparison := .human }
  | 'i' => some { k with printing := true }
  | 'M' => some { k with comparison := .month }
  | 'n' => some { k with comparison := .numeric }
  | 'r' => some { k with reversed := true }
  | 'R' => some k
  | 'V' => some { k with comparison := .version }
  | _ => none

def isPlain (k : SortKey) : Bool :=
  !k.startBlanks && !k.stopBlanks && k.comparison = .bytes && !k.fold && !k.dictionary &&
    !k.printing && !k.reversed

def isBlank (c : Char) : Bool := c = ' ' || c = '\t' || c = '\n'

def afterFields (separator : Option Char) : Nat → List Char → List Char
  | 0, cs => cs
  | n + 1, cs =>
    match separator with
    | some s => afterFields separator n ((cs.dropWhile (· ≠ s)).drop 1)
    | none => afterFields separator n ((cs.dropWhile isBlank).dropWhile (!isBlank ·))

def part (separator : Option Char) (k : SortKey) (line : String) : String :=
  let cs := line.toList
  let start := afterFields separator (k.field - 1) cs
  let start := (if k.startBlanks then start.dropWhile isBlank else start).drop (k.char - 1)
  let stop := match k.stop with
    | none => []
    | some (field, 0) =>
      match separator with
      | some s => (afterFields separator (field - 1) cs).dropWhile (· ≠ s)
      | none => afterFields none field cs
    | some (field, char) =>
      let rest := afterFields separator (field - 1) cs
      (if k.stopBlanks then rest.dropWhile isBlank else rest).drop char
  String.ofList (start.take (start.length - stop.length))

def shaped (k : SortKey) (s : String) : String :=
  if k.comparison = .bytes && (k.fold || k.dictionary || k.printing) then
    let kept (c : Char) : Bool :=
      (!k.dictionary || c.isAlphanum || isBlank c) && (!k.printing || (' ' ≤ c && c.toNat < 127))
    String.ofList ((s.toList.filter kept).map fun c => if k.fold then c.toUpper else c)
  else s

def readPosition (cs : List Char) : Option (Nat × Nat × List Char) :=
  let ds := cs.takeWhile Char.isDigit
  if ds.isEmpty then none
  else
    match cs.drop ds.length with
    | '.' :: rest =>
      let es := rest.takeWhile Char.isDigit
      some (Decimal.value ds, Decimal.value es, rest.drop es.length)
    | rest => some (Decimal.value ds, 0, rest)

def setAll (k : SortKey) (atStop : Bool) : List Char → Option SortKey
  | [] => some k
  | c :: rest => (k.set atStop c).bind fun k => k.setAll atStop rest

def read (s : String) : Except String SortKey :=
  match readPosition s.toList with
  | none => .error ("invalid number at field start: invalid count at start of " ++ quoted s)
  | some (field, char, rest) =>
    if field = 0 then .error ("field number is zero: invalid field specification " ++ quoted s)
    else
      let letters := rest.takeWhile Char.isAlpha
      let after := rest.drop letters.length
      let stray := "stray character in field spec: invalid field specification " ++ quoted s
      match setAll { field, char } false letters, after with
      | some k, [] => .ok k
      | some k, ',' :: after =>
        match readPosition after with
        | none => .error ("invalid number after ',': invalid count at start of " ++
            quoted (String.ofList after))
        | some (field, char, letters) =>
          if field = 0 then .error ("field number is zero: invalid field specification " ++ quoted s)
          else
            match setAll { k with stop := some (field, char) } true letters with
            | some k => .ok k
            | none => .error stray
      | _, _ => .error stray

end SortKey

structure Sorting where
  keys : List SortKey
  separator : Option Char
  reversed : Bool
  whole : Bool

structure Sorted where
  line : String
  parts : List String

def Sorting.prepare (s : Sorting) (line : String) : Sorted :=
  ⟨line, s.keys.map fun k => k.shaped (if k.field = 0 then line else k.part s.separator line)⟩

def compareKeys : List SortKey → List String → List String → Ordering
  | k :: ks, a :: as, b :: bs =>
    let o := compareTexts k.comparison a b
    (if k.reversed then o.swap else o).then (compareKeys ks as bs)
  | _, _, _ => .eq

def Sorting.compare (s : Sorting) (a b : Sorted) : Ordering :=
  let byKeys := compareKeys s.keys a.parts b.parts
  if s.whole then
    let o := Ord.compare a.line b.line
    byKeys.then (if s.reversed then o.swap else o)
  else byKeys

def firstOfEqual (s : Sorting) : List Sorted → List Sorted
  | a :: b :: rest =>
    if s.compare a b = .eq then firstOfEqual s (a :: rest) else a :: firstOfEqual s (b :: rest)
  | rest => rest

def disorder (s : Sorting) (unique : Bool) : Nat → List Sorted → Option (Nat × String)
  | n, a :: b :: rest =>
    let o := s.compare a b
    if o = .gt || (unique && o = .eq) then some (n + 1, b.line)
    else disorder s unique (n + 1) (b :: rest)
  | _, _ => none

def sort : Kernel.Program := fun call =>
  let known : Options.Known :=
    { letters := "bcCdfghik:mMno:rRsS:t:T:uVyz",
      names := [("ignore-leading-blanks", 'b'), ("check", 'c'), ("dictionary-order", 'd'),
        ("ignore-case", 'f'), ("general-numeric-sort", 'g'), ("human-numeric-sort", 'h'),
        ("ignore-nonprinting", 'i'), ("key", 'k'), ("merge", 'm'), ("month-sort", 'M'),
        ("numeric-sort", 'n'), ("output", 'o'), ("reverse", 'r'), ("random-sort", 'R'),
        ("stable", 's'), ("field-separator", 't'), ("unique", 'u'), ("version-sort", 'V'),
        ("zero-terminated", 'z')] }
  withOptions call 2 known fun o => do
    let letters := o.found.map (·.1)
    let global := letters.foldl (fun (k : SortKey) c => (k.set false c).getD k) {}
    let fail (text : String) : Work Nat := do
      complain call text
      return 2
    match (o.found.filter (·.1 = 'k')).mapM fun (_, a) => SortKey.read a with
    | .error text => fail text
    | .ok keys =>
      let keys := keys.map fun k =>
        if k.isPlain then { global with field := k.field, char := k.char, stop := k.stop } else k
      let keys := if keys.isEmpty then
          (if global.isPlain || (global.reversed && { global with reversed := false }.isPlain)
            then [] else [{ global with field := if global.startBlanks then 1 else 0 }])
        else keys
      match (o.last? 't').map fun s => if s = "\\0" then ['\x00'] else s.toList with
      | some [] => fail "empty tab"
      | some (_ :: _ :: _) => fail ("multi-character tab " ++ quoted ((o.last? 't').getD ""))
      | separator =>
        let s : Sorting :=
          { keys, separator := separator.bind (·.head?), reversed := global.reversed,
            whole := keys.isEmpty || !(o.has 's' || o.has 'u') }
        let zeroes := o.has 'z'
        let split (text : String) : List String :=
          if zeroes then (piecesWithEnds '\x00' text).map fun l =>
            if l.endsWith "\x00" then (l.dropEnd 1).copy else l
          else linesOf text
        let lineEnd := if zeroes then "\x00" else "\n"
        let mut lines : List String := []
        for path in (if o.operands.isEmpty then ["-"] else o.operands) do
          match ← readInput path false with
          | .ok text => lines := lines ++ split text
          | .error f =>
            return ← fail (if f = .directory then "read failed: " ++ plainName path ++ ": " ++ f.text
              else "cannot read: " ++ plainName path ++ ": " ++ f.text)
        let prepared := lines.map s.prepare
        if o.has 'c' || o.has 'C' then
          match disorder s (o.has 'u') 1 prepared with
          | none => return 0
          | some (n, line) =>
            if o.has 'c' then
              complain call (o.operands.headD "-" ++ ":" ++ Decimal.ofNat n ++ ": disorder: " ++ line)
            return 1
        else
          let sorted := prepared.mergeSort fun a b => s.compare a b ≠ .gt
          let kept := if o.has 'u' then firstOfEqual s sorted else sorted
          let text := kept.foldl (fun t l => t ++ l.line ++ lineEnd) ""
          match o.last? 'o' with
          | none => finishWith call 2 text 0
          | some path =>
            match ← Work.writeFile path .writing text with
            | none => return 0
            | some f => fail ("open failed: " ++ plainName path ++ ": " ++ f.text)

/-! ### Lines that repeat -/

def groupEqual (same : String → String → Bool) : List String → List (List String)
  | [] => []
  | l :: rest =>
    match groupEqual same rest with
    | (m :: g) :: gs => if same l m then (l :: m :: g) :: gs else [l] :: (m :: g) :: gs
    | gs => [l] :: gs

def comparedPart (fields chars : Nat) (most : Option Nat) (fold : Bool) (l : String) : String :=
  let rec skip : Nat → List Char → List Char
    | 0, cs => cs
    | n + 1, cs => skip n ((cs.dropWhile SortKey.isBlank).dropWhile (!SortKey.isBlank ·))
  let cs := (skip fields l.toList).drop chars
  let cs := match most with
    | some n => cs.take n
    | none => cs
  String.ofList (if fold then cs.map Char.toLower else cs)

def uniq : Kernel.Program := fun call =>
  let known : Options.Known :=
    { letters := "cdDf:is:uw:z",
      names := [("count", 'c'), ("repeated", 'd'), ("all-repeated", 'D'), ("skip-fields", 'f'),
        ("ignore-case", 'i'), ("skip-chars", 's'), ("unique", 'u'), ("check-chars", 'w'),
        ("zero-terminated", 'z')] }
  withOptions call 1 known fun o => do
    match o.operands with
    | _ :: _ :: extra :: _ => misused call 1 ("extra operand " ++ quoted extra)
    | operands =>
      let path := operands.headD "-"
      match ← readInput path true with
      | .error f =>
        complain call (plainFault path f)
        return 1
      | .ok text =>
        let natOf (c : Char) : Option Nat := (o.last? c).bind (·.toNat?)
        let part := comparedPart ((natOf 'f').getD 0) ((natOf 's').getD 0) (natOf 'w') (o.has 'i')
        let groups := groupEqual (fun a b => part a = part b) (linesOf text)
        let shown (g : List String) : String :=
          let repeats := g.length > 1
          if o.has 'D' then (if repeats then unlines g else "")
          else if (o.has 'd' && !repeats) || (o.has 'u' && repeats) then ""
          else
            let count := if o.has 'c' then alignRight 7 (Decimal.ofNat g.length) ++ " " else ""
            count ++ g.headD "" ++ "\n"
        let result := join (groups.map shown)
        match operands[1]? with
        | none | some "-" => finish call result 0
        | some out =>
          match ← Work.writeFile out .writing result with
          | none => return 0
          | some f =>
            complain call (plainFault out f)
            return 1

/-! ### Two sorted files -/

def mergeSides : Nat → List String → List String → List (Nat × String)
  | 0, _, _ => []
  | _, [], [] => []
  | fuel + 1, a :: as, [] => (1, a) :: mergeSides fuel as []
  | fuel + 1, [], b :: bs => (2, b) :: mergeSides fuel [] bs
  | fuel + 1, a :: as, b :: bs =>
    match compare a b with
    | .lt => (1, a) :: mergeSides fuel as (b :: bs)
    | .gt => (2, b) :: mergeSides fuel (a :: as) bs
    | .eq => (3, a) :: mergeSides fuel as bs

def isSorted : List String → Bool
  | a :: b :: rest => !(b < a) && isSorted (b :: rest)
  | _ => true

def compareFiles : Kernel.Program := fun call =>
  let known : Options.Known :=
    { letters := "123O:z", names := [("output-delimiter", 'O'), ("zero-terminated", 'z')] }
  withOptions call 1 known fun o => do
    match o.operands with
    | [] => misused call 1 "missing operand"
    | [a] => misused call 1 ("missing operand after " ++ quoted a)
    | _ :: _ :: extra :: _ => misused call 1 ("extra operand " ++ quoted extra)
    | [a, b] =>
      match ← readInput a false with
      | .error f =>
        complain call (plainFault a f)
        return 1
      | .ok s =>
        match ← readInput b false with
        | .error f =>
          complain call (plainFault b f)
          return 1
        | .ok t =>
          let (s, t) := (linesOf s, linesOf t)
          let gap := (o.last? 'O').getD "\t"
          let first := if o.has '1' then "" else gap
          let second := if o.has '2' then "" else gap
          let shown : Nat × String → Option String
            | (1, l) => if o.has '1' then none else some l
            | (2, l) => if o.has '2' then none else some (first ++ l)
            | (_, l) => if o.has '3' then none else some (first ++ second ++ l)
          let rows := mergeSides (s.length + t.length + 1) s t
          let good := isSorted s && isSorted t
          unless isSorted s do complain call "file 1 is not in sorted order"
          unless isSorted t do complain call "file 2 is not in sorted order"
          unless good do complain call "input is not in sorted order"
          finish call (unlines (rows.filterMap shown)) (if good then 0 else 1)

def joinFields (separator : Option Char) (l : String) : List String :=
  match separator with
  | some c => l.splitOn (String.singleton c)
  | none => (l.foldl (fun t c => t.push (if c = '\t' then ' ' else c)) "").splitOn " " |>.filter (· ≠ "")

def joinSides (key₁ key₂ : List String → String) : Nat → List (List String) → List (List String) →
    List (Option (List String) × Option (List String))
  | 0, _, _ => []
  | _, [], bs => bs.map fun b => (none, some b)
  | _, as, [] => as.map fun a => (some a, none)
  | fuel + 1, a :: as, b :: bs =>
    match compare (key₁ a) (key₂ b) with
    | .lt => (some a, none) :: joinSides key₁ key₂ fuel as (b :: bs)
    | .gt => (none, some b) :: joinSides key₁ key₂ fuel (a :: as) bs
    | .eq =>
      let k := key₁ a
      let mine := (a :: as).takeWhile (key₁ · = k)
      let theirs := (b :: bs).takeWhile (key₂ · = k)
      (mine.flatMap fun x => theirs.map fun y => (some x, some y)) ++
        joinSides key₁ key₂ fuel ((a :: as).drop mine.length) ((b :: bs).drop theirs.length)

def joinFiles : Kernel.Program := fun call =>
  let known : Options.Known :=
    { letters := "a:e:i1:2:j:o:t:v:", names := [("ignore-case", 'i')] }
  withOptions call 1 known fun o => do
    match o.operands with
    | [a, b] =>
      match ← readInput a false with
      | .error f =>
        complain call (plainFault a f)
        return 1
      | .ok s =>
        match ← readInput b false with
        | .error f =>
          complain call (plainFault b f)
          return 1
        | .ok t =>
          let separator := (o.last? 't').bind (·.toList.head?)
          let natOf (c : Char) (n : Nat) : Nat := ((o.last? c).bind (·.toNat?)).getD n
          let both := natOf 'j' 1
          let (f₁, f₂) := (natOf '1' both, natOf '2' both)
          let fold (w : String) : String := if o.has 'i' then w.toUpper else w
          let key (n : Nat) (l : List String) : String := fold (l[n - 1]?.getD "")
          let sides := joinSides (key f₁) (key f₂) (s.length + t.length + 2)
            ((linesOf s).map (joinFields separator)) ((linesOf t).map (joinFields separator))
          let empty := (o.last? 'e').getD ""
          let filled (w : Option String) : String := match w with
            | none | some "" => empty
            | some w => w
          let asked (n : String) : Bool := o.found.any fun (c, a) => (c = 'a' || c = 'v') && a = n
          let paired := !o.has 'v'
          let others (n : Nat) (l : List String) : List String := l.take (n - 1) ++ l.drop n
          let gap := match separator with
            | some c => String.singleton c
            | none => " "
          let format := ((o.found.filter (·.1 = 'o')).flatMap fun (_, a) =>
            (a.replace "," " ").splitOn " ").filter (· ≠ "")
          let row (x y : Option (List String)) : String :=
            let name := match x, y with
              | some x, _ => x[f₁ - 1]?
              | none, some y => y[f₂ - 1]?
              | none, none => none
            let cells :=
              if format.isEmpty then
                (name.getD "") :: (((x.map (others f₁)).getD [] ++ (y.map (others f₂)).getD []).map
                  fun w => filled (some w))
              else format.map fun spec =>
                match spec.splitOn "." with
                | ["1", n] => filled (x.bind fun l => l[n.toNat?.getD 1 - 1]?)
                | ["2", n] => filled (y.bind fun l => l[n.toNat?.getD 1 - 1]?)
                | _ => filled name
            gap.intercalate cells
          let rows := sides.filterMap fun (x, y) =>
            match x, y with
            | some _, some _ => if paired then some (row x y) else none
            | some _, none => if asked "1" then some (row x y) else none
            | none, some _ => if asked "2" then some (row x y) else none
            | none, none => none
          finish call (unlines rows) 0
    | [] => misused call 1 "missing operand"
    | [a] => misused call 1 ("missing operand after " ++ quoted a)
    | _ :: _ :: extra :: _ => misused call 1 ("extra operand " ++ quoted extra)

end KnightLang.Host.Utility
