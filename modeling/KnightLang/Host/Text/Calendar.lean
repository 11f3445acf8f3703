import KnightLang.Text.Decimal

namespace KnightLang.Host.Calendar

structure Date where
  year : Int
  month : Nat
  day : Nat
  deriving DecidableEq, Repr

def Date.toDays (d : Date) : Int :=
  let year := if d.month ≤ 2 then d.year - 1 else d.year
  let era := year.fdiv 400
  let yearOfEra := year - era * 400
  let month : Int := (d.month + 9) % 12
  let dayOfYear := (153 * month + 2) / 5 + d.day - 1
  let dayOfEra := yearOfEra * 365 + yearOfEra / 4 - yearOfEra / 100 + dayOfYear
  era * 146097 + dayOfEra - 719468

def Date.ofDays (days : Int) : Date :=
  let days := days + 719468
  let era := days.fdiv 146097
  let dayOfEra := days - era * 146097
  let yearOfEra := (dayOfEra - dayOfEra / 1460 + dayOfEra / 36524 - dayOfEra / 146096) / 365
  let dayOfYear := dayOfEra - (365 * yearOfEra + yearOfEra / 4 - yearOfEra / 100)
  let shifted := (5 * dayOfYear + 2) / 153
  let month := if shifted < 10 then shifted + 3 else shifted - 9
  { year := yearOfEra + era * 400 + (if month ≤ 2 then 1 else 0), month := month.toNat,
    day := (dayOfYear - (153 * shifted + 2) / 5 + 1).toNat }

def Date.isValid (d : Date) : Bool := Date.ofDays d.toDays = d

structure Moment where
  seconds : Int
  nanoseconds : Nat := 0

namespace Moment

def days (m : Moment) : Int := m.seconds.fdiv 86400

def date (m : Moment) : Date := Date.ofDays m.days

def secondOfDay (m : Moment) : Nat := (m.seconds - m.days * 86400).toNat

def hour (m : Moment) : Nat := m.secondOfDay / 3600

def minute (m : Moment) : Nat := m.secondOfDay / 60 % 60

def second (m : Moment) : Nat := m.secondOfDay % 60

def weekday (m : Moment) : Nat := ((m.days + 4).fmod 7).toNat

def yearDay (m : Moment) : Nat := (m.days - ({ m.date with month := 1, day := 1 } : Date).toDays).toNat

def week (m : Moment) : Int × Nat :=
  let weekday : Int := (m.weekday + 6) % 7
  let thursday := m.days - weekday + 3
  let year := (Date.ofDays thursday).year
  let first := Date.toDays { year, month := 1, day := 1 }
  (year, ((thursday - first) / 7 + 1).toNat)

end Moment

def dayNames : List String :=
  ["Sunday", "Monday", "Tuesday", "Wednesday", "Thursday", "Friday", "Saturday"]

def monthNames : List String :=
  ["January", "February", "March", "April", "May", "June", "July", "August", "September", "October",
    "November", "December"]

/-! ### Formats -/

structure Style where
  filler : Option Char := none
  filled : Bool := true
  upper : Bool := false
  swapped : Bool := false
  width : Option Nat := none

def Style.ofFlags (s : Style) : List Char → Style
  | [] => s
  | '-' :: rest => Style.ofFlags { s with filled := false } rest
  | '_' :: rest => Style.ofFlags { s with filler := some ' ', filled := true } rest
  | '0' :: rest => Style.ofFlags { s with filler := some '0', filled := true } rest
  | '^' :: rest => Style.ofFlags { s with upper := true } rest
  | '#' :: rest => Style.ofFlags { s with swapped := true } rest
  | _ :: rest => Style.ofFlags s rest

def Style.number (s : Style) (filler : Char) (width : Nat) (n : Int) : String :=
  let digits := Decimal.ofNat n.natAbs
  let sign := if n < 0 then "-" else ""
  let width := s.width.getD width
  if s.filled then
    let missing := width - (digits.length + sign.length)
    let filler := s.filler.getD filler
    if filler = ' ' then "".pushn ' ' missing ++ sign ++ digits
    else sign ++ "".pushn '0' missing ++ digits
  else sign ++ digits

def Style.word (s : Style) (text : String) : String :=
  let text := if s.upper then text.map Char.toUpper else text
  match s.width with
  | some w =>
    if s.filled then "".pushn (s.filler.getD ' ') (w - text.length) ++ text else text
  | none => text

def fraction (s : Style) (n : Nat) : String :=
  let digits := Decimal.ofNat n
  let digits := "".pushn '0' (9 - digits.length) ++ digits
  match s.width with
  | some w => (digits.take w).copy.pushn '0' (w - 9)
  | none => digits

mutual

def field (m : Moment) : Nat → Style → Char → Option String
  | 0, _, _ => none
  | fuel + 1, s, c =>
    let number (filler : Char) (width : Nat) (n : Int) : Option String := some (s.number filler width n)
    let word (text : String) : Option String := some (s.word text)
    let name (names : List String) (i : Nat) : String := names[i]?.getD ""
    let named (text : String) : Option String :=
      some ({ s with upper := s.upper || s.swapped }.word text)
    let whole (text : String) : Option String := some (s.word (format m fuel text.toList))
    let d := m.date
    let hour12 : Int := (m.hour + 11) % 12 + 1
    let half := if m.hour < 12 then "AM" else "PM"
    match c with
    | '%' => word "%"
    | 'n' => word "\n"
    | 't' => word "\t"
    | 'Y' => number '0' (if d.year < 0 then 5 else 4) d.year
    | 'C' => number '0' 2 (d.year.fdiv 100)
    | 'y' => number '0' 2 (d.year.fmod 100)
    | 'G' => number '0' 4 m.week.1
    | 'g' => number '0' 2 (m.week.1.fmod 100)
    | 'V' => number '0' 2 m.week.2
    | 'U' => number '0' 2 ((m.yearDay + 7 - m.weekday) / 7)
    | 'W' => number '0' 2 ((m.yearDay + 7 - (m.weekday + 6) % 7) / 7)
    | 'm' => number '0' 2 d.month
    | 'd' => number '0' 2 d.day
    | 'e' => number ' ' 2 d.day
    | 'H' => number '0' 2 m.hour
    | 'k' => number ' ' 2 m.hour
    | 'I' => number '0' 2 hour12
    | 'l' => number ' ' 2 hour12
    | 'M' => number '0' 2 m.minute
    | 'S' => number '0' 2 m.second
    | 'N' => some (fraction s m.nanoseconds)
    | 's' => number '0' 1 m.seconds
    | 'j' => number '0' 3 (m.yearDay + 1)
    | 'q' => number '0' 1 ((d.month + 2) / 3)
    | 'u' => number '0' 1 ((m.weekday + 6) % 7 + 1)
    | 'w' => number '0' 1 m.weekday
    | 'a' => named ((name dayNames m.weekday).take 3).copy
    | 'A' => named (name dayNames m.weekday)
    | 'b' | 'h' => named ((name monthNames (d.month - 1)).take 3).copy
    | 'B' => named (name monthNames (d.month - 1))
    | 'p' => word (if s.swapped then half.map Char.toLower else half)
    | 'P' => word (half.map Char.toLower)
    | 'Z' => word (if s.swapped then "utc" else "UTC")
    | 'z' => word "+0000"
    | 'F' => whole "%Y-%m-%d"
    | 'D' | 'x' => whole "%m/%d/%y"
    | 'T' | 'X' => whole "%H:%M:%S"
    | 'R' => whole "%H:%M"
    | 'r' => whole "%I:%M:%S %p"
    | 'c' => whole "%a %b %e %H:%M:%S %Y"
    | _ => none

def format (m : Moment) : Nat → List Char → String
  | 0, _ | _, [] => ""
  | fuel + 1, '%' :: rest =>
    let flags := rest.takeWhile fun c => "-_0^#+".contains c
    let digits := (rest.drop flags.length).takeWhile Char.isDigit
    let after := rest.drop (flags.length + digits.length)
    let style : Style :=
      Style.ofFlags { width := if digits.isEmpty then none else some (Decimal.value digits) } flags
    let (shown, rest) := match after with
      | ':' :: 'z' :: after => ("+00:00", after)
      | ':' :: ':' :: 'z' :: after => ("+00:00:00", after)
      | 'E' :: c :: after | 'O' :: c :: after | c :: after =>
        match field m fuel style c with
        | some s => (s, after)
        | none => ("%", rest)
      | [] => ("%", rest)
    shown ++ format m fuel rest
  | fuel + 1, c :: rest => String.singleton c ++ format m fuel rest

end

def Moment.shown (m : Moment) (text : String) : String :=
  format m (2 * text.length + 20) text.toList

/-! ### Reading -/

inductive Word
  | number (sign : Option Char) (digits : List Char)
  | name (text : String)
  | mark (c : Char)
  deriving DecidableEq

def words : Nat → List Char → List Word
  | 0, _ | _, [] => []
  | fuel + 1, c :: rest =>
    if c.isDigit then
      let ds := (c :: rest).takeWhile Char.isDigit
      .number none ds :: words fuel ((c :: rest).drop ds.length)
    else if c.isAlpha then
      let cs := (c :: rest).takeWhile Char.isAlpha
      .name (String.ofList (cs.map Char.toLower)) :: words fuel ((c :: rest).drop cs.length)
    else if c = ' ' || c = '\t' || c = ',' then words fuel rest
    else if c = '+' || c = '-' then
      let after := rest.dropWhile (· = ' ')
      let ds := after.takeWhile Char.isDigit
      if ds.isEmpty then .mark c :: words fuel rest
      else .number (some c) ds :: words fuel (after.drop ds.length)
    else .mark c :: words fuel rest

structure Parts where
  date : Option Date := none
  time : Option (Nat × Nat × Nat) := none
  fraction : Nat := 0
  weekday : Option Nat := none
  years : Int := 0
  months : Int := 0
  days : Int := 0
  seconds : Int := 0
  relative : Bool := false

def monthNumber? (name : String) : Option Nat :=
  (monthNames.findIdx? fun m =>
    let m := m.map Char.toLower
    name = m || name = (m.take 3).copy || (name = "sept" && m = "september")).map (· + 1)

def weekday? (name : String) : Option Nat :=
  dayNames.findIdx? fun d =>
    let d := d.map Char.toLower
    name = d || name = (d.take 3).copy

def Parts.add (p : Parts) (n : Int) (unit : String) : Option Parts :=
  let unit := if unit.endsWith "s" && unit.length > 3 then (unit.dropEnd 1).copy else unit
  let p := { p with relative := true }
  match unit with
  | "year" => some { p with years := p.years + n }
  | "month" => some { p with months := p.months + n }
  | "fortnight" => some { p with days := p.days + 14 * n }
  | "week" => some { p with days := p.days + 7 * n }
  | "day" => some { p with days := p.days + n }
  | "hour" => some { p with seconds := p.seconds + 3600 * n }
  | "minute" | "min" => some { p with seconds := p.seconds + 60 * n }
  | "second" | "sec" => some { p with seconds := p.seconds + n }
  | _ => none

def isUnit (name : String) : Bool := (Parts.add {} 1 name).isSome

def hourOf (h : Nat) (half : String) : Option Nat :=
  if h = 0 || h > 12 then none
  else if half = "am" then some (h % 12)
  else if half = "pm" then some (h % 12 + 12)
  else none

def yearOf (digits : List Char) : Int :=
  let n := Decimal.value digits
  if digits.length ≤ 2 then (if n < 69 then 2000 + n else 1900 + n) else n

def readParts : Nat → List Word → Parts → Option Parts
  | 0, _, _ => none
  | _, [], p => some p
  | fuel + 1, ws, p =>
    let go := readParts fuel
    let value := Decimal.value
    let withDate (d : Date) (rest : List Word) : Option Parts :=
      if p.date.isSome || !d.isValid then none else go rest { p with date := some d }
    let withTime (h m s : Nat) (rest : List Word) : Option Parts :=
      if p.time.isSome || h ≥ 24 || m ≥ 60 || s > 60 then none
      else go rest { p with time := some (h, m, s) }
    match ws with
    | .number none y :: .number (some '-') m :: .number (some '-') d :: rest =>
      let rest := match rest with
        | .name "t" :: rest => rest
        | rest => rest
      withDate ⟨yearOf y, value m, value d⟩ rest
    | .number none m :: .mark '/' :: .number none d :: .mark '/' :: .number none y :: rest =>
      if m.length = 4 then withDate ⟨yearOf m, value d, value y⟩ rest
      else withDate ⟨yearOf y, value m, value d⟩ rest
    | .number none h :: .mark ':' :: .number none m :: .mark ':' :: .number none s :: rest =>
      match rest with
      | .mark '.' :: .number none f :: rest =>
        let nine := (f.take 9) ++ List.replicate (9 - f.length) '0'
        if p.time.isSome then none
        else go rest { p with time := some (value h, value m, value s), fraction := value nine }
      | .name half :: rest' =>
        match hourOf (value h) half with
        | some hour => withTime hour (value m) (value s) rest'
        | none => withTime (value h) (value m) (value s) rest
      | rest => withTime (value h) (value m) (value s) rest
    | .number none h :: .mark ':' :: .number none m :: .name half :: rest =>
      match hourOf (value h) half with
      | some hour => withTime hour (value m) 0 rest
      | none => withTime (value h) (value m) 0 (.name half :: rest)
    | .number none h :: .mark ':' :: .number none m :: rest => withTime (value h) (value m) 0 rest
    | .number sign n :: .name unit :: rest =>
      let amount : Int := if sign = some '-' then -(value n : Int) else value n
      match rest, hourOf (value n) unit, monthNumber? unit with
      | .name "ago" :: rest', _, _ =>
        if isUnit unit then (p.add (-amount) unit).bind (go rest') else none
      | _, some hour, _ => if sign.isNone then withTime hour 0 0 rest else none
      | .number _ y :: rest', none, some month =>
        if y.length = 4 then withDate ⟨yearOf y, month, value n⟩ rest' else none
      | rest, _, none =>
        if isUnit unit then (p.add amount unit).bind (go rest) else none
      | _, _, _ => none
    | .name month :: .number none d :: .number none y :: rest =>
      match monthNumber? month with
      | some m => withDate ⟨yearOf y, m, value d⟩ rest
      | none => none
    | .number none digits :: rest =>
      if digits.length = 8 then
        withDate ⟨value (digits.take 4), value ((digits.drop 4).take 2), value (digits.drop 6)⟩ rest
      else if digits.length ≤ 2 then withTime (value digits) 0 0 rest
      else if digits.length ≤ 4 then
        let hours := digits.take (digits.length - 2)
        withTime (value hours) (value (digits.drop hours.length)) 0 rest
      else none
    | .name "now" :: rest | .name "today" :: rest => go rest { p with relative := true }
    | .name "yesterday" :: rest => go rest { p with days := p.days - 1, relative := true }
    | .name "tomorrow" :: rest => go rest { p with days := p.days + 1, relative := true }
    | .name "midnight" :: rest => withTime 0 0 0 rest
    | .name "noon" :: rest => withTime 12 0 0 rest
    | .name "utc" :: rest | .name "gmt" :: rest | .name "z" :: rest => go rest p
    | .name "next" :: .name unit :: rest => (p.add 1 unit).bind (go rest)
    | .name "last" :: .name unit :: rest => (p.add (-1) unit).bind (go rest)
    | .name unit :: .name "ago" :: rest => (p.add (-1) unit).bind (go rest)
    | .name name :: rest =>
      match weekday? name with
      | some w => go rest { p with weekday := some w }
      | none => (p.add 1 name).bind (go rest)
    | _ => none

def Moment.read? (now : Moment) (text : String) : Option Moment :=
  match text.toList with
  | '@' :: rest =>
    let (negative, ds) := match rest with
      | '-' :: ds => (true, ds)
      | ds => (false, ds)
    let whole := ds.takeWhile Char.isDigit
    let fraction := match ds.drop whole.length with
      | [] => some []
      | '.' :: f => if f.all Char.isDigit then some f else none
      | _ => none
    match fraction with
    | none => none
    | some f =>
      if whole.isEmpty then none
      else
        let nine := f.take 9 ++ List.replicate (9 - f.length) '0'
        let n : Int := Decimal.value whole
        some { seconds := if negative then -n else n, nanoseconds := Decimal.value nine }
  | cs =>
    (readParts (cs.length + 2) (words (cs.length + 1) cs) {}).map fun p =>
      let kept := p.date.isNone && p.time.isNone && p.weekday.isNone && p.relative
      let date := p.date.getD now.date
      let months := (date.year + p.years) * 12 + (date.month : Int) - 1 + p.months
      let moved : Date := { year := months.fdiv 12, month := (months.fmod 12).toNat + 1, day := 1 }
      let days := moved.toDays + date.day - 1 + p.days
      let days := match p.weekday with
        | some w => if p.date.isSome then days else days + ((w : Int) - (days + 4).fmod 7).fmod 7
        | none => days
      let (h, m, s) := if kept then (now.hour, now.minute, now.second) else p.time.getD (0, 0, 0)
      { seconds := days * 86400 + (h * 3600 + m * 60 + s : Nat) + p.seconds,
        nanoseconds := if kept then now.nanoseconds else p.fraction }

end KnightLang.Host.Calendar
