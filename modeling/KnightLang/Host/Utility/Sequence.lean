import KnightLang.Host.Text.Directive
import KnightLang.Host.Utility.Basic

namespace KnightLang.Host.Utility

open Kernel (Call Work)

structure Fraction where
  units : Int
  places : Nat
  deriving DecidableEq, Repr

namespace Fraction

def power (n : Nat) : Int := Int.ofNat (Nat.pow 10 n)

def atPlaces (f : Fraction) (places : Nat) : Int := f.units * power (places - f.places)

def read? (s : String) : Option Fraction :=
  let (negative, cs) := match s.toList.dropWhile fun c => c = ' ' || c = '\t' with
    | '-' :: rest => (true, rest)
    | '+' :: rest => (false, rest)
    | rest => (false, rest)
  let signed (n : Int) : Int := if negative then -n else n
  match cs with
  | '0' :: 'x' :: ds =>
    if !ds.isEmpty && ds.all fun c => (Text.hexValue c).isSome then
      some ⟨signed (ds.foldl (fun (n : Int) c => 16 * n + Int.ofNat ((Text.hexValue c).getD 0)) 0), 0⟩
    else none
  | cs =>
    let whole := cs.takeWhile Char.isDigit
    let rest := cs.drop whole.length
    let (part, rest) := match rest with
      | '.' :: rest => (rest.takeWhile Char.isDigit, rest.dropWhile Char.isDigit)
      | rest => ([], rest)
    if whole.isEmpty && part.isEmpty then none
    else
      let (e, rest) := Floating.readExponent ['e', 'E'] rest
      if !rest.isEmpty || e > 1000 || e < -1000 then none
      else
        let units := signed (Int.ofNat (Decimal.value (whole ++ part)))
        let places : Int := Int.ofNat part.length - e
        if places < 0 then some ⟨units * power places.natAbs, 0⟩ else some ⟨units, places.toNat⟩

def shown (width places : Nat) (units : Int) : String :=
  let digits := Decimal.ofNat units.natAbs
  let digits := "".pushn '0' (places + 1 - digits.length) ++ digits
  let cs := digits.toList
  let whole := String.ofList (cs.take (cs.length - places))
  let text := if places = 0 then whole
    else whole ++ "." ++ String.ofList (cs.drop (cs.length - places))
  let sign := if units < 0 then "-" else ""
  sign ++ "".pushn '0' (width - text.length - sign.length) ++ text

def toFloating (places : Nat) (units : Int) : Floating :=
  .ofFraction 64 (units < 0) units.natAbs (Nat.pow 10 places)

end Fraction

def beforeDirective : Nat → List Char → List Char → Option (List Char × List Char)
  | 0, _, _ => none
  | fuel + 1, done, '%' :: '%' :: rest => beforeDirective fuel ('%' :: done) rest
  | _ + 1, done, '%' :: rest => some (done, rest)
  | fuel + 1, done, c :: rest => beforeDirective fuel (c :: done) rest
  | _ + 1, _, [] => none

def unmarked : List Char → List Char
  | '%' :: '%' :: rest => '%' :: unmarked rest
  | c :: rest => c :: unmarked rest
  | [] => []

def readDigits (cs : List Char) : Nat × List Char :=
  (Decimal.value (cs.takeWhile Char.isDigit), cs.dropWhile Char.isDigit)

def numberFormat (format : String) : Except String (String × Directive × String) :=
  match beforeDirective (format.length + 1) [] format.toList with
  | none => .error ("format " ++ quoted format ++ " has no % directive")
  | some (done, rest) =>
    let flags := rest.takeWhile fun c => "#0-+ '".contains c
    let (width, rest) := readDigits (rest.drop flags.length)
    let (precision, rest) : Option Nat × List Char := match rest with
      | '.' :: rest =>
        let (n, rest) := readDigits rest
        (some n, rest)
      | rest => (none, rest)
    match rest.dropWhile (· = 'L') with
    | [] => .error ("format " ++ quoted format ++ " ends in %")
    | c :: after =>
      if "efgaEFGA".contains c then
        .ok (String.ofList done.reverse, { flags, width, precision, conversion := c },
          String.ofList (unmarked after))
      else
        .error ("format " ++ quoted format ++ " has unknown %" ++ String.singleton c ++ " directive")

def isNegativeNumber (s : String) : Bool :=
  match s.toList with
  | '-' :: c :: _ => c.isDigit || c = '.'
  | _ => false

def sequenceOptions (call : Call) (run : Options → Work Nat) : Work Nat :=
  let known : Options.Known :=
    { letters := "f:s:w", names := [("format", 'f'), ("separator", 's'), ("equal-width", 'w')],
      anywhere := false }
  let arguments := call.arguments.drop 1
  let numbers := arguments.dropWhile (!isNegativeNumber ·)
  let options := arguments.takeWhile (!isNegativeNumber ·)
  match Options.readFrom known (options.length + 1) options {} with
  | .ok o => run { o with operands := o.operands ++ numbers }
  | .error text => misused call 1 text

def sequenceUnits (first step last : Int) : List Int :=
  if step = 0 then []
  else
    let count := if step > 0 then (last - first) / step else (first - last) / (-step)
    if (if step > 0 then first ≤ last else last ≤ first) then
      (List.range (count.toNat + 1)).map fun i => first + step * Int.ofNat i
    else []

def sequence : Kernel.Program := fun call =>
  sequenceOptions call fun o => do
    match o.operands with
    | [] => misused call 1 "missing operand"
    | _ :: _ :: _ :: extra :: _ => misused call 1 ("extra operand " ++ quoted extra)
    | words =>
      let endless := words.getLast? = some "inf"
      let words := if endless then words.dropLast ++ ["9999999999"] else words
      match words.find? fun w => (Fraction.read? w).isNone with
      | some w => misused call 1 ("invalid floating point argument: " ++ quoted w)
      | none =>
        let one : Fraction := ⟨1, 0⟩
        let (first, step, last) := match words.filterMap Fraction.read? with
          | [last] => (one, one, last)
          | [first, last] => (first, one, last)
          | [first, step, last] => (first, step, last)
          | _ => (one, one, one)
        if step.units = 0 then
          misused call 1 ("invalid Zero increment value: " ++ quoted (words[1]?.getD ""))
        else
          let fine := max first.places (max step.places last.places)
          let places := max first.places step.places
          let scale := Fraction.power (fine - places)
          let horizon := (← get).horizon
          let lastUnits := if endless then first.atPlaces fine + horizon * Fraction.power fine
            else last.atPlaces fine
          let units := (sequenceUnits (first.atPlaces fine) (step.atPlaces fine) lastUnits).map
            fun n => n / scale
          let plain := Fraction.shown 0 places
          let width :=
            if o.has 'w' then
              max (plain (first.atPlaces places)).length
                (plain (if last.places > places then last.atPlaces fine / scale
                  else last.atPlaces places)).length
            else 0
          let separator := (o.last? 's').getD "\n"
          let format := (o.last? 'f').map numberFormat
          match format with
          | some (.error text) =>
            complain call text
            return 1
          | _ =>
            let write (n : Int) : String := match format with
              | some (.ok (before, d, after)) =>
                before ++ d.floating (Fraction.toFloating places n) ++ after
              | _ => Fraction.shown width places n
            let texts := units.map write
            if texts.isEmpty then return 0
            else
              let body := (texts.drop 1).foldl (fun s t => s ++ separator ++ t) (texts.headD "")
              let status ← finish call (body ++ "\n") 0
              if endless then Work.stop .endless else return status

end KnightLang.Host.Utility
