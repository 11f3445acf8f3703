import KnightLang.Host.Text.Floating

namespace KnightLang.Host

structure Directive where
  flags : List Char := []
  width : Nat := 0
  precision : Option Nat := none
  conversion : Char := 's'
  deriving Repr

namespace Directive

def withWidth (d : Directive) (n : Int) : Directive :=
  if n < 0 then { d with flags := '-' :: d.flags, width := n.natAbs }
  else { d with width := n.natAbs }

def fill (d : Directive) (s : String) : String :=
  let blanks := "".pushn ' ' (d.width - s.length)
  if d.flags.contains '-' then s ++ blanks else blanks ++ s

def fillNumber (d : Directive) (zeros : Bool) (front digits : String) : String :=
  if zeros && d.flags.contains '0' && !d.flags.contains '-' then
    front ++ "".pushn '0' (d.width - front.length - digits.length) ++ digits
  else d.fill (front ++ digits)

def text (d : Directive) (s : String) : String :=
  d.fill (match d.precision with
    | some n => (s.take n).copy
    | none => s)

def sign (d : Directive) (negative : Bool) : String :=
  if negative then "-"
  else if d.flags.contains '+' then "+"
  else if d.flags.contains ' ' then " "
  else ""

def inBase (base n : Nat) : String := String.ofList (Nat.toDigits base n)

def precise (d : Directive) (digits : String) : String :=
  match d.precision with
  | none => digits
  | some 0 => if digits = "0" then "" else digits
  | some n => "".pushn '0' (n - digits.length) ++ digits

def integer (d : Directive) (n : Int) : String :=
  let zeros := d.precision.isNone
  let low := (n % 0x10000000000000000).toNat
  let marked := d.flags.contains '#' && low ≠ 0
  match d.conversion with
  | 'o' =>
    let s := d.precise (inBase 8 low)
    d.fillNumber zeros "" (if d.flags.contains '#' && !s.startsWith "0" then "0" ++ s else s)
  | 'x' => d.fillNumber zeros (if marked then "0x" else "") (d.precise (inBase 16 low))
  | 'X' => d.fillNumber zeros (if marked then "0X" else "") (d.precise (inBase 16 low).toUpper)
  | 'u' => d.fillNumber zeros "" (d.precise (Decimal.ofNat low))
  | _ => d.fillNumber zeros (d.sign (n < 0)) (d.precise (Decimal.ofNat n.natAbs))

def floating (d : Directive) (f : Floating) : String :=
  let upper := d.conversion.isUpper
  let keep := d.flags.contains '#'
  let places := d.precision.getD 6
  let body :=
    match f with
    | .infinite _ => "inf"
    | .nan _ => "nan"
    | f =>
      match d.conversion.toLower with
      | 'e' => f.scientific places keep
      | 'g' => f.general places keep
      | 'a' => f.hexadecimal d.precision keep
      | _ => f.fixed places keep
  let body := if upper then body.toUpper else body
  d.fillNumber f.isFinite (d.sign f.isNegative) body

end Directive

end KnightLang.Host
