import KnightLang.Text.Decimal
import KnightLang.Text.Quoted

namespace KnightLang.Host

inductive Floating
  | finite (negative : Bool) (significand : Nat) (exponent : Int)
  | infinite (negative : Bool)
  | nan (negative : Bool)
  deriving DecidableEq, Repr

namespace Floating

def power (base n : Nat) : Nat := Nat.pow base n

def roundedQuotient (a b : Nat) : Nat :=
  let q := a / b
  let r := a % b
  if 2 * r > b || (2 * r = b && q % 2 = 1) then q + 1 else q

def magnitude (n : Nat) : Nat := Nat.log2 n

def ofFraction (bits : Nat) (negative : Bool) (a b : Nat) : Floating :=
  if a = 0 then finite negative 0 0
  else
    let e : Int := (magnitude a : Int) - magnitude b - bits
    let at' (e : Int) : Nat :=
      if 0 ≤ e then roundedQuotient a (b * power 2 e.toNat)
      else roundedQuotient (a * power 2 (-e).toNat) b
    let m := at' e
    if m < power 2 bits then finite negative m e
    else
      let m := at' (e + 1)
      finite negative m (e + 1)

def fraction : Floating → Nat × Nat
  | finite _ m e => if 0 ≤ e then (m * power 2 e.toNat, 1) else (m, power 2 (-e).toNat)
  | _ => (0, 1)

def isNegative : Floating → Bool
  | finite negative _ _ | infinite negative | nan negative => negative

def isFinite : Floating → Bool
  | finite _ _ _ => true
  | _ => false

/-! ### Reading -/

def isBlank (c : Char) : Bool := c = ' ' || (9 ≤ c.toNat && c.toNat ≤ 13)

def readPointed (value? : Char → Option Nat) (base : Nat) (cs : List Char) :
    Nat × Nat × Nat × List Char :=
  let whole := cs.takeWhile fun c => (value? c).isSome
  let rest := cs.drop whole.length
  let part := match rest with
    | '.' :: more => more.takeWhile fun c => (value? c).isSome
    | _ => []
  let n := (whole ++ part).foldl (fun n c => base * n + (value? c).getD 0) 0
  let rest := match rest with
    | '.' :: more => if whole.isEmpty && part.isEmpty then rest else more.drop part.length
    | _ => rest
  (n, part.length, whole.length + part.length, rest)

def readExponent (letters : List Char) (cs : List Char) : Int × List Char :=
  match cs with
  | c :: rest =>
    if letters.contains c then
      let (negative, digits) := match rest with
        | '-' :: ds => (true, ds)
        | '+' :: ds => (false, ds)
        | ds => (false, ds)
      let ds := digits.takeWhile Char.isDigit
      if ds.isEmpty then (0, cs)
      else
        let n : Int := ds.foldl (fun n c => 10 * n + (c.toNat - 48)) 0
        (if negative then -n else n, digits.drop ds.length)
    else (0, cs)
  | [] => (0, [])

def startsWithWord (word : String) (cs : List Char) : Bool :=
  (cs.take word.length).map Char.toLower = word.toList

def read (bits : Nat) (cs : List Char) : Option (Floating × List Char) :=
  let (negative, cs) := match cs.dropWhile isBlank with
    | '-' :: rest => (true, rest)
    | '+' :: rest => (false, rest)
    | rest => (false, rest)
  if startsWithWord "infinity" cs then some (infinite negative, cs.drop 8)
  else if startsWithWord "inf" cs then some (infinite negative, cs.drop 3)
  else if startsWithWord "nan" cs then some (nan negative, cs.drop 3)
  else
    let hexadecimal :=
      match cs with
      | '0' :: x :: rest =>
        if x = 'x' || x = 'X' then
          let (n, places, count, rest) := readPointed Text.hexValue 16 rest
          if count = 0 then none
          else
            let (e, rest) := readExponent ['p', 'P'] rest
            let e := e - 4 * places
            some (if 0 ≤ e then ofFraction bits negative (n * power 2 e.toNat) 1
              else ofFraction bits negative n (power 2 (-e).toNat), rest)
        else none
      | _ => none
    match hexadecimal with
    | some found => some found
    | none =>
      let digit (c : Char) : Option Nat := if c.isDigit then some (c.toNat - 48) else none
      let (n, places, count, rest) := readPointed digit 10 cs
      if count = 0 then none
      else
        let (e, rest) := readExponent ['e', 'E'] rest
        let e := e - places
        if n = 0 then some (finite negative 0 0, rest)
        else if e > 20000 then some (infinite negative, rest)
        else if e < -20000 then some (finite negative 0 0, rest)
        else
          some (if 0 ≤ e then ofFraction bits negative (n * power 10 e.toNat) 1
            else ofFraction bits negative n (power 10 (-e).toNat), rest)

/-! ### Writing the absolute value -/

def digits (least n : Nat) : String :=
  let s := Decimal.ofNat n
  "".pushn '0' (least - s.length) ++ s

def fixed (places : Nat) (point : Bool) (f : Floating) : String :=
  let (a, b) := f.fraction
  let s := digits (places + 1) (roundedQuotient (a * power 10 places) b)
  let whole := (s.take (s.length - places)).copy
  if places = 0 then (if point then whole ++ "." else whole)
  else whole ++ "." ++ (s.drop (s.length - places)).copy

def decimalExponent (a b : Nat) : Int :=
  let estimate : Int := (((magnitude a : Int) - magnitude b) * 1233) / 4096 - 2
  let atLeast (k : Int) : Bool :=
    if 0 ≤ k then a ≥ b * power 10 k.toNat else a * power 10 (-k).toNat ≥ b
  let rec climb : Nat → Int → Int
    | 0, k => k
    | fuel + 1, k => if atLeast (k + 1) then climb fuel (k + 1) else k
  climb 8 estimate

def leading (places : Nat) (f : Floating) : Nat × Int :=
  let (a, b) := f.fraction
  if a = 0 then (0, 0)
  else
    let k := decimalExponent a b
    let at' (k : Int) : Nat :=
      let shift : Int := places - k
      if 0 ≤ shift then roundedQuotient (a * power 10 shift.toNat) b
      else roundedQuotient a (b * power 10 (-shift).toNat)
    let n := at' k
    if n ≥ power 10 (places + 1) then (at' (k + 1), k + 1) else (n, k)

def scientific (places : Nat) (point : Bool) (f : Floating) : String :=
  let (n, k) := f.leading places
  let s := digits (places + 1) n
  let mantissa :=
    if places = 0 then (if point then s ++ "." else s)
    else (s.take 1).copy ++ "." ++ (s.drop 1).copy
  mantissa ++ "e" ++ (if k < 0 then "-" else "+") ++ digits 2 k.natAbs

def withoutZeros (s : String) : String :=
  if s.contains '.' then
    let cs := s.toList.reverse.dropWhile (· = '0')
    String.ofList (if cs.head? = some '.' then cs.drop 1 else cs).reverse
  else s

def general (precision : Nat) (keep : Bool) (f : Floating) : String :=
  let p := if precision = 0 then 1 else precision
  let (_, k) := f.leading (p - 1)
  if k < -4 || k ≥ p then
    let s := f.scientific (p - 1) keep
    if keep then s
    else
      match s.splitOn "e" with
      | [mantissa, e] => withoutZeros mantissa ++ "e" ++ e
      | _ => s
  else
    let s := f.fixed (p - 1 - k).toNat keep
    if keep then s else withoutZeros s

def hexDigit (n : Nat) : Char := Nat.digitChar n

def hexadecimal (places? : Option Nat) (point : Bool) (f : Floating) : String :=
  match f with
  | finite _ m e =>
    let (m, e) :=
      if m = 0 then (0, 0)
      else
        let shift := 52 - magnitude m
        (m * power 2 shift, e - shift + 52)
    let places := places?.getD 13
    let m := roundedQuotient m (power 16 (13 - places))
    let rec go : Nat → Nat → List Char
      | 0, _ => []
      | count + 1, n => hexDigit (n % 16) :: go count (n / 16)
    let part := (go (min places 13) m).reverse ++ List.replicate (places - 13) '0'
    let part := if places?.isNone then (part.reverse.dropWhile (· = '0')).reverse else part
    let whole := m / power 16 (min places 13)
    "0x" ++ Decimal.ofNat whole ++
      (if part.isEmpty then (if point then "." else "") else "." ++ String.ofList part) ++
      "p" ++ (if e < 0 then "-" else "+") ++ Decimal.ofNat e.natAbs
  | _ => ""

end Floating

end KnightLang.Host
