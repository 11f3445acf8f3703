namespace KnightLang.Host.Rights

def octal (least n : Nat) : String :=
  let digits := String.ofList (Nat.toDigits 8 n)
  "".pushn '0' (least - digits.length) ++ digits

def ofOctal? (s : String) : Option Nat :=
  let cs := s.toList
  if !cs.isEmpty && cs.all (fun c => '0' ≤ c && c ≤ '7') then
    some (cs.foldl (fun n c => 8 * n + (c.toNat - 48)) 0)
  else none

def shown (rights : Nat) : String :=
  let part (unit special : Nat) (c : Char) : List Char :=
    let bit (n : Nat) (letter : Char) : Char := if rights &&& (n * unit) ≠ 0 then letter else '-'
    let run := match decide (rights &&& unit ≠ 0), decide (rights &&& special ≠ 0) with
      | true, true => c
      | false, true => c.toUpper
      | true, false => 'x'
      | false, false => '-'
    [bit 4 'r', bit 2 'w', run]
  String.ofList (part 0x40 0x800 's' ++ part 8 0x400 's' ++ part 1 0x200 't')

def shownMask (mask : Nat) : String :=
  ",".intercalate ([("u", 0x40), ("g", 8), ("o", 1)].map fun (who, unit) =>
    who ++ "=" ++ String.ofList ([('r', 4), ('w', 2), ('x', 1)].filterMap fun (c, bit) =>
      if mask &&& (bit * unit) = 0 then some c else none))

structure Change where
  who : Nat
  op : Char
  letters : List Char
  deriving DecidableEq, Repr

def whose : Char → Option Nat
  | 'a' => some 0x49
  | 'u' => some 0x40
  | 'g' => some 8
  | 'o' => some 1
  | _ => none

def isOperator (c : Char) : Bool := c = '=' || c = '+' || c = '-'

def isRight (c : Char) : Bool := "rwxugoXst".contains c

def readChanges : Nat → Nat → List Char → Option (List Change)
  | 0, _, _ => none
  | _, _, [] => some []
  | fuel + 1, who, cs =>
    let named := cs.takeWhile fun c => (whose c).isSome
    let who := named.foldl (fun n c => n ||| (whose c).getD 0) who
    match cs.drop named.length with
    | [] => none
    | op :: rest =>
      let letters := rest.takeWhile isRight
      if !isOperator op then none
      else
        match rest.drop letters.length with
        | [] => some [{ who, op, letters }]
        | c :: rest =>
          if c = ',' then (readChanges fuel 0 rest).map ({ who, op, letters } :: ·)
          else if isOperator c then (readChanges fuel who (c :: rest)).map ({ who, op, letters } :: ·)
          else none

def changes? (text : String) : Option (List Change) :=
  readChanges (text.length + 1) 0 text.toList

def bits (source : Nat) (isDirectory : Bool) (who : Nat) : Char → Nat
  | 'r' => 4 * who
  | 'w' => 2 * who
  | 'x' => who
  | 'X' => if isDirectory || source &&& 0x49 ≠ 0 then who else 0
  | 'u' => (source / 0x40 &&& 7) * who
  | 'g' => (source / 8 &&& 7) * who
  | 'o' => (source &&& 7) * who
  | 's' => (who &&& 0x40) * 0x20 ||| (who &&& 8) * 0x80
  | 't' => 0x200
  | _ => 0

def Change.apply (c : Change) (mask source : Nat) (isDirectory : Bool) (rights : Nat) : Nat :=
  let who := if c.who = 0 then 0x49 else c.who
  let allowed := if c.who = 0 then 0xfff ^^^ mask else 0xfff
  let given := c.letters.foldl (fun n l => n ||| bits source isDirectory who l) 0 &&& allowed
  match c.op with
  | '+' => rights ||| given
  | '-' => rights &&& (0xfff ^^^ given)
  | _ =>
    let special := if isDirectory then 0 else bits 0 false who 's' ||| 0x200
    given ||| (rights &&& (0xfff ^^^ (7 * who ||| special)))

inductive Setting
  | number (rights : Nat)
  | changes (list : List Change)

def Setting.read? (text : String) : Option Setting :=
  match ofOctal? text with
  | some n => if n ≤ 0xfff then some (.number n) else none
  | none => if text.isEmpty || text.endsWith "," then none else (changes? text).map .changes

def Setting.apply (s : Setting) (mask : Nat) (isDirectory : Bool) (rights : Nat) : Nat :=
  match s with
  | number n => if isDirectory then n ||| (rights &&& 0xc00) else n
  | changes list => list.foldl (fun r c => c.apply mask r isDirectory r) rights

end KnightLang.Host.Rights
