import KnightLang.Host.Regex.Reader
import KnightLang.Text.Decimal
import KnightLang.Host.Utility.Basic

namespace KnightLang.Host.Utility.Expression

open Kernel (Call Work)

def number? (s : String) : Option Int :=
  match s.toList with
  | [] => none
  | '-' :: ds => if !ds.isEmpty && ds.all Char.isDigit then some (-(Decimal.value ds : Int)) else none
  | ds => if ds.all Char.isDigit then some (Decimal.value ds) else none

def isNull (s : String) : Bool :=
  s.isEmpty ||
    let ds := if s.startsWith "-" then s.toList.drop 1 else s.toList
    !ds.isEmpty && ds.all (· = '0')

def truth (b : Bool) : String := if b then "1" else "0"

structure State where
  rest : List String
  last : String := ""

abbrev Reader : Type → Type := StateT State (Except String)

def next? (words : List String) : Reader (Option String) := do
  match (← get).rest with
  | w :: rest =>
    if words.contains w then
      set { rest, last := w : State }
      return some w
    else return none
  | [] => return none

def argument : Reader String := do
  let s ← get
  match s.rest with
  | w :: rest =>
    set { rest, last := w : State }
    return w
  | [] => throw ("syntax error: missing argument after " ++ quoted s.last)

def matched (text pattern : String) : Except String String :=
  match Regex.read { emptyRanges := true } pattern with
  | .error f => .error f.text
  | .ok w =>
    let cs := text.toList.toArray
    match w.regex.matchAt { text := cs } 0 with
    | some p =>
      if w.groups = 0 then .ok (Decimal.ofNat p.position)
      else .ok (match p.group? 1 with
        | some (first, last) => String.ofList (cs.extract first last).toList
        | none => "")
    | none => .ok (if w.groups = 0 then "0" else "")

def part (text first length : String) : String :=
  match number? first, number? length with
  | some i, some n =>
    if i ≤ 0 || n ≤ 0 then "" else String.ofList ((text.toList.drop (i.toNat - 1)).take n.toNat)
  | _, _ => ""

def position (text chars : String) : Nat :=
  match text.toList.findIdx? (chars.toList.contains ·) with
  | some i => i + 1
  | none => 0

def compare (op a b : String) : Bool :=
  let order := match number? a, number? b with
    | some i, some j => Ord.compare i j
    | _, _ => Ord.compare a b
  match op with
  | "<" => order.isLT
  | "<=" => order.isLE
  | "=" | "==" => order.isEq
  | "!=" => order.isNe
  | ">=" => order.isGE
  | _ => order.isGT

def calculate (op a b : String) : Except String String := do
  let (some i, some j) := (number? a, number? b) | throw "non-integer argument"
  match op with
  | "+" => return Decimal.ofInt (i + j)
  | "-" => return Decimal.ofInt (i - j)
  | "*" => return Decimal.ofInt (i * j)
  | _ =>
    if j = 0 then throw "division by zero"
    else return Decimal.ofInt (if op = "/" then i.tdiv j else i.tmod j)

inductive Level
  | either
  | both
  | comparison
  | sum
  | product
  | pattern
  | word

def Level.operators : Level → List String
  | either => ["|"]
  | both => ["&"]
  | comparison => ["<", "<=", "=", "==", "!=", ">=", ">"]
  | sum => ["+", "-"]
  | product => ["*", "/", "%"]
  | pattern => [":"]
  | word => []

def Level.tighter : Level → Level
  | either => both
  | both => comparison
  | comparison => sum
  | sum => product
  | product => pattern
  | pattern | word => word

def combine (live : Bool) (op a b : String) : Except String String :=
  match op with
  | "|" => return if !isNull a then a else if isNull b then "0" else b
  | "&" => return if isNull a || isNull b then "0" else a
  | ":" => if live then matched a b else return a
  | "+" | "-" | "*" | "/" | "%" => if live then calculate op a b else return a
  | op => return if live then truth (compare op a b) else "0"

mutual

def value : Nat → Level → Bool → Reader String
  | 0, _, _ => return ""
  | fuel + 1, .word, live => do
    if (← next? ["+"]).isSome then argument
    else
      match ← next? ["length", "match", "index", "substr"] with
      | some "length" => return Decimal.ofNat (← value fuel .word live).length
      | some "match" => do
        let a ← value fuel .word live
        let b ← value fuel .word live
        liftM (combine live ":" a b)
      | some "index" => do
        let a ← value fuel .word live
        let b ← value fuel .word live
        return Decimal.ofNat (position a b)
      | some _ => do
        let a ← value fuel .word live
        let first ← value fuel .word live
        let length ← value fuel .word live
        return part a first length
      | none =>
        if (← get).rest.isEmpty then argument
        else if (← next? ["("]).isSome then do
          let v ← value fuel .either live
          if (← next? [")"]).isSome then return v
          else
            let s ← get
            match s.rest with
            | [] => throw ("syntax error: expecting ')' after " ++ quoted s.last)
            | w :: _ => throw ("syntax error: expecting ')' instead of " ++ quoted w)
        else if (← next? [")"]).isSome then throw "syntax error: unexpected ')'"
        else argument
  | fuel + 1, level, live => do
    let v ← value fuel level.tighter live
    continued fuel level live v

def continued : Nat → Level → Bool → String → Reader String
  | 0, _, _, v => return v
  | fuel + 1, level, live, v => do
    match ← next? level.operators with
    | none => return v
    | some op =>
      let needed := match op with
        | "|" => isNull v
        | "&" => !isNull v
        | _ => true
      let w ← value fuel level.tighter (live && needed)
      continued fuel level live (← liftM (combine live op v w))

end

def ofArguments (words : List String) : Except String String := do
  let (v, s) ← (value (10 * words.length + 20) .either true).run { rest := words }
  match s.rest with
  | [] => return v
  | w :: _ => throw ("syntax error: unexpected argument " ++ quoted w)

end Expression

open Kernel (Work)

def expression : Kernel.Program := fun call => do
  let words := match call.arguments.drop 1 with
    | "--" :: rest => rest
    | words => words
  if words.isEmpty then misused call 2 "missing operand"
  else
    match Expression.ofArguments words with
    | .error text =>
      complain call text
      return 2
    | .ok v => finishWith call 3 (v ++ "\n") (if Expression.isNull v then 1 else 0)

end KnightLang.Host.Utility
