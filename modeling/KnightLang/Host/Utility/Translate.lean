import KnightLang.Host.Shell.Escape
import KnightLang.Host.Text.CharClass
import KnightLang.Host.Utility.Basic

namespace KnightLang.Host.Utility

open Kernel (Call Work)
open Shell (Escape.isOctal Escape.octal)

inductive SetPart
  | one (c : Char)
  | range (first last : Char)
  | named (name : String)
  | equivalent (c : Char)
  | repeated (c : Char) (count : Option Nat)

namespace SetPart

def members : SetPart → List Char
  | one c | equivalent c => [c]
  | range a b => (List.range (b.toNat + 1 - a.toNat)).map fun i => Char.ofNat (a.toNat + i)
  | named name => (CharClass.members? name).getD []
  | repeated c count => List.replicate (count.getD 0) c

def decoded : Nat → List Char → List (Char × Bool)
  | 0, _ | _, [] => []
  | fuel + 1, '\\' :: c :: rest =>
    let one (d : Char) := (d, true) :: decoded fuel rest
    match c with
    | 'a' => one '\x07'
    | 'b' => one '\x08'
    | 'f' => one '\x0c'
    | 'n' => one '\n'
    | 'r' => one '\r'
    | 't' => one '\t'
    | 'v' => one '\x0b'
    | c =>
      if Escape.isOctal c then
        let (d, rest) := Escape.octal 3 (c :: rest)
        (d, true) :: decoded fuel rest
      else one c
  | fuel + 1, c :: rest => (c, false) :: decoded fuel rest

def enclosed (mark : Char) (cs : List (Char × Bool)) : Option (String × List (Char × Bool)) :=
  go (cs.length + 1) [] cs
where
  go : Nat → List Char → List (Char × Bool) → Option (String × List (Char × Bool))
    | 0, _, _ => none
    | fuel + 1, found, (a, ae) :: (b, be) :: rest =>
      if a = mark && !ae && b = ']' && !be then some (String.ofList found.reverse, rest)
      else go fuel (a :: found) ((b, be) :: rest)
    | _ + 1, _, _ => none

def readRepeated : List (Char × Bool) → Option (SetPart × List (Char × Bool))
  | (c, _) :: ('*', false) :: rest =>
    let ds := rest.takeWhile fun d => d.1.isDigit
    match rest.drop ds.length with
    | (']', false) :: rest =>
      let digits := ds.map (·.1)
      let base := if digits.head? = some '0' then 8 else 10
      let n := digits.foldl (fun n d => base * n + (d.toNat - 48)) 0
      some (repeated c (if n = 0 then none else some n), rest)
    | _ => none
  | _ => none

def shownByte (c : Char) : String :=
  if ' ' ≤ c && c.toNat < 127 then String.singleton c
  else
    let digits := String.ofList (Nat.toDigits 8 c.toNat)
    "\\" ++ "".pushn '0' (3 - digits.length) ++ digits

def parts : Nat → List (Char × Bool) → Except String (List SetPart)
  | 0, _ | _, [] => .ok []
  | fuel + 1, ('[', false) :: (':', false) :: rest =>
    match enclosed ':' rest with
    | some (name, rest) =>
      if (CharClass.members? name).isNone then .error ("invalid character class " ++ "'" ++ name ++ "'")
      else do return named name :: (← parts fuel rest)
    | none => do return one '[' :: (← parts fuel ((':', false) :: rest))
  | fuel + 1, ('[', false) :: ('=', false) :: rest =>
    match enclosed '=' rest with
    | some (name, rest) =>
      match name.toList with
      | [c] => do return equivalent c :: (← parts fuel rest)
      | _ => .error (name ++ ": equivalence class operand must be a single character")
    | none => do return one '[' :: (← parts fuel (('=', false) :: rest))
  | fuel + 1, (a, ae) :: rest =>
    match (if a = '[' && !ae then readRepeated rest else none) with
    | some (p, rest) => do return p :: (← parts fuel rest)
    | none =>
      match rest with
      | ('-', false) :: (b, _) :: rest =>
        if b < a then
          .error ("range-endpoints of '" ++ shownByte a ++ "-" ++ shownByte b ++
            "' are in reverse collating sequence order")
        else do return range a b :: (← parts fuel rest)
      | rest => do return one a :: (← parts fuel rest)

def ofString (s : String) : Except String (List SetPart) :=
  let cs := decoded (s.length + 1) s.toList
  parts (cs.length + 1) cs

def all (ps : List SetPart) : List Char := ps.flatMap members

def filled (length : Nat) (ps : List SetPart) : List Char :=
  let known := (all ps).length
  ps.flatMap fun p => match p with
    | repeated c none => List.replicate (length - known) c
    | p => p.members

end SetPart

def squeeze (set : Char → Bool) (s : String) : String :=
  (s.foldl (fun ((t, before) : String × Option Char) c =>
    if before = some c && set c then (t, before) else (t.push c, some c)) ("", none)).1

def pairs (first second : List SetPart) : List Char × List Char :=
  let (a, b) := (first.zip second).foldl (fun ((a, b) : List Char × List Char) (p, q) =>
    match p, q with
    | .named x, .named y =>
      if (x = "upper" && y = "lower") || (x = "lower" && y = "upper") then
        (a ++ p.members, b ++ q.members)
      else (a ++ p.members, b ++ q.members)
    | p, q => (a ++ p.members, b ++ q.members)) ([], [])
  (a ++ SetPart.all (first.drop second.length), b ++ SetPart.all (second.drop first.length))

def translate : Kernel.Program := fun call =>
  let known : Options.Known :=
    { letters := "cCdst", anywhere := false,
      names := [("complement", 'c'), ("delete", 'd'), ("squeeze-repeats", 's'),
        ("truncate-set1", 't')] }
  withOptions call 1 known fun o => do
    let complement := o.has 'c' || o.has 'C'
    let deletes := o.has 'd'
    let squeezes := o.has 's'
    let most := if deletes && !squeezes then 1 else 2
    let least := if deletes = squeezes then 2 else 1
    match o.operands with
    | [] => misused call 1 "missing operand"
    | operands =>
      if operands.length < least then do
        complain call ("missing operand after " ++ quoted (operands.headD ""))
        Work.complain (if squeezes then
            "Two strings must be given when both deleting and squeezing repeats.\n"
          else "Two strings must be given when translating.\n")
        askForHelp call
        return 1
      else if most < operands.length then do
        complain call ("extra operand " ++ quoted (operands[most]?.getD ""))
        if most = 1 && operands.length = 2 then
          Work.complain "Only one string may be given when deleting without squeezing repeats.\n"
        askForHelp call
        return 1
      else
        match SetPart.ofString (operands[0]?.getD ""), SetPart.ofString (operands[1]?.getD "") with
        | .error text, _ | _, .error text =>
          complain call text
          return 1
        | .ok first, .ok second =>
          let translating := operands.length = 2 && !deletes
          let named := SetPart.all first
          let inFirst : Array Bool := named.foldl (fun a c => a.setIfInBounds c.toNat true)
            (Array.replicate 256 false)
          let belongs (c : Char) : Bool := (inFirst[c.toNat]?).getD false ≠ complement
          let source := if complement
            then ((List.range 256).map Char.ofNat).filter belongs else named
          let target := SetPart.filled source.length second
          if translating && target.isEmpty && !source.isEmpty then
            complain call "when not truncating set1, string2 must be non-empty"
            return 1
          else
            let last := target.getLast?.getD '\x00'
            let target' := if o.has 't' then target
              else target ++ List.replicate (source.length - target.length) last
            let table : Array Char := (source.zip target').foldl
              (fun a (c, d) => a.setIfInBounds c.toNat d) ((List.range 256).map Char.ofNat).toArray
            let inSecond := (if operands.length = 2 then target else []).toArray
            match ← Work.readAll 0 true with
            | .error f =>
              complain call ("read error: " ++ f.text)
              return 1
            | .ok s =>
              let s := if deletes then s.foldl (fun t c => if belongs c then t else t.push c) ""
                else if translating then s.foldl (fun t c => t.push ((table[c.toNat]?).getD c)) ""
                else s
              let s :=
                if !squeezes then s
                else if operands.length = 2 then squeeze inSecond.contains s
                else squeeze belongs s
              finish call s 0

end KnightLang.Host.Utility
