import KnightLang.Host.Shell.Places
import KnightLang.Host.Shell.Printf
import KnightLang.Host.Shell.Test
import KnightLang.Host.Utility.Basic

namespace KnightLang.Host.Utility

open Kernel (Call Work)
open Shell (Escape.octal Printf.run Test.evaluate)

/-! ### Printing -/

def hexDigits (most : Nat) (cs : List Char) : List Char :=
  (cs.take most).takeWhile fun c => c.isDigit || ('a' ≤ c && c ≤ 'f') || ('A' ≤ c && c ≤ 'F')

def hexNumber (cs : List Char) : Nat :=
  cs.foldl (fun n c => 16 * n +
    (if c.isDigit then c.toNat - 48 else c.toLower.toNat - 87)) 0

def unescaped : Nat → String → List Char → String × Bool
  | 0, done, _ => (done, false)
  | _, done, [] => (done, false)
  | fuel + 1, done, '\\' :: c :: rest =>
    let one (d : Char) := unescaped fuel (done.push d) rest
    match c with
    | 'a' => one '\x07'
    | 'b' => one '\x08'
    | 'c' => (done, true)
    | 'e' => one '\x1b'
    | 'f' => one '\x0c'
    | 'n' => one '\n'
    | 'r' => one '\r'
    | 't' => one '\t'
    | 'v' => one '\x0b'
    | '\\' => one '\\'
    | 'x' =>
      match hexDigits 2 rest with
      | [] => unescaped fuel ((done.push '\\').push 'x') rest
      | ds => unescaped fuel (done.push (Char.ofNat (hexNumber ds))) (rest.drop ds.length)
    | '0' =>
      let (d, rest) := Escape.octal 3 rest
      unescaped fuel (done.push d) rest
    | c =>
      if '1' ≤ c && c ≤ '7' then
        let (d, rest) := Escape.octal 3 (c :: rest)
        unescaped fuel (done.push d) rest
      else unescaped fuel ((done.push '\\').push c) rest
  | fuel + 1, done, c :: rest => unescaped fuel (done.push c) rest

def echoOptions : Bool × Bool → List String → (Bool × Bool) × List String
  | flags, [] => (flags, [])
  | (bare, escapes), w :: rest =>
    match w.toList with
    | '-' :: c :: cs =>
      if (c :: cs).all fun c => c = 'n' || c = 'e' || c = 'E' then
        let last := ((c :: cs).reverse.find? fun c => c ≠ 'n')
        echoOptions (bare || (c :: cs).contains 'n', (last.map (· == 'e')).getD escapes) rest
      else ((bare, escapes), w :: rest)
    | _ => ((bare, escapes), w :: rest)

def echo : Kernel.Program := fun call => do
  let ((bare, escapes), words) := echoOptions (false, false) (call.arguments.drop 1)
  let text := " ".intercalate words
  let (text, stopped) := if escapes then unescaped (text.length + 1) "" text.toList else (text, false)
  finish call (if bare || stopped then text else text ++ "\n") 0

def printFormat : Kernel.Program := fun call => do
  match call.arguments.drop 1 with
  | [] => misused call 1 "missing operand"
  | first :: rest =>
    match (if first = "--" then rest else first :: rest) with
    | [] => misused call 1 "missing operand"
    | format :: words =>
      let (ended, p) := Printf.run format words
      for w in p.warnings.reverse do
        let name := (w.splitOn ": ").headD ""
        complain call (quoted name ++
          (if w.endsWith "expected numeric value" then ": expected a numeric value"
            else if w.endsWith "not completely converted" then ": value not completely converted"
            else ": Numerical result out of range"))
      let status ← match ended with
        | .faulty message => do
          complain call (((message.splitOn ": ").headD "") ++ ": invalid conversion specification")
          pure 1
        | _ => pure (if p.warnings.isEmpty then 0 else 1)
      finish call p.printed status

def yes : Kernel.Program := fun call =>
  withOptions call 1 { letters := "" } fun o => do
    let line := (if o.operands.isEmpty then "y" else " ".intercalate o.operands) ++ "\n"
    let horizon := (← get).horizon
    let text := join (List.replicate (horizon / line.length + 1) line)
    match ← Work.write 1 text with
    | none => Work.stop .endless
    | some f =>
      complain call ("standard output: " ++ f.text)
      return 1

/-! ### Paths -/

def withoutEnding (ending s : String) : String :=
  if s.endsWith ending && s ≠ ending then (s.dropEnd ending.length).copy else s

def baseName : Kernel.Program := fun call =>
  let known : Options.Known :=
    { letters := "as:z", names := [("multiple", 'a'), ("suffix", 's'), ("zero", 'z')],
      anywhere := false }
  withOptions call 1 known fun o => do
    let lineEnd := if o.has 'z' then "\x00" else "\n"
    let several := o.has 'a' || o.has 's'
    match o.operands with
    | [] => misused call 1 "missing operand"
    | path :: rest =>
      if several then
        let ending := (o.last? 's').getD ""
        finish call (join (o.operands.map fun p => withoutEnding ending (lastPart p) ++ lineEnd)) 0
      else
        match rest with
        | [] => finish call (lastPart path ++ lineEnd) 0
        | [ending] => finish call (withoutEnding ending (lastPart path) ++ lineEnd) 0
        | _ :: extra :: _ => misused call 1 ("extra operand " ++ quoted extra)

def dirName : Kernel.Program := fun call =>
  withOptions call 1 { letters := "z", names := [("zero", 'z')] } fun o => do
    if o.operands.isEmpty then misused call 1 "missing operand"
    else
      finish call
        (join (o.operands.map fun p => firstParts p ++ (if o.has 'z' then "\x00" else "\n"))) 0

/-! ### Time -/

def duration? (s : String) : Option Nat :=
  let cs := s.toList
  let whole := cs.takeWhile Char.isDigit
  let rest := cs.drop whole.length
  let (part, rest) := match rest with
    | '.' :: rest => (rest.takeWhile Char.isDigit, rest.dropWhile Char.isDigit)
    | rest => ([], rest)
  if whole.isEmpty && part.isEmpty then none
  else
    let micro := Decimal.value (part.take 6 ++ List.replicate (6 - part.length) '0')
    let time := 1000000 * Decimal.value whole + micro
    match rest with
    | [] | ['s'] => some time
    | ['m'] => some (60 * time)
    | ['h'] => some (3600 * time)
    | ['d'] => some (86400 * time)
    | _ => none

def sleep : Kernel.Program := fun call =>
  withOptions call 1 { letters := "" } fun o => do
    match o.operands with
    | [] => misused call 1 "missing operand"
    | words =>
      let wrong := words.filter fun w => (duration? w).isNone && w ≠ "infinity" && w ≠ "inf"
      if wrong.isEmpty then
        if words.any fun w => (duration? w).isNone then Work.stop .endless
        else
          Work.sleep (words.foldl (fun n w => n + (duration? w).getD 0) 0)
          return 0
      else
        for w in wrong do complain call ("invalid time interval " ++ quoted w)
        askForHelp call
        return 1

/-! ### The system -/

def printDirectory : Kernel.Program := fun call =>
  withOptions call 1 { letters := "LP", names := [("logical", 'L'), ("physical", 'P')] } fun o => do
    let path := (← Work.files).pathOf (← read).directory
    let named := ((call.environment.lookup "PWD").filter fun p => p.startsWith "/").getD path
    finish call ((if o.lastOf? ['L', 'P'] = some 'L' then named else path) ++ "\n") 0

def printVariables : Kernel.Program := fun call =>
  withOptions call 2 { letters := "0", names := [("null", '0')], anywhere := false } fun o => do
    let lineEnd := if o.has '0' then "\x00" else "\n"
    if o.operands.isEmpty then
      finish call (join (call.environment.map fun (name, value) => name ++ "=" ++ value ++ lineEnd)) 0
    else
      let values := o.operands.map fun name => call.environment.lookup name
      finish call (join (values.filterMap fun v => v.map (· ++ lineEnd)))
        (if values.all (·.isSome) then 0 else 1)

def whoAmI : Kernel.Program := fun call =>
  withOptions call 1 { letters := "" } fun _ => finish call "root\n" 0

def identity : Kernel.Program := fun call =>
  withOptions call 1 { letters := "aGgnruz" } fun o => do
    match o.lastOf? ['u', 'g', 'G'] with
    | none => finish call "uid=0(root) gid=0(root) groups=0(root)\n" 0
    | some _ => finish call (if o.has 'n' then "root\n" else "0\n") 0

def systemName : Kernel.Program := fun call =>
  withOptions call 1 { letters := "asnrvmpio" } fun o => do
    let parts : List (Char × String) :=
      [('s', "Linux"), ('n', "localhost"), ('r', "6.1.0"), ('v', "#1 SMP"), ('m', "x86_64"),
        ('o', "GNU/Linux")]
    let shown := parts.filter fun (c, _) => o.has 'a' || o.has c || (o.found.isEmpty && c = 's')
    finish call (" ".intercalate (shown.map (·.2)) ++ "\n") 0

def fixedAnswer (text : String) (status : Nat) : Kernel.Program := fun call =>
  withOptions call 1 { letters := "s" } fun _ => finish call text status

/-! ### Conditions -/

def condition (bracketed : Bool) : Kernel.Program := fun call => do
  let words := call.arguments.drop 1
  let words? := if !bracketed then some words
    else if words.getLast? = some "]" then some words.dropLast else none
  match words? with
  | none =>
    complain call "missing ']'"
    return 2
  | some words =>
    match ← (Test.evaluate words).run with
    | .ok holds => return if holds then 0 else 1
    | .error message =>
      complain call message
      return 2

def which : Kernel.Program := fun call =>
  withOptions call 2 { letters := "as", anywhere := false } fun o => do
    let path := (call.environment.lookup "PATH").getD ""
    let mut text := ""
    let mut status := if o.operands.isEmpty then 1 else 0
    for name in o.operands do
      match ← Work.search path name with
      | .ok found =>
        match ← Work.programAt (fun _ => some fun _ => return 0) 8 found with
        | .ok _ => text := text ++ found ++ "\n"
        | .error _ => status := 1
      | .error _ => status := 1
    finish call text status

end KnightLang.Host.Utility
