import KnightLang.Host.Utility.Plain

namespace KnightLang.Host.Utility

open Kernel (Call Halt Programs Work)
open Process (Ending)

def becomeOr (programs : Programs) (call inner : Call) (start : String) : Work Nat := do
  match ← Work.become programs inner with
  | .ok status => return status
  | .error f =>
    complain call (start ++ quoted (inner.arguments.headD "") ++ ": " ++ f.text)
    return if f = .missing || f = .notDirectory then 127 else 126

def endAs : Ending → Work Nat
  | .exited n => return n
  | .killed n => Work.stop (.killed n)

/-! ### Environments -/

def setVariable (environment : List (String × String)) (name value : String) :
    List (String × String) :=
  if environment.any (·.1 = name) then
    environment.map fun v => if v.1 = name then (name, value) else v
  else environment ++ [(name, value)]

def assignments (environment : List (String × String)) :
    List String → List (String × String) × List String
  | [] => (environment, [])
  | w :: rest =>
    match w.toList.dropWhile (· ≠ '=') with
    | _ :: value =>
      let name := String.ofList (w.toList.takeWhile (· ≠ '='))
      assignments (setVariable environment name (String.ofList value)) rest
    | [] => (environment, w :: rest)

def environment (programs : Programs) : Kernel.Program := fun call =>
  let known : Options.Known :=
    { letters := "i0u:C:", anywhere := false,
      names := [("ignore-environment", 'i'), ("null", '0'), ("unset", 'u'), ("chdir", 'C')] }
  withOptions call 125 known fun o => do
    let words := if o.operands.head? = some "-" then o.operands.drop 1 else o.operands
    let empty := o.has 'i' || o.operands.head? = some "-"
    let start := if empty then [] else call.environment
    let unset := o.found.filterMap fun (c, a) => if c = 'u' then some a else none
    let (bindings, words) := assignments (start.filter fun v => !unset.contains v.1) words
    let go : Work Nat :=
      if words.isEmpty then
        let lineEnd := if o.has '0' then "\x00" else "\n"
        finishWith call 125
          (join (bindings.map fun (name, value) => name ++ "=" ++ value ++ lineEnd)) 0
      else becomeOr programs call ⟨words, bindings⟩ ""
    match o.last? 'C' with
    | none => go
    | some path =>
      match (← Work.files).find (← read).directory path with
      | .ok id =>
        if (← Work.files).isDirectory id then
          withReader (fun p => { p with directory := id }) go
        else
          complain call ("cannot change directory to " ++ quotedName path ++ ": Not a directory")
          return 125
      | .error f =>
        complain call ("cannot change directory to " ++ quotedName path ++ ": " ++ f.text)
        return 125

/-! ### Other manners of running -/

def runPlainly (programs : Programs) (letters : String) : Kernel.Program := fun call =>
  withOptions call 125 { letters, anywhere := false } fun o => do
    match o.operands with
    | [] => misused call 125 "missing operand"
    | words => becomeOr programs call ⟨words, call.environment⟩ "failed to run command "

def nice (programs : Programs) : Kernel.Program := fun call =>
  let known : Options.Known :=
    { letters := "n:", names := [("adjustment", 'n')], anywhere := false }
  withOptions call 125 known fun o => do
    match o.operands with
    | [] => finish call "0\n" 0
    | words => becomeOr programs call ⟨words, call.environment⟩ ""

def signalNumber? (word : String) : Option Nat :=
  if !word.isEmpty && word.all Char.isDigit then word.toNat?
  else
    let name := word.toUpper
    let name := if name.startsWith "SIG" then (name.drop 3).copy else name
    Process.signalNames.findSome? fun (n, s) => if s = name then some n else none

def timeLimit (programs : Programs) : Kernel.Program := fun call =>
  let known : Options.Known :=
    { letters := "fvk:s:p", anywhere := false,
      names := [("foreground", 'f'), ("verbose", 'v'), ("kill-after", 'k'), ("signal", 's'),
        ("preserve-status", 'p')] }
  withOptions call 125 known fun o => do
    match o.operands with
    | limit :: words@(_ :: _) =>
      match duration? limit with
      | none => misused call 125 ("invalid time interval " ++ quoted limit)
      | some time =>
        let start := (← get).clock
        let ending ← Work.inChild (becomeOr programs call ⟨words, call.environment⟩
          "failed to run command ")
        if time = 0 || (← get).clock ≤ start + time then endAs ending
        else
          modify fun w => w.setClock (start + time)
          let signal := ((o.last? 's').bind signalNumber?).getD 15
          if signal = 9 then Work.stop (.killed 9)
          else return if o.has 'p' then 128 + signal else 124
    | _ =>
      askForHelp call
      return 125

/-! ### Arguments from the input -/

structure Splitting where
  words : Array (String × Nat) := #[]
  current : Option String := none
  line : Nat := 0
  quote : Option Char := none
  escaped : Bool := false
  failed : Bool := false

def Splitting.step (blanks : Bool) (s : Splitting) (c : Char) : Splitting :=
  let add : Splitting := { s with current := some ((s.current.getD "").push c) }
  let close : Splitting := match s.current with
    | some w => { s with words := s.words.push (w, s.line), current := none }
    | none => s
  if s.failed then s
  else if s.escaped then { add with escaped := false }
  else
    match s.quote with
    | some q =>
      if c = q then { s with quote := none }
      else if c = '\n' then { s with failed := true }
      else add
    | none =>
      if c = '\\' then { s with escaped := true, current := some (s.current.getD "") }
      else if c = '"' || c = '\'' then { s with quote := some c, current := some (s.current.getD "") }
      else if c = '\n' then
        if s.current.isNone && !s.words.any (·.2 = s.line) then s
        else { close with line := s.line + 1 }
      else if c = ' ' || c = '\t' then
        if blanks then close else if s.current.isNone then s else add
      else add

def splitWords (blanks : Bool) (s : String) : List (String × Nat) × Option String :=
  let s := s.foldl (Splitting.step blanks) {}
  match s.quote, s.current with
  | some q, _ =>
    (s.words.toList, some ("unmatched " ++ (if q = '"' then "double" else "single") ++
      " quote; by default quotes are special to xargs unless you use the -0 option"))
  | none, some w => ((s.words.push (w, s.line)).toList, none)
  | none, none => (s.words.toList, none)

def splitAtChar (c : Char) (s : String) : List String :=
  let parts := s.splitOn (String.singleton c)
  if parts.getLast? = some "" then parts.dropLast else parts

def groupWords (most size : Nat) (lines : Option Nat) (ws : List (String × Nat)) :
    List (List String) :=
  let (groups, last, _) := ws.foldl (fun ((groups, current, length) :
      Array (List String) × Array (String × Nat) × Nat) (w, line) =>
    let fresh := match lines, current[0]? with
      | some n, some (_, first) => n ≤ line - first
      | _, _ => false
    if !current.isEmpty && (current.size = most || fresh || length + w.length + 1 > size) then
      (groups.push (current.toList.map (·.1)), #[(w, line)], w.length + 1)
    else (groups, current.push (w, line), length + w.length + 1)) (#[], #[], 0)
  (if last.isEmpty then groups else groups.push (last.toList.map (·.1))).toList

def replaceAll (old new s : String) : String :=
  if old.isEmpty then s else new.intercalate (s.splitOn old)

def runCalls (programs : Programs) (call : Call) (tell : Bool) : List (List String) → Nat → Work Nat
  | [], status => return status
  | words :: rest, status => do
    if tell then Work.complain (" ".intercalate words ++ "\n")
    let name := words.headD ""
    let inner : Call := ⟨words, call.environment⟩
    match ← Work.programOf programs inner with
    | .error f =>
      complain call (name ++ ": " ++ f.text)
      return if f = .missing then 127 else 126
    | .ok program =>
      match ← Work.inChild (program inner) with
      | .exited 0 => runCalls programs call tell rest status
      | .exited 255 =>
        complain call (name ++ ": exited with status 255; aborting")
        return 124
      | .exited _ => runCalls programs call tell rest 123
      | .killed n =>
        complain call (name ++ ": terminated by signal " ++ Decimal.ofNat n)
        return 125

def positive? (s : String) : Option Nat :=
  if !s.isEmpty && s.all Char.isDigit then (s.toNat?).filter (0 < ·) else none

def delimiter (s : String) : Char :=
  match (unescaped (s.length + 1) "" s.toList).1.toList with
  | c :: _ => c
  | [] => '\x00'

def argumentsFromInput (programs : Programs) : Kernel.Program := fun call =>
  let known : Options.Known :=
    { letters := "0a:E:e::I:i::L:l::n:prs:txP:d:", anywhere := false,
      names := [("null", '0'), ("arg-file", 'a'), ("delimiter", 'd'), ("replace", 'i'),
        ("max-lines", 'l'), ("max-args", 'n'), ("no-run-if-empty", 'r'), ("max-chars", 's'),
        ("verbose", 't'), ("exit", 'x'), ("max-procs", 'P')] }
  withOptions call 1 known fun o => do
    let command := if o.operands.isEmpty then ["echo"] else o.operands
    let pattern := match o.lastOf? ['I', 'i', 'L', 'l', 'n'] with
      | some 'I' => o.last? 'I'
      | some 'i' => some (match o.last? 'i' with
        | some "" | none => "\x7b\x7d"
        | some s => s)
      | _ => none
    let numbers := ['n', 'L', 's'].filterMap fun c => (o.last? c).map fun a => (c, a)
    match numbers.find? fun (_, a) => (positive? a).isNone with
    | some (c, a) =>
      if !a.isEmpty && a.all Char.isDigit then
        misused call 1 ("value " ++ a ++ " for -" ++ String.singleton c ++ " option should be >= 1")
      else
        misused call 1 ("invalid number \"" ++ a ++ "\" for -" ++ String.singleton c ++ " option")
    | none =>
      match ← readInput ((o.last? 'a').getD "-") false with
      | .error f =>
        complain call (plainFault ((o.last? 'a').getD "-") f)
        return 1
      | .ok text =>
        let separator :=
          if o.lastOf? ['0', 'd'] = some '0' then some '\x00' else (o.last? 'd').map delimiter
        let (ws, fault) := match separator with
          | some c => ((splitAtChar c text).zipIdx, none)
          | none => splitWords pattern.isNone text
        let most := (o.last? 'n').bind positive?
        let lines := match o.lastOf? ['L', 'l', 'n'] with
          | some 'L' => (o.last? 'L').bind positive?
          | some 'l' => some (((o.last? 'l').bind positive?).getD 1)
          | _ => none
        let size := ((o.last? 's').bind positive?).getD 131072
        let used := command.foldl (fun n w => n + w.length + 1) 0
        let calls := match pattern with
          | some p => ws.map fun (w, _) => command.map (replaceAll p w)
          | none =>
            let groups := groupWords (if lines.isSome then 0 else most.getD 0) (size - used) lines ws
            (if groups.isEmpty && !o.has 'r' then [[]] else groups).map (command ++ ·)
        if let some f := fault then complain call f
        let input ← match ← Work.openPath "/dev/null" .reading with
          | .ok i => pure i
          | .error _ => Work.newPipe none
        let status ← Work.withChannel 0 input
          (runCalls programs call (o.has 't') (if fault.isSome && ws.isEmpty then [] else calls) 0)
        return if fault.isSome then 1 else status

/-! ### Copies of the input -/

def tee : Kernel.Program := fun call =>
  let known : Options.Known := { letters := "aip::", names := [("append", 'a')] }
  withOptions call 1 known fun o => do
    let mut status := 0
    let mut opened := []
    for path in o.operands do
      match ← Work.openPath path (if o.has 'a' then .appending else .writing) with
      | .ok i => opened := opened ++ [(path, i)]
      | .error f =>
        complain call (plainFault path f)
        status := 1
    match ← Work.readAll 0 true with
    | .error f =>
      complain call ("standard input: " ++ f.text)
      return 1
    | .ok text =>
      for (path, i) in opened do
        if let some f ← Work.withChannel 0 i (Work.write 0 text) then
          complain call (plainFault path f)
          status := 1
      match ← Work.write 1 text with
      | none => return status
      | some f =>
        complain call ("standard output: " ++ f.text)
        return 1

end KnightLang.Host.Utility
