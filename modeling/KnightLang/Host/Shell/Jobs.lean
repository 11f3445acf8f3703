import KnightLang.Host.Kernel.Program
import KnightLang.Host.Shell.Options

namespace KnightLang.Host.Shell.Run

open Kernel (Work)
open Process (Ending)

/-! ### Processes -/

def freeJobNumber (jobs : List Job) (now : Nat) : Nat :=
  ((List.range (jobs.length + 1)).find? fun n =>
    !jobs.any fun j => j.number = n + 1 && !(j.awaited && j.isDone now)).getD jobs.length + 1

def newJob : Run Nat := do
  let now := (← world).clock
  let n := freeJobNumber (← shell).jobs now
  modifyShell fun s => { s with jobs := s.jobs.filter (·.number ≠ n) }
  return n

def receive : Run Unit := do
  let s ← shell
  let w ← world
  unless w.signals.isEmpty do
    let (mine, others) := w.signals.partition (·.2 = s.process.number)
    modifyWorld fun w => { w with signals := others }
    for (signal, _) in mine do
      let handled := if signal = 9 || signal = 19 then none else s.traps.lookup signal
      if s.process.deaf.contains signal && signal ≠ 9 then pure ()
      else
        match handled with
        | some "" => pure ()
        | some _ => modifyShell fun s =>
          if s.pending.contains signal then s else { s with pending := signal :: s.pending }
        | none =>
          unless signal = 0 || Process.harmlessSignals.contains signal do
            throw (.halt (.killed signal))

def report : Ending → Run Unit
  | .killed n => do
    unless n = 2 || n = 13 do
      let _ ← write 2 (Process.signalDescription n ++ "\n")
  | .exited _ => pure ()

def notice : Run Unit := do
  let now := (← world).clock
  modifyShell fun s =>
    if s.jobs.isEmpty then s
    else { s with jobs := s.jobs.map fun j => { j with noticed := j.noticed || j.isDone now } }

def spawn (x : Work Nat) : Run Nat := do
  let _ ← newJob
  let ending ← work (.inChild x)
  report ending
  notice
  receive
  return ending.status

def inCopy (adapt : Context → Context) (x : Run Ending) : Run Ending := do
  work .settle
  let outer ← shell
  let number := (← world).next
  modifyWorld fun w => { w with next := number + 1, living := number :: w.living }
  modifyShell fun s => adapt { s with
    process := { s.process with number, parent := s.process.number }
    jobs := [], pending := [], reached := 1, traps := s.traps.filter (·.2 = "") }
  let r ← attempt x
  modifyShell fun _ => outer
  modifyWorld fun w => { w with living := w.living.filter (· ≠ number),
                                signals := w.signals.filter (·.2 ≠ number) }
  work .settle
  resume r

/-! ### Jobs -/

def findJob (word : String) : Run Job := do
  let jobs := (← shell).jobs
  let choose (message : String) : Option Job → Run Job
    | some j => return j
    | none => fail message
  match word.toList with
  | '%' :: name =>
    match name with
    | [] | ['+'] | ['%'] => choose "No current job" jobs.head?
    | ['-'] => choose "No previous job" jobs[1]?
    | name =>
      match (String.ofList name).toNat? with
      | some n => choose ("No such job: " ++ word) (jobs.find? (·.number = n))
      | none => fail ("No such job: " ++ word)
  | _ => fail ("No such job: " ++ word)

def awaitJob (j : Job) : Run Unit := do
  match j.finish with
  | none => throw (.halt .endless)
  | some time =>
    work do
      modify fun w => w.setClock (max w.clock time)
      .settle
    modifyShell fun s => { s with jobs := s.jobs.map fun k =>
      if k.process = j.process then { k with noticed := true, awaited := true } else k }
    notice

def awaitJobs (arguments : List String) : Run Nat := do
  let words ← noOptions arguments
  if words.isEmpty then
    for j in (← shell).jobs do
      awaitJob j
      receive
    return 0
  else
    let mut status := 127
    for word in words do
      let found ←
        if word.startsWith "%" then some <$> findJob word
        else do
          let n ← number word
          pure ((← shell).jobs.find? (·.process = n))
      if let some j := found then
        awaitJob j
        unless j.noticed do report j.ending
        status := j.ending.status
    return status

def jobState (j : Job) (now : Nat) : String :=
  if !j.isDone now then "Running"
  else
    match j.ending with
    | .exited 0 => "Done"
    | .exited n => "Done(" ++ Decimal.ofNat n ++ ")"
    | .killed n => Process.signalDescription n

def listJobs (arguments : List String) : Run Nat := do
  let (found, words) ← options "lp" arguments
  let jobs := (← shell).jobs
  let now := (← world).clock
  let wanted ← if words.isEmpty then pure jobs else words.mapM findJob
  for j in wanted do
    let left := (← shell).jobs
    let current := left.head?.map (·.number)
    let previous := left[1]?.map (·.number)
    match found.getLast? with
    | some ('p', _) => print (Decimal.ofNat j.process ++ "\n")
    | some _ | none =>
      let mark := if current = some j.number then "+" else if previous = some j.number then "-" else " "
      let number := if found.isEmpty then "" else Decimal.ofNat j.process ++ " "
      let line := "[" ++ Decimal.ofNat j.number ++ "] " ++ mark ++ " " ++ number ++ jobState j now
      print (line.pushn ' ' (max 1 (33 - line.length)) ++ "\n")
      if j.isDone now then
        modifyShell fun s => { s with jobs := s.jobs.filter (·.number ≠ j.number) }
  return 0

def continueJob (arguments : List String) : Run Nat := do
  let words ← noOptions arguments
  let word := words.headD "%"
  let _ ← if words.isEmpty then
      match (← shell).jobs.head? with
      | some j => pure j
      | none => fail "No current job"
    else findJob word
  fail ("job " ++ (if words.isEmpty then "(null)" else word) ++ " not created under job control")

/-! ### Signals -/

def signalNumber? (least : Nat) (word : String) : Option Nat :=
  if !word.isEmpty && word.all Char.isDigit then (word.toNat?).filter (· < 65)
  else
    let name := word.toUpper
    if name = "EXIT" && least = 0 then some 0
    else (List.range 64).findSome? fun n =>
      if name = signalName (n + 1) then some (n + 1) else none
where
  signalName (n : Nat) : String := if n = 16 then "16" else Process.signalName n

def nameOfSignal (n : Nat) : String :=
  if n = 0 then "EXIT" else if n = 16 then "16" else Process.signalName n

def send (signal process : Nat) : Run Bool := do
  let w ← world
  let s ← shell
  if w.living.contains process || process = 0 then
    let target := if process = 0 then s.process.number else process
    if signal ≠ 0 then
      modifyWorld fun w => { w with signals := w.signals ++ [(signal, target)] }
    return true
  else
    match s.jobs.find? (·.process = process) with
    | none => return false
    | some j =>
      if j.noticed then return false
      else if j.finish.any (· < w.clock) then return true
      else
        if signal ≠ 0 && !Process.harmlessSignals.contains signal then
          modifyShell fun s => { s with jobs := s.jobs.map fun k =>
            if k.process = process then { k with finish := some w.clock, ending := .killed signal }
            else k }
          modifyWorld fun w => { w with delayed := w.delayed.filter fun d =>
            d.process ≠ process || d.time ≤ w.clock }
        return true

def killUsage : String :=
  "Usage: kill [-s sigspec | -signum | -sigspec] [pid | job]... or\nkill -l [exitstatus]"

def killOptions (arguments : List String) : Run (Option Nat × Bool × List String) := do
  match arguments with
  | [] => fail killUsage
  | first :: rest =>
    if first.startsWith "-" then
      match signalNumber? 1 (first.drop 1).copy with
      | some n => return (some n, false, rest)
      | none =>
        let (found, rest) ← options "ls:" arguments
        let mut signal := none
        for (letter, word) in found do
          if letter = 's' then
            match signalNumber? 1 word with
            | some n => signal := some n
            | none => fail ("invalid signal number or name: " ++ word)
        return (signal, found.any (·.1 = 'l'), rest)
    else return (none, false, arguments)

def kill (arguments : List String) : Run Nat := do
  let (signal, list, words) ← killOptions arguments
  if list then
    if signal.isSome then fail killUsage
    match words with
    | [] =>
      print "0\n"
      for n in List.range 64 do print (nameOfSignal (n + 1) ++ "\n")
    | word :: _ =>
      let n ← number word
      let n := if n > 128 then n - 128 else n
      if 0 < n && n < 65 then print (nameOfSignal n ++ "\n")
      else fail ("invalid signal number or exit status: " ++ word)
    return 0
  else
    if words.isEmpty then fail killUsage
    let mut status := 0
    for word in words do
      let known ←
        if word.startsWith "%" then do
          let _ ← findJob word
          pure false
        else if word.startsWith "-" then do
          let _ ← number (word.drop 1).copy
          pure false
        else do send (signal.getD 15) (← number word)
      unless known do
        warn "No such process\n"
        status := 1
    receive
    return status

def setTrap (signal : Nat) (action : Option String) : Run Unit := modifyShell fun s =>
  let others := s.traps.filter (·.1 ≠ signal)
  let deaf := s.process.deaf.filter (· ≠ signal)
  let deaf := if action = some "" || s.blocked.contains signal then signal :: deaf else deaf
  { s with
    traps := match action with
      | some a => (signal, a) :: others
      | none => others
    process := if signal = 0 then s.process else { s.process with deaf } }

def trap (arguments : List String) : Run Nat := do
  let words ← noOptions arguments
  let isNumber (word : String) : Bool := word.all Char.isDigit && (signalNumber? 0 word).isSome
  match words with
  | [] =>
    let traps := (← shell).traps.mergeSort fun a b => a.1 ≤ b.1
    for (signal, action) in traps do
      print ("trap -- " ++ inQuotes action ++ " " ++ nameOfSignal signal ++ "\n")
    return 0
  | first :: rest =>
    let (action, names) :=
      if rest.isEmpty || isNumber first then (none, words)
      else (if first = "-" then none else some first, rest)
    let mut status := 0
    for name in names do
      if status = 0 then
        match signalNumber? 0 name with
        | some n => setTrap n action
        | none =>
          let _ ← write 2 ("trap: " ++ name ++ ": bad trap\n")
          status := 1
    return status

end KnightLang.Host.Shell.Run
