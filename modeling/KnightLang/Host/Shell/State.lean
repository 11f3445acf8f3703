import KnightLang.Host.Kernel.World
import KnightLang.Host.Shell.Arithmetic
import KnightLang.Host.Shell.Syntax

namespace KnightLang.Host.Shell

open Kernel (World Halt Work)

structure Variable where
  value : Option String
  exported : Bool := false
  readonly : Bool := false
  deriving DecidableEq, Repr

structure Job where
  number : Nat
  process : Nat
  finish : Option Nat
  ending : Process.Ending
  noticed : Bool := false
  awaited : Bool := false

def Job.isDone (j : Job) (now : Nat) : Bool := j.finish.any (· ≤ now)

structure Frame where
  bindings : List (String × Option Variable) := []
  options : Option (List Char) := none

structure Context where
  process : Kernel.Entry
  name : String
  root : Nat
  bindings : List (String × Variable) := []
  functions : List (String × Command) := []
  aliases : List (String × String) := []
  arguments : List String := []
  options : List Char := []
  status : Nat := 0
  kept : Option Nat := none
  inner : Nat := 0
  background : Option Nat := none
  jobs : List Job := []
  found : List (String × String) := []
  traps : List (Nat × String) := []
  pending : List Nat := []
  blocked : List Nat := []
  documents : List (Nat × Word) := []
  nextDocument : Nat := 0
  line : Nat := 1
  reached : Nat := 1
  speaker : Option String := none
  loops : Nat := 0
  calls : Nat := 0
  frames : List Frame := []
  path : String := "/"
  optionIndex : Nat := 1
  optionOffset : Option Nat := none
  printed : String := ""

structure State where
  world : World
  shell : Context

inductive Break
  | halt (h : Halt)
  | exit
  | fault
  | leaveLoops (n : Nat)
  | nextRound (n : Nat)
  | leaveFunction (named : Bool)

abbrev Run : Type → Type := ExceptT Break (StateM State)

namespace Run

def shell : Run Context := return (← get).shell

def world : Run World := return (← get).world

def modifyShell (f : Context → Context) : Run Unit := modify fun s => { s with shell := f s.shell }

def modifyWorld (f : World → World) : Run Unit := modify fun s => { s with world := f s.world }

def work {α : Type} (x : Work α) : Run α := fun ⟨world, shell⟩ =>
  match (x.run shell.process).run world with
  | (.ok a, world) => (.ok a, ⟨world, shell⟩)
  | (.error h, world) => (.error (.halt h), ⟨world, shell⟩)

def attempt {α : Type} (x : Run α) : Run (Except Break α) := fun s =>
  let (r, s) := x s
  (.ok r, s)

def resume {α : Type} : Except Break α → Run α
  | .ok a => return a
  | .error b => throw b

def andThen {α : Type} (x : Run α) (last : Run Unit) : Run α := do
  let r ← attempt x
  last
  resume r

def write (n : Nat) (text : String) : Run (Option Files.Fault) := work (.write n text)

def messageStart : Run String := do
  let s ← shell
  let speaker := match s.speaker with
    | some name => name ++ ": "
    | none => ""
  return s.name ++ ": " ++ Decimal.ofNat s.line ++ ": " ++ speaker

def warn (text : String) : Run Unit := do
  let start ← messageStart
  let _ ← write 2 (start ++ text ++ "\n")

def setStatus (n : Nat) : Run Unit := modifyShell fun s => { s with status := n }

def failWith {α : Type} (status : Nat) (text : String) : Run α := do
  warn text
  setStatus status
  throw .fault

def fail {α : Type} (text : String) : Run α := failWith 2 text

def illegalNumber {α : Type} (text : String) : Run α := fail ("Illegal number: " ++ text)

/-! ### Variables -/

def binding? (name : String) : Run (Option Variable) := return (← shell).bindings.lookup name

def value? (name : String) : Run (Option String) := return (← binding? name).bind (·.value)

def option (letter : Char) : Run Bool := return (← shell).options.contains letter

def setOption (letter : Char) (on : Bool) : Run Unit := modifyShell fun s =>
  { s with options :=
      if on then (if s.options.contains letter then s.options else letter :: s.options)
      else s.options.filter (· ≠ letter) }

def putVariable (name : String) (v : Variable) : Run Unit := modifyShell fun s =>
  { s with bindings := replaced s.bindings }
where
  replaced : List (String × Variable) → List (String × Variable)
    | [] => [(name, v)]
    | (other, w) :: rest => if other = name then (name, v) :: rest else (other, w) :: replaced rest

def number (text : String) : Run Nat := do
  match Arithmetic.decimal? text with
  | some n => if 0 ≤ n && n ≤ 0x7fffffff then return n.toNat else illegalNumber text
  | none => illegalNumber text

def assignAs (exported : Bool) (name value : String) : Run Unit := do
  if name = "OPTIND" then
    let n ← number value
    modifyShell fun s => { s with optionIndex := max n 1, optionOffset := none }
  if name = "PATH" then modifyShell fun s => { s with found := [] }
  match ← binding? name with
  | some v =>
    if v.readonly then fail (name ++ ": is read only")
    else
      putVariable name { v with value := some value, exported := v.exported || exported }
  | none =>
    putVariable name { value := some value, exported := exported || (← option 'a') }

def assign (name value : String) : Run Unit := assignAs false name value

def unassign (name : String) : Run Unit := do
  match ← binding? name with
  | some v =>
    if v.readonly then fail (name ++ ": is read only")
    else modifyShell fun s => { s with bindings := s.bindings.filter (·.1 ≠ name) }
  | none => pure ()

def separators : Run String := return (← value? "IFS").getD " \t\n"

def bucket (name : String) : Nat :=
  match name.toList with
  | [] => 0
  | c :: rest => (rest.foldl (fun n c => n + c.toNat) (17 * c.toNat)) % 39

def environment : Run (List (String × String)) := do
  let exported := (← shell).bindings.filterMap fun (name, v) =>
    if v.exported then v.value.map fun value => (name, value) else none
  return exported.mergeSort fun a b => bucket a.1 ≤ bucket b.1

def inQuotes (text : String) : String :=
  let rec go (fuel : Nat) (cs : List Char) : List String :=
    match fuel with
    | 0 => []
    | fuel + 1 =>
      let plain := cs.takeWhile (· ≠ '\'')
      let rest := cs.dropWhile (· ≠ '\'')
      let quotes := rest.takeWhile (· = '\'')
      let first := "'" ++ String.ofList plain ++ "'"
      if quotes.isEmpty then [first]
      else
        let after := rest.dropWhile (· = '\'')
        let part := first ++ "\"" ++ String.ofList quotes ++ "\""
        if after.isEmpty then [part] else part :: go fuel after
  (go (text.length + 1) text.toList).foldl (· ++ ·) ""

end Run

end KnightLang.Host.Shell
