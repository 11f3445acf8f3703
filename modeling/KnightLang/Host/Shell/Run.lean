import KnightLang.Host.Shell.Evaluation

namespace KnightLang.Host.Shell

open Kernel (Work)
open Process (Ending)

structure Invocation where
  options : List Char := []
  fromArgument : Bool := false
  fromInput : Bool := false
  rest : List String := []

namespace Invocation

def setLetter (i : Invocation) (on : Bool) (c : Char) : Except String Invocation :=
  if c = 'c' then .ok { i with fromArgument := on }
  else if c = 'l' then .ok i
  else if optionNames.any (·.2 = some c) then
    let others := i.options.filter (· ≠ c)
    .ok { i with options := if on then c :: others else others }
  else .error ("Illegal option -" ++ String.singleton c)

def readLetters (on : Bool) : List Char → Invocation → Except String Invocation
  | [], i => .ok i
  | 'o' :: letters, i =>
    match i.rest with
    | [] => readLetters on letters i
    | name :: rest => do
      match optionNames.lookup name with
      | some (some c) => readLetters on letters (← { i with rest }.setLetter on c)
      | some none => readLetters on letters { i with rest }
      | none => .error ("Illegal option -o " ++ name)
  | c :: letters, i => do readLetters on letters (← i.setLetter on c)

def read : Nat → Invocation → Except String Invocation
  | 0, i => .ok i
  | fuel + 1, i =>
    match i.rest with
    | [] => .ok i
    | a :: rest =>
      match a.toList with
      | ['-'] | ['-', '-'] => .ok { i with rest }
      | '-' :: letters => do read fuel (← readLetters true letters { i with rest })
      | '+' :: letters => do read fuel (← readLetters false letters { i with rest })
      | _ => .ok i

end Invocation

def initialVariables (parent : Nat) (environment : List (String × String)) :
    List (String × Variable) :=
  let own : List (String × Variable) :=
    [("IFS", { value := some " \t\n" }), ("PATH", { value := some Kernel.usualPath }),
      ("PS1", { value := some "# " }), ("PS2", { value := some "> " }),
      ("PS4", { value := some "+ " }), ("OPTIND", { value := some "1" }),
      ("PPID", { value := some (Decimal.ofNat parent) })]
  environment.foldl (fun found (name, value) =>
    if !isName name || name = "IFS" || name = "PPID" || name = "OPTIND" then found
    else if found.any (·.1 = name) then
      found.map fun b => if b.1 = name then (name, { value := some value, exported := true }) else b
    else found ++ [(name, { value := some value, exported := true })]) own

def runAs (s : Kernel.Entry → Context) (x : Run Ending) : Work Nat := fun process => do
  let w ← get
  let (r, after) := x ⟨w, s process⟩
  set after.world
  match r with
  | .ok (.exited n) => return n
  | .ok (.killed n) => throw (.killed n)
  | .error (.halt h) => throw h
  | .error _ => return 2

def nameDirectory (environment : List (String × String)) : Run Unit := do
  let files := (← Run.world).files
  let here := (← Run.shell).process.directory
  let given := (environment.lookup "PWD").filter fun path =>
    path.startsWith "/" && (match files.find here path with
      | .ok id => id = here
      | .error _ => false)
  let path := given.getD (files.pathOf here)
  Run.modifyShell fun s => { s with path }
  Run.assignAs true "PWD" path

def deepest : Nat := 0xffffff

def program (programs : Kernel.Programs) : Kernel.Program := fun call => do
  let name := call.arguments.headD "sh"
  let refuse (message : String) : Work Nat := do
    Work.complain (name ++ ": 0: " ++ message ++ "\n")
    return 2
  let evaluator : Evaluator :=
    { programs, evaluate := evaluate programs deepest, rounds := 0xffffffff }
  let start (i : Invocation) (name : String) (arguments : List String) (text : String)
      (setting : Setting) : Work Nat :=
    runAs (fun process =>
        { process, name, arguments, root := process.number, options := i.options,
          blocked := process.deaf,
          bindings := initialVariables process.parent call.environment })
      (evaluator.conclude do
        nameDirectory call.environment
        evaluator.runText setting text)
  match Invocation.read (call.arguments.length + 1) { rest := call.arguments.drop 1 } with
  | .error message => refuse message
  | .ok i =>
    if i.fromArgument then
      match i.rest with
      | [] => refuse "-c requires an argument"
      | [text] => start i name [] text { last := true }
      | text :: name :: arguments => start i name arguments text { last := true }
    else
      match i.options.contains 's', i.rest with
      | false, path :: arguments =>
        match ← Work.readFile path false with
        | .ok text => start i path arguments text {}
        | .error .directory => start i path arguments "" {}
        | .error f => refuse (Evaluator.openFault false path f)
      | _, arguments =>
        match ← Work.readAll 0 true with
        | .ok text => start { i with options := 's' :: i.options.filter (· ≠ 's') } name arguments text {}
        | .error _ => return 0

end KnightLang.Host.Shell
