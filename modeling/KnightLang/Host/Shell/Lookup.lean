import KnightLang.Host.Kernel.Program
import KnightLang.Host.Shell.Options

namespace KnightLang.Host.Shell

structure Trait where
  special : Bool := false
  assigns : Bool := false

def commandTraits : List (String × Trait) :=
  [(".", { special := true }), (":", { special := true }), ("[", {}), ("alias", { assigns := true }),
    ("bg", {}), ("break", { special := true }), ("cd", {}), ("chdir", {}), ("command", {}),
    ("continue", { special := true }), ("echo", {}), ("eval", { special := true }),
    ("exec", { special := true }), ("exit", { special := true }),
    ("export", { special := true, assigns := true }), ("false", {}), ("fg", {}), ("getopts", {}),
    ("hash", {}), ("jobs", {}), ("kill", {}), ("local", { special := true, assigns := true }),
    ("printf", {}), ("pwd", {}), ("read", {}), ("readonly", { special := true, assigns := true }),
    ("return", { special := true }), ("set", { special := true }), ("shift", { special := true }),
    ("test", {}), ("times", { special := true }), ("trap", { special := true }), ("true", {}),
    ("type", {}), ("ulimit", {}), ("umask", {}), ("unalias", {}), ("unset", { special := true }),
    ("wait", {})]

inductive Meaning
  | function (body : Command)
  | builtin (t : Trait)
  | program (path : String)
  | unknown (f : Files.Fault)

namespace Run

def startFault : Files.Fault → String
  | .missing | .notDirectory => "not found"
  | f => f.text

def programPath : Run String := return (← value? "PATH").getD ""

def findProgram (path : Option String) (name : String) : Run Meaning := do
  if name.contains '/' then return .program name
  else
    match path, (← shell).found.lookup name with
    | none, some found => return .program found
    | _, _ =>
      match ← work (.search (path.getD (← programPath)) name) with
      | .error f => return .unknown f
      | .ok found =>
        if path.isNone then modifyShell fun s => { s with found := s.found ++ [(name, found)] }
        return .program found

def meaning (functions : Bool) (path : Option String) (name : String) : Run Meaning := do
  match (← shell).functions.lookup name, functions with
  | some body, true => return .function body
  | _, _ =>
    match commandTraits.lookup name with
    | some t => return .builtin t
    | none => findProgram path name

/-! ### Asking for the meaning of names -/

def aliasText (name text : String) : String := name ++ "=" ++ inQuotes text

def describe (path : Option String) (verbose : Bool) (name : String) : Run Nat := do
  let tell (phrase brief : String) : Run Nat := do
    print (if verbose then name ++ " is " ++ phrase ++ "\n" else brief ++ "\n")
    return 0
  if keywords.contains name then tell "a shell keyword" name
  else
    match (← shell).aliases.lookup name with
    | some text => tell ("an alias for " ++ text) ("alias " ++ aliasText name text)
    | none =>
      let remembered := (← shell).found.any (·.1 = name) && path.isNone
      let before := (← shell).found
      let m ← meaning true path name
      modifyShell fun s => { s with found := before }
      match m with
      | .function _ => tell "a shell function" name
      | .builtin t => tell (if t.special then "a special shell builtin" else "a shell builtin") name
      | .program found =>
        let isThere ←
          if name.contains '/' then
            match (← world).files.find (← shell).process.directory name with
            | .ok _ => pure true
            | .error _ => pure false
          else pure true
        if isThere then
          tell ((if remembered then "a tracked alias for " else "") ++ found) found
        else
          if verbose then print (name ++ ": not found\n")
          return 127
      | .unknown _ =>
        if verbose then print (name ++ ": not found\n")
        return 127

def describeAll (names : List String) : Run Nat := do
  let mut status := 0
  for name in names do
    status := status ||| (← describe none true name)
  return status

def shelf (size : Nat) (name : String) : Nat :=
  match name.toList with
  | [] => 0
  | c :: rest => (rest.foldl (fun n d => n + d.toNat) (16 * c.toNat + c.toNat)) % size

def hash (arguments : List String) : Run Nat := do
  let (found, names) ← options "r" arguments
  if !found.isEmpty then modifyShell fun s => { s with found := [] }
  else if names.isEmpty then
    for (_, path) in (← shell).found.mergeSort fun a b => shelf 31 a.1 ≤ shelf 31 b.1 do
      print (path ++ "\n")
  let mut status := 0
  for name in names do
    modifyShell fun s => { s with found := s.found.filter (·.1 ≠ name) }
    match ← meaning true none name with
    | .unknown f =>
      warn (name ++ ": " ++ startFault f)
      status := 1
    | _ => pure ()
  return status

/-! ### Aliases -/

def setAliases (arguments : List String) : Run Nat := do
  let listed := (← shell).aliases.mergeSort fun a b => shelf 39 a.1 ≤ shelf 39 b.1
  if arguments.isEmpty then
    for (name, text) in listed do print (aliasText name text ++ "\n")
  let mut status := 0
  for argument in arguments do
    match (argument.toList.drop 1).dropWhile (· ≠ '=') with
    | _ :: text =>
      let name := String.ofList (argument.toList.take (argument.length - text.length - 1))
      let text := String.ofList text
      modifyShell fun s =>
        if s.aliases.any (·.1 = name) then
          { s with aliases := s.aliases.map fun a => if a.1 = name then (name, text) else a }
        else { s with aliases := s.aliases ++ [(name, text)] }
    | [] =>
      match (← shell).aliases.lookup argument with
      | some text => print (aliasText argument text ++ "\n")
      | none =>
        let _ ← write 2 ("alias: " ++ argument ++ " not found\n")
        status := 1
  return status

def unsetAliases (arguments : List String) : Run Nat := do
  let (found, names) ← options "a" arguments
  if !found.isEmpty then
    modifyShell fun s => { s with aliases := [] }
    return 0
  else
    let mut status := 0
    for name in names do
      if (← shell).aliases.any (·.1 = name) then
        modifyShell fun s => { s with aliases := s.aliases.filter (·.1 ≠ name) }
      else
        let _ ← write 2 ("unalias: " ++ name ++ " not found\n")
        status := 1
    return status

end Run

end KnightLang.Host.Shell
