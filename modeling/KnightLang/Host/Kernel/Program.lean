import KnightLang.Host.Kernel.World

namespace KnightLang.Host.Kernel

open Process (Ending)

structure Call where
  arguments : List String
  environment : List (String × String)

abbrev Program : Type := Call → Work Nat

abbrev Programs : Type := String → Option Program

def usualPath : String := "/usr/local/sbin:/usr/local/bin:/usr/sbin:/usr/bin:/sbin:/bin"

namespace Work

def interpreter? (content : String) : Option (String × List String) :=
  match content.toList with
  | '#' :: '!' :: rest =>
    let line := rest.takeWhile (· ≠ '\n')
    let isBlank (c : Char) : Bool := c = ' ' || c = '\t'
    let trimmed (cs : List Char) : List Char :=
      ((cs.dropWhile isBlank).reverse.dropWhile isBlank).reverse
    let line := trimmed line
    let path := line.takeWhile (!isBlank ·)
    let argument := trimmed (line.drop path.length)
    some (String.ofList path, if argument.isEmpty then [] else [String.ofList argument])
  | _ => none

/-- The program in the file of a path. A file of text is read by the program that its first line names,
or by the shell. -/
def programAt (programs : Programs) : Nat → String → Work (Except Files.Fault Program)
  | 0, _ => return .error .tooManyLinks
  | fuel + 1, path => do
    let tree ← files
    match tree.find (← read).directory path with
    | .error f => return .error f
    | .ok id =>
      match tree.node? id with
      | some (.program name) => return (programs name).elim (.error .missing) .ok
      | some (.file content mode) =>
        if mode &&& 0x49 = 0 then return .error .denied
        else
          let (reader, arguments) :=
            (interpreter? (Octets.ofBytes (content.extract 0 256))).getD ("/bin/sh", [])
          match ← programAt programs fuel reader with
          | .error f => return .error f
          | .ok program =>
            return .ok fun call =>
              program { call with arguments := reader :: arguments ++ path :: call.arguments.drop 1 }
      | _ => return .error .denied

def search (path name : String) : Work (Except Files.Fault String) := do
  if name.contains '/' then return .ok name
  else
    let tree ← files
    let here := (← read).directory
    let found := (path.splitOn ":").map fun place =>
      let candidate := if place.isEmpty then name else place ++ "/" ++ name
      match tree.find here candidate with
      | .error .missing | .error .notDirectory => (none, none)
      | .error f => (none, some f)
      | .ok id =>
        match tree.node? id with
        | some (.program _) => (some candidate, none)
        | some (.file _ mode) =>
          if mode &&& 0x49 ≠ 0 then (some candidate, none) else (none, some .denied)
        | _ => (none, some .denied)
    match found.findSome? (·.1) with
    | some p => return .ok p
    | none => return .error (((found.filterMap (·.2)).getLast?).getD .missing)

def programOf (programs : Programs) (call : Call) : Work (Except Files.Fault Program) := do
  let path := (call.environment.lookup "PATH").getD "/bin:/usr/bin"
  match ← search path (call.arguments.headD "") with
  | .error f => return .error f
  | .ok path => programAt programs 8 path

def become (programs : Programs) (call : Call) : Work (Except Files.Fault Nat) := do
  match ← programOf programs call with
  | .error f => return .error f
  | .ok program => .ok <$> program call

def inChild (x : Work Nat) : Work Ending := fun parent => do
  settle.run parent
  let w ← get
  let child := { parent with number := w.next, parent := parent.number }
  set { w with next := w.next + 1, living := w.next :: w.living }
  let r : Except Halt Nat ← liftM ((x.run child).run)
  modify fun w => { w with living := w.living.filter (· ≠ child.number),
                           signals := w.signals.filter (·.2 ≠ child.number) }
  settle.run parent
  match r with
  | .ok n | .error (.exited n) => return .exited (n % 256)
  | .error (.killed n) => return .killed n
  | .error h => throw h

end Work

end KnightLang.Host.Kernel
