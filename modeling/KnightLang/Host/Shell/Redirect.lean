import KnightLang.Host.Shell.Evaluator

namespace KnightLang.Host.Shell

inductive Opening
  | file (direction : Direction) (path : String)
  | copy (source : Nat)
  | close
  | document (w : Word)

namespace Evaluator

def badNumber {α : Type} : Run α := do
  Run.modifyShell fun s => { s with line := s.reached }
  Run.fail "Syntax error: Bad fd number"

def openings (e : Evaluator) (rs : List Redirection) : Run (List (Nat × Opening)) :=
  rs.mapM fun r => do
    match r with
    | .file n direction path => return (n, .file direction (← e.text path))
    | .copy n source =>
      match (← e.text source).toList with
      | ['-'] => return (n, .close)
      | [c] =>
        if c.isDigit then return (n, .copy (c.toNat - 48)) else badNumber
      | _ => badNumber
    | .document n id => return (n, .document (((← Run.shell).documents.lookup id).getD []))

def openFault (creates : Bool) (path : String) : Files.Fault → String
  | .missing | .notDirectory =>
    if creates then "cannot create " ++ path ++ ": Directory nonexistent"
    else "cannot open " ++ path ++ ": No such file"
  | f => (if creates then "cannot create " else "cannot open ") ++ path ++ ": " ++ f.text

def access (direction : Direction) : Run Kernel.Access := do
  match direction with
  | .input => return .reading
  | .append => return .appending
  | .update => return .updating
  | .overwrite => return .writing
  | .output => return if ← Run.option 'C' then .creating else .writing

def opened (e : Evaluator) : Opening → Run (Option Nat)
  | .file direction path => do
    match ← Run.work (.openPath path (← access direction)) with
    | .ok i => return some i
    | .error f => Run.fail (openFault (direction ≠ .input) path f)
  | .copy source => do
    match (← Run.shell).process.channels.lookup source with
    | some i => return some i
    | none => Run.fail (Decimal.ofNat source ++ ": Bad file descriptor")
  | .close => return none
  | .document w => do
    let text ← e.text w
    let pipe ← Run.work (.newPipe none)
    let _ ← Run.work (.writePipe pipe (Octets.toBytes text))
    return some (← Run.work (.newChannel { target := .pipe pipe, reads := true }))

def putChannel (n : Nat) (i : Option Nat) : Run Unit := Run.modifyShell fun s =>
  let others := s.process.channels.filter (·.1 ≠ n)
  { s with process := { s.process with channels := match i with
      | some i => (n, i) :: others
      | none => others } }

def redirect (e : Evaluator) (os : List (Nat × Opening)) : Run Unit := do
  for (n, o) in os do
    match o with
    | .copy m => if m = n then pure () else putChannel n (← e.opened o)
    | o => putChannel n (← e.opened o)

def unredirect (before : List (Nat × Nat)) (os : List (Nat × Opening)) : Run Unit := do
  for (n, _) in os do putChannel n (before.lookup n)

def redirected (e : Evaluator) (rs : List Redirection) (x : Run Nat) : Run Nat := do
  let os ← e.openings rs
  let before := (← Run.shell).process.channels
  match ← Run.attempt (e.redirect os) with
  | .ok () => Run.andThen x (unredirect before os)
  | .error .fault =>
    unredirect before os
    return 2
  | .error b => throw b

end Evaluator

end KnightLang.Host.Shell
