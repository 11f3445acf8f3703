import KnightLang.Host.Kernel.Rights
import KnightLang.Host.Shell.Options

namespace KnightLang.Host.Shell.Run

def joinedPath (here path : String) : String :=
  let double := path.startsWith "//" && !path.startsWith "///" ||
    !path.startsWith "/" && here.startsWith "//" && !here.startsWith "///"
  let start := if path.startsWith "/" then [] else here.splitOn "/"
  let steps := (start ++ path.splitOn "/").foldl (fun steps part =>
    if part = "" || part = "." then steps
    else if part = ".." then steps.drop 1
    else part :: steps) []
  (if double then "//" else "/") ++ "/".intercalate steps.reverse

def canonicalPath : Run String := do
  return (← world).files.pathOf (← shell).process.directory

def enterDirectory (physical : Bool) (path : String) : Run Bool := do
  let s ← shell
  let target := if physical then path else joinedPath s.path path
  let files := (← world).files
  match files.find s.process.directory target with
  | .error _ => return false
  | .ok id =>
    if !files.isDirectory id then return false
    else
      modifyShell fun s => { s with process := { s.process with directory := id } }
      assignAs true "OLDPWD" s.path
      let named ← if physical then canonicalPath else pure target
      modifyShell fun s => { s with path := named }
      assignAs true "PWD" named
      return true

def candidates (path : String) : Run (List (String × Bool)) := do
  let dotted := path.startsWith "/" || path = "." || path = ".." || path.startsWith "./" ||
    path.startsWith "../"
  match dotted, ← value? "CDPATH" with
  | false, some places =>
    let inPlaces := (places.splitOn ":").map fun place =>
      if place.isEmpty then (path, false) else (place ++ "/" ++ path, true)
    return inPlaces ++ [(path, false)]
  | _, _ => return [(path, false)]

def changeDirectory (arguments : List String) : Run Nat := do
  let (found, rest) ← options "LP" arguments
  let physical := match found.getLast? with
    | some ('P', _) => true
    | _ => false
  let back := rest.head? = some "-"
  let path ← match rest.head? with
    | none => pure ((← value? "HOME").getD "")
    | some "-" => pure ((← value? "OLDPWD").getD "")
    | some path => pure path
  let path := if path.isEmpty then "." else path
  let files := (← world).files
  let here := (← shell).process.directory
  let isPlace (p : String) : Bool := match files.find here p with
    | .ok id => files.isDirectory id
    | .error _ => false
  let (target, shown) := ((← candidates path).find? fun (p, _) => isPlace p).getD (path, false)
  unless ← enterDirectory physical target do fail ("can't cd to " ++ path)
  if shown || back then print ((← shell).path ++ "\n")
  return 0

def printDirectory (arguments : List String) : Run Nat := do
  let (found, _) ← options "LP" arguments
  match found.getLast? with
  | some ('P', _) => print ((← canonicalPath) ++ "\n")
  | _ => print ((← shell).path ++ "\n")
  return 0

/-! ### Rights -/

def fileMask (arguments : List String) : Run Nat := do
  let (found, rest) ← options "S" arguments
  let mask := (← shell).process.mask
  let setMask (mask : Nat) : Run Unit := modifyShell fun s =>
    { s with process := { s.process with mask } }
  match rest with
  | [] =>
    print (if found.isEmpty then Rights.octal 4 mask ++ "\n"
      else Rights.shownMask mask ++ "\n")
  | a :: _ =>
    if (a.toList.head?.map Char.isDigit).getD false then
      match Rights.ofOctal? a with
      | some n => setMask (n &&& 0x1ff)
      | none => illegalNumber a
    else
      let before := 0x1ff ^^^ mask
      match Rights.changes? a with
      | some changes =>
        let rights := changes.foldl (fun r c => c.apply 0 before false r) before
        setMask (0x1ff ^^^ (rights &&& 0x1ff))
      | none => fail ("Illegal mode: " ++ a)
  return 0

end KnightLang.Host.Shell.Run
