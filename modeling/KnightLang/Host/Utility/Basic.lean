import KnightLang.Host.Kernel.Program

namespace KnightLang.Host.Utility

open Kernel (Call Work)
open Files (Fault)

/-! ### Options -/

structure Options where
  found : List (Char × String) := []
  operands : List String := []

namespace Options

def has (o : Options) (c : Char) : Bool := o.found.any (·.1 = c)

def last? (o : Options) (c : Char) : Option String := (o.found.reverse.find? (·.1 = c)).map (·.2)

def lastOf? (o : Options) (cs : List Char) : Option Char :=
  (o.found.reverse.find? fun (c, _) => cs.contains c).map (·.1)

/-- What options a program knows. A colon in `letters` stands after those that have an argument, two
after those that may have one. Names stand for letters. -/
structure Known where
  letters : String
  names : List (String × Char) := []
  anywhere : Bool := true

inductive Need
  | nothing
  | optional
  | required
  deriving DecidableEq

def Known.need (k : Known) (c : Char) : Option Need :=
  match k.letters.toList.dropWhile (· ≠ c) with
  | _ :: ':' :: ':' :: _ => some .optional
  | _ :: ':' :: _ => some .required
  | _ :: _ => some .nothing
  | [] => none

def Known.letter? (k : Known) (name : String) : Except String Char :=
  match k.names.lookup name with
  | some c => .ok c
  | none =>
    match k.names.filter fun (n, _) => n.startsWith name with
    | [(_, c)] => .ok c
    | [] => .error ("unrecognized option '--" ++ name ++ "'")
    | (n, c) :: others =>
      if others.all (·.2 = c) then .ok c
      else .error ("option '--" ++ name ++ "' is ambiguous; possibilities:" ++
        String.join (((n, c) :: others).map fun (n, _) => " '--" ++ n ++ "'"))

def readLetters (k : Known) : List Char → List String → Options → Except String (Options × List String)
  | [], rest, o => .ok (o, rest)
  | c :: letters, rest, o =>
    let add (a : String) : Options := { o with found := o.found ++ [(c, a)] }
    match (if c = ':' then none else k.need c) with
    | none => .error ("invalid option -- '" ++ String.singleton c ++ "'")
    | some .nothing => readLetters k letters rest (add "")
    | some .optional => .ok (add (String.ofList letters), rest)
    | some .required =>
      match letters, rest with
      | [], [] => .error ("option requires an argument -- '" ++ String.singleton c ++ "'")
      | [], a :: rest => .ok (add a, rest)
      | letters, rest => .ok (add (String.ofList letters), rest)

def readName (k : Known) (text : String) (rest : List String) (o : Options) :
    Except String (Options × List String) := do
  let cs := text.toList
  let name := String.ofList (cs.takeWhile (· ≠ '='))
  let value := cs.dropWhile (· ≠ '=')
  let c ← k.letter? name
  let add (a : String) : Options := { o with found := o.found ++ [(c, a)] }
  match (k.need c).getD .nothing, value, rest with
  | .nothing, [], rest => return (add "", rest)
  | .nothing, _, _ => .error ("option '--" ++ name ++ "' doesn't allow an argument")
  | .optional, value, rest => return (add (String.ofList (value.drop 1)), rest)
  | .required, _ :: value, rest => return (add (String.ofList value), rest)
  | .required, [], a :: rest => return (add a, rest)
  | .required, [], [] => .error ("option '--" ++ name ++ "' requires an argument")

def readFrom (k : Known) : Nat → List String → Options → Except String Options
  | 0, rest, o => .ok { o with operands := o.operands ++ rest }
  | fuel + 1, arguments, o => do
    match arguments with
    | [] => return o
    | "--" :: rest => return { o with operands := o.operands ++ rest }
    | a :: rest =>
      match a.toList with
      | '-' :: '-' :: name =>
        let (o, rest) ← readName k (String.ofList name) rest o
        readFrom k fuel rest o
      | '-' :: c :: letters =>
        let (o, rest) ← readLetters k (c :: letters) rest o
        readFrom k fuel rest o
      | _ =>
        if k.anywhere then readFrom k fuel rest { o with operands := o.operands ++ [a] }
        else return { o with operands := o.operands ++ arguments }

end Options

/-! ### Messages -/

def nameOf (call : Call) : String := call.arguments.headD ""

def complain (call : Call) (text : String) : Work Unit :=
  Work.complain (nameOf call ++ ": " ++ text ++ "\n")

def say (text : String) : Work Unit := do
  let _ ← Work.write 1 text

def complainAfter (call : Call) (pending text : String) : Work String := do
  unless pending.isEmpty do say pending
  complain call text
  return ""

def escaped (c : Char) : String :=
  match c with
  | '\x07' => "\\a"
  | '\x08' => "\\b"
  | '\x0c' => "\\f"
  | '\n' => "\\n"
  | '\r' => "\\r"
  | '\t' => "\\t"
  | '\x0b' => "\\v"
  | c =>
    let digits := String.ofList (Nat.toDigits 8 c.toNat)
    "\\" ++ "".pushn '0' (3 - digits.length) ++ digits

def isShown (c : Char) : Bool := ' ' ≤ c && c ≤ '~'

def quoted (s : String) : String :=
  "'" ++ s.foldl (fun t c =>
    if c = '\'' || c = '\\' then (t.push '\\').push c
    else if isShown c then t.push c
    else t ++ escaped c) "" ++ "'"

def quotedName (s : String) : String :=
  let plain (s : String) : String :=
    "'" ++ s.foldl (fun t c => if c = '\'' then t ++ "'\\''" else t.push c) "" ++ "'"
  if s.all isShown then
    if s.contains '\'' && !s.any fun c => c = '"' || c = '$' || c = '\x60' || c = '\\' then
      "\"" ++ s ++ "\""
    else plain s
  else
    -- Characters that are not shown stand in quotes of their own.
    let step : String × Bool → Char → String × Bool := fun (t, inside) c =>
      if isShown c then
        ((if inside then t ++ "''" else t) ++ (if c = '\'' then "'\\''" else String.singleton c), false)
      else (t ++ (if inside then "" else "'$'") ++ escaped c, true)
    "'" ++ (s.foldl step ("", false)).1 ++ "'"

def askForHelp (call : Call) : Work Unit :=
  Work.complain ("Try '" ++ nameOf call ++ " --help' for more information.\n")

def misused (call : Call) (status : Nat) (text : String) : Work Nat := do
  complain call text
  askForHelp call
  return status

def withOptions (call : Call) (status : Nat) (k : Options.Known) (run : Options → Work Nat) :
    Work Nat := do
  match Options.readFrom k (call.arguments.length + 1) (call.arguments.drop 1) {} with
  | .ok o => run o
  | .error text => misused call status text

/-! ### Input and output -/

def finishWith (call : Call) (failure : Nat) (text : String) (status : Nat) : Work Nat := do
  if text.isEmpty then return status
  else
    match ← Work.write 1 text with
    | none => return status
    | some f =>
      complain call ("write error: " ++ f.text)
      return failure

def finish (call : Call) (text : String) (status : Nat) : Work Nat := finishWith call 1 text status

def readInput (path : String) (streaming : Bool) : Work (Except Fault String) :=
  if path = "-" then Work.readAll 0 streaming else Work.readFile path streaming

def readInputs (call : Call) (streaming : Bool) (describe : String → Fault → String)
    (paths : List String) : Work (List (String × String) × Bool) := do
  let mut found := #[]
  let mut good := true
  for path in (if paths.isEmpty then ["-"] else paths) do
    match ← readInput path streaming with
    | .ok text => found := found.push (path, text)
    | .error f =>
      complain call (describe path f)
      good := false
  return (found.toList, good)

def plainName (s : String) : String :=
  let special (c : Char) : Bool := !isShown c || " !\"$&()*;<=>[^\x60|'\\?".contains c
  let needed := s.isEmpty || s = "\x7b" || s = "\x7d" || s.any special ||
    s.startsWith "#" || s.startsWith "~"
  if needed then quotedName s else s

def plainFault (path : String) (f : Fault) : String := plainName path ++ ": " ++ f.text

/-! ### Paths -/

def lastPart (path : String) : String :=
  let cs := path.toList.reverse.dropWhile (· = '/')
  if cs.isEmpty then (if path.isEmpty then "" else "/")
  else String.ofList (cs.takeWhile (· ≠ '/')).reverse

def firstParts (path : String) : String :=
  let cs := (path.toList.reverse.dropWhile (· = '/')).dropWhile (· ≠ '/')
  let kept := cs.dropWhile (· = '/')
  if !kept.isEmpty then String.ofList kept.reverse
  else if path.startsWith "/" then "/" else "."

def within (directory name : String) : String :=
  if directory.endsWith "/" then directory ++ name else directory ++ "/" ++ name

/-! ### Lines -/

def linesWithEnds (s : String) : List String :=
  let (lines, last) := s.foldl (fun ((lines, current) : Array String × String) c =>
    if c = '\n' then (lines.push (current.push c), "") else (lines, current.push c)) (#[], "")
  (if last.isEmpty then lines else lines.push last).toList

def linesOf (s : String) : List String :=
  let (lines, last) := s.foldl (fun ((lines, current) : Array String × String) c =>
    if c = '\n' then (lines.push current, "") else (lines, current.push c)) (#[], "")
  (if last.isEmpty then lines else lines.push last).toList

def join (lines : List String) : String := lines.foldl (· ++ ·) ""

def unlines (lines : List String) : String := lines.foldl (fun s l => (s ++ l).push '\n') ""

def alignRight (width : Nat) (s : String) : String := "".pushn ' ' (width - s.length) ++ s

def alignLeft (width : Nat) (s : String) : String := s.pushn ' ' (width - s.length)

end KnightLang.Host.Utility
