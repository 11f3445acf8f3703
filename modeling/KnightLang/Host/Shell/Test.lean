import KnightLang.Host.Shell.Arithmetic
import KnightLang.Host.Shell.State

namespace KnightLang.Host.Shell.Test

open Files Kernel Process

def unaryOperators : List String :=
  ["-r", "-w", "-x", "-e", "-f", "-d", "-c", "-b", "-p", "-u", "-g", "-k", "-s", "-t", "-z", "-n",
    "-h", "-L", "-O", "-G", "-S"]

def binaryOperators : List String :=
  ["=", "!=", "<", ">", "-eq", "-ne", "-ge", "-gt", "-le", "-lt", "-nt", "-ot", "-ef"]

inductive Role
  | unary | binary | not | and | or | opening | closing
  deriving DecidableEq

def role? (s : String) : Option Role :=
  if unaryOperators.contains s then some .unary
  else if binaryOperators.contains s then some .binary
  else
    match s with
    | "!" => some .not
    | "-a" => some .and
    | "-o" => some .or
    | "(" => some .opening
    | ")" => some .closing
    | _ => none

def roleOf : List String → Option Role
  | [] => none
  | s :: rest =>
    match role? s with
    | some .unary =>
      match rest with
      | [] => none
      | [_] => some .unary
      | next :: _ => if role? next = some .binary then none else some .unary
    | some .opening => if rest.isEmpty then none else some .opening
    | r => r

abbrev Answer : Type → Type := ExceptT String Work

def number (s : String) : Answer Int :=
  match Arithmetic.decimal? s with
  | some n => return n
  | none => throw ("Illegal number: " ++ s)

def target? (path : String) : Work (Option Target) := do
  match (← Work.files).find (← read).directory path with
  | .error _ => return none
  | .ok id =>
    match (← Work.files).node? id with
    | some (.device (.descriptor n)) => return (← Work.channel? n).map (·.2.target)
    | _ => return some (.node id)

def fileTest (op path : String) : Work Bool := do
  let files ← Work.files
  if op = "-h" || op = "-L" then
    match files.lookup false (← read).directory path with
    | .ok id => return (files.node? id).any (·.isLink)
    | .error _ => return false
  else
    match ← target? path with
    | none => return false
    | some (.pipe _) => return ["-e", "-p", "-r", "-w", "-O", "-G"].contains op
    | some (.node id) =>
      match files.node? id with
      | none => return false
      | some node =>
        match op, node with
        | "-e", _ | "-r", _ | "-w", _ | "-O", _ | "-G", _ => return true
        | "-x", .directory _ _ _ => return true
        | "-x", node => return node.mode &&& 0x49 ≠ 0
        | "-f", .file _ _ | "-f", .program _ | "-f", .unreadable _ => return true
        | "-d", .directory _ _ _ => return true
        | "-c", .device _ => return true
        | "-s", .file content _ => return content.size > 0
        | "-s", .program _ | "-s", .directory _ _ _ => return true
        | "-u", node => return node.mode &&& 0x800 ≠ 0
        | "-g", node => return node.mode &&& 0x400 ≠ 0
        | "-k", node => return node.mode &&& 0x200 ≠ 0
        | _, _ => return false

def unary (op operand : String) : Answer Bool := do
  match op with
  | "-z" => return operand.isEmpty
  | "-n" => return !operand.isEmpty
  | "-t" =>
    let _ ← number operand
    return false
  | _ => fileTest op operand

def compareFiles (op a b : String) : Work Bool := do
  let files ← Work.files
  let here := (← read).directory
  match files.find here a, files.find here b with
  | .ok i, .ok j =>
    let changed (id : Nat) : Nat := (files.changed[id]?).getD 0
    match op with
    | "-nt" => return changed i > changed j
    | "-ot" => return changed i < changed j
    | _ => return i = j
  | _, _ => return false

def binary (op a b : String) : Answer Bool := do
  let compared (f : Int → Int → Bool) : Answer Bool := do return f (← number a) (← number b)
  match op with
  | "=" => return a = b
  | "!=" => return a ≠ b
  | "<" => return a < b
  | ">" => return b < a
  | "-eq" => compared fun m n => m = n
  | "-ne" => compared fun m n => m ≠ n
  | "-ge" => compared fun m n => m ≥ n
  | "-gt" => compared fun m n => m > n
  | "-le" => compared fun m n => m ≤ n
  | "-lt" => compared fun m n => m < n
  | _ => compareFiles op a b

abbrev Reading : Type := Answer (Bool × List String)

mutual

def disjunction : Nat → List String → Reading
  | 0, _ => throw "too many arguments"
  | fuel + 1, ws => do
    let (a, ws) ← conjunction fuel ws
    if roleOf (ws.drop 1) = some .or then
      let (b, ws) ← disjunction fuel (ws.drop 2)
      return (a || b, ws)
    else return (a, ws)

def conjunction : Nat → List String → Reading
  | 0, _ => throw "too many arguments"
  | fuel + 1, ws => do
    let (a, ws) ← negation fuel ws
    if roleOf (ws.drop 1) = some .and then
      let (b, ws) ← conjunction fuel (ws.drop 2)
      return (a && b, ws)
    else return (a, ws)

def negation : Nat → List String → Reading
  | 0, _ => throw "too many arguments"
  | fuel + 1, ws => do
    if roleOf ws = some .not then
      let (a, ws) ← negation fuel (if ws.length > 1 then ws.drop 1 else [])
      return (!a, ws)
    else primary fuel (roleOf ws) ws

def primary : Nat → Option Role → List String → Reading
  | 0, _, _ => throw "too many arguments"
  | fuel + 1, role, ws => do
    match role, ws with
    | _, [] => return (false, [])
    | some .opening, _ :: rest =>
      if roleOf rest = some .closing then return (false, rest)
      else
        let (a, rest) ← disjunction fuel rest
        if roleOf (rest.drop 1) = some .closing then return (a, rest.drop 1)
        else throw "closing paren expected"
    | some .unary, op :: rest =>
      match rest with
      | [] => throw (op ++ ": argument expected")
      | operand :: _ => return (← unary op operand, rest)
    | _, a :: rest =>
      if roleOf rest = some .binary then
        match rest with
        | op :: b :: more => return (← binary op a b, b :: more)
        | op :: [] => throw (op ++ ": argument expected")
        | [] => return (!a.isEmpty, ws)
      else return (!a.isEmpty, ws)

end

def finish (negated : Bool) : Bool × List String → Answer Bool
  | (_, w :: _ :: _) => throw ((if w.isEmpty then "" else w ++ ": ") ++ "unexpected operator")
  | (a, _) => return a ≠ negated

/-- Three words with an operator in the middle are always read as an operation. In three or four words
brackets around the rest or a negation of the rest come next. -/
def evaluateFrom : Nat → Bool → List String → Answer Bool
  | 0, negated, _ | _, negated, [] => return negated
  | fuel + 1, negated, ws => do
    let whole (ws : List String) : Answer Bool := do
      finish negated (← disjunction (4 * ws.length + 8) ws)
    let inner : Answer Bool :=
      if ws.head? = some "(" && ws.getLast? = some ")" then whole (ws.drop 1).dropLast
      else if ws.head? = some "!" then evaluateFrom fuel (!negated) (ws.drop 1)
      else whole ws
    match ws with
    | [a, op, b] =>
      if role? op = some .binary then finish negated (← binary op a b, [b]) else inner
    | [_, _, _, _] => inner
    | ws => whole ws

def evaluate (ws : List String) : Answer Bool := evaluateFrom (ws.length + 1) false ws

end KnightLang.Host.Shell.Test
