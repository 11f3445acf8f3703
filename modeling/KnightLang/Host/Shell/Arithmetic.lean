import KnightLang.Text.Decimal

namespace KnightLang.Host.Shell.Arithmetic

inductive Token
  | number (n : Int64)
  | name (s : String)
  | op (s : String)
  deriving DecidableEq

inductive Fault
  | expecting (what : String)
  | divisionByZero
  | illegalNumber (text : String)
  | overflow
  deriving DecidableEq, Repr

def isSpace (c : Char) : Bool := c = ' ' || (9 ≤ c.toNat && c.toNat ≤ 13)

def digitValue (c : Char) : Nat :=
  if c.isDigit then c.toNat - 48
  else if 'a' ≤ c && c ≤ 'z' then c.toNat - 87
  else if 'A' ≤ c && c ≤ 'Z' then c.toNat - 55
  else 99

def readDigits (base : Nat) (cs : List Char) : Nat × List Char :=
  let ds := cs.takeWhile fun c => digitValue c < base
  (ds.foldl (fun n c => base * n + digitValue c) 0, cs.drop ds.length)

def readNatural : List Char → Option (Nat × List Char)
  | '0' :: x :: d :: rest =>
    if (x = 'x' || x = 'X') && digitValue d < 16 then some (readDigits 16 (d :: rest))
    else some (readDigits 8 ('0' :: x :: d :: rest))
  | '0' :: rest => some (readDigits 8 ('0' :: rest))
  | c :: rest => if c.isDigit then some (readDigits 10 (c :: rest)) else none
  | [] => none

def greatest : Int := 0x7fffffffffffffff

def least : Int := -0x8000000000000000

def readInteger (read : List Char → Option (Nat × List Char)) (cs : List Char) :
    Option (Int × List Char) :=
  match cs.dropWhile isSpace with
  | '-' :: rest => (read rest).map fun (n, rest) => (-(n : Int), rest)
  | '+' :: rest => (read rest).map fun (n, rest) => ((n : Int), rest)
  | rest => (read rest).map fun (n, rest) => ((n : Int), rest)

def decimal? (text : String) : Option Int :=
  match readInteger (fun cs =>
      if (cs.head?.map Char.isDigit).getD false then some (readDigits 10 cs) else none) text.toList with
  | some (n, rest) => if least ≤ n && n ≤ greatest && rest.all isSpace then some n else none
  | none => none

def valueOf (text : String) : Except Fault Int64 :=
  match readInteger readNatural text.toList with
  | some (n, rest) =>
    if n < least || greatest < n || !rest.all isSpace then .error (.illegalNumber text)
    else .ok (.ofInt n)
  | none => if text.toList.all isSpace then .ok 0 else .error (.illegalNumber text)

def operators : List String :=
  ["<<=", ">>=", "<<", ">>", "<=", ">=", "==", "!=", "&&", "||", "+=", "-=", "*=", "/=", "%=", "&=",
    "^=", "|=", "+", "-", "*", "/", "%", "<", ">", "=", "!", "~", "&", "|", "^", "?", ":", "(", ")"]

def isNameStart (c : Char) : Bool := c.isAlpha || c = '_'

def tokens : Nat → List Char → List Token
  | 0, _ => []
  | fuel + 1, cs =>
    match cs.dropWhile isSpace with
    | [] => []
    | c :: rest =>
      if c.isDigit then
        let (n, rest) := (readNatural (c :: rest)).getD (0, [])
        .number (.ofInt (min n greatest)) :: tokens fuel rest
      else if isNameStart c then
        let part (c : Char) : Bool := c.isAlphanum || c = '_'
        .name (String.ofList (c :: rest.takeWhile part)) :: tokens fuel (rest.dropWhile part)
      else
        match operators.find? fun o => o.toList.isPrefixOf (c :: rest) with
        | some o => .op o :: tokens fuel ((c :: rest).drop o.length)
        | none => [.op "strange"]

def rank? : String → Option Nat
  | "*" | "/" | "%" => some 0
  | "+" | "-" => some 1
  | "<<" | ">>" => some 2
  | "<" | "<=" | ">" | ">=" => some 3
  | "==" | "!=" => some 4
  | "&" => some 5
  | "^" => some 6
  | "|" => some 7
  | _ => none

def truth (b : Bool) : Int64 := if b then 1 else 0

def divided (f : Int64 → Int64 → Int64) (a b : Int64) : Except Fault Int64 :=
  if b = 0 then .error .divisionByZero
  else if a = Int64.minValue && b = -1 then .error .overflow
  else .ok (f a b)

def operate (op : String) (a b : Int64) : Except Fault Int64 :=
  match op with
  | "*" => .ok (a * b)
  | "/" => divided (· / ·) a b
  | "%" => divided (· % ·) a b
  | "+" => .ok (a + b)
  | "-" => .ok (a - b)
  | "<<" => .ok (a <<< b)
  | ">>" => .ok (a >>> b)
  | "<" => .ok (truth (a < b))
  | "<=" => .ok (truth (a ≤ b))
  | ">" => .ok (truth (b < a))
  | ">=" => .ok (truth (b ≤ a))
  | "==" => .ok (truth (a = b))
  | "!=" => .ok (truth (a ≠ b))
  | "&" => .ok (a &&& b)
  | "^" => .ok (a ^^^ b)
  | "|" => .ok (a ||| b)
  | _ => .error (.expecting "EOF")

structure Progress where
  rest : List Token
  assigned : List (String × Int64) := []

abbrev Compute : Type → Type := StateT Progress (Except Fault)

def peek : Compute (Option Token) := return (← get).rest.head?

def advance : Compute Unit := modify fun p => { p with rest := p.rest.drop 1 }

def accept (op : String) : Compute Bool := do
  if (← peek) = some (.op op) then
    advance
    return true
  else return false

def lookUp (values : String → String) (name : String) : Compute Int64 := do
  match (← get).assigned.lookup name with
  | some n => return n
  | none => fun p => (valueOf (values name)).map fun n => (n, p)

def assigning : List String :=
  ["=", "+=", "-=", "*=", "/=", "%=", "<<=", ">>=", "&=", "^=", "|="]

mutual

def assignment (values : String → String) (skip : Bool) : Nat → Compute Int64
  | 0 => throw (.expecting "primary")
  | fuel + 1 => do
    match (← get).rest with
    | .name name :: .op op :: _ =>
      if assigning.contains op then
        advance
        advance
        let n ← assignment values skip fuel
        if skip then return n
        else
          let n ←
            if op = "=" then pure n
            else
              let old ← lookUp values name
              fun p => (operate (op.dropEnd 1).copy old n).map fun n => (n, p)
          modify fun p => { p with assigned := (name, n) :: p.assigned }
          return n
      else conditional values skip fuel
    | _ => conditional values skip fuel

def conditional (values : String → String) (skip : Bool) : Nat → Compute Int64
  | 0 => throw (.expecting "primary")
  | fuel + 1 => do
    let a ← disjunction values skip fuel
    if ← accept "?" then
      let b ← assignment values (skip || a = 0) fuel
      if ← accept ":" then
        let c ← conditional values (skip || a ≠ 0) fuel
        return if a ≠ 0 then b else c
      else throw (.expecting "':'")
    else return a

def disjunction (values : String → String) (skip : Bool) : Nat → Compute Int64
  | 0 => throw (.expecting "primary")
  | fuel + 1 => do
    let a ← conjunction values skip fuel
    if ← accept "||" then
      let b ← disjunction values (skip || a ≠ 0) fuel
      return truth (a ≠ 0 || b ≠ 0)
    else return a

def conjunction (values : String → String) (skip : Bool) : Nat → Compute Int64
  | 0 => throw (.expecting "primary")
  | fuel + 1 => do
    let a ← operation values skip 8 fuel
    if ← accept "&&" then
      let b ← conjunction values (skip || a = 0) fuel
      return truth (a ≠ 0 && b ≠ 0)
    else return a

def operation (values : String → String) (skip : Bool) (below : Nat) : Nat → Compute Int64
  | 0 => throw (.expecting "primary")
  | fuel + 1 => do
    let a ← operand values skip fuel
    operationFrom values skip below a fuel

def operationFrom (values : String → String) (skip : Bool) (below : Nat) (a : Int64) :
    Nat → Compute Int64
  | 0 => throw (.expecting "primary")
  | fuel + 1 => do
    match ← peek with
    | some (.op op) =>
      match rank? op with
      | none => return a
      | some rank =>
        if rank < below then
          advance
          let b ← operation values skip rank fuel
          let n ← if skip then pure b else fun p => (operate op a b).map fun n => (n, p)
          operationFrom values skip below n fuel
        else return a
    | _ => return a

def operand (values : String → String) (skip : Bool) : Nat → Compute Int64
  | 0 => throw (.expecting "primary")
  | fuel + 1 => do
    match ← peek with
    | some (.number n) =>
      advance
      return n
    | some (.name name) =>
      advance
      if skip then return 0 else lookUp values name
    | some (.op "(") =>
      advance
      let n ← assignment values skip fuel
      if ← accept ")" then return n else throw (.expecting "')'")
    | some (.op "+") =>
      advance
      operand values skip fuel
    | some (.op "-") =>
      advance
      return -(← operand values skip fuel)
    | some (.op "!") =>
      advance
      return truth ((← operand values skip fuel) = 0)
    | some (.op "~") =>
      advance
      return ~~~(← operand values skip fuel)
    | _ => throw (.expecting "primary")

end

def evaluate (values : String → String) (text : String) :
    Except Fault (Int64 × List (String × Int64)) := do
  let ts := tokens (text.length + 1) text.toList
  let (n, p) ← (assignment values false (16 * ts.length + 32)).run { rest := ts }
  if p.rest.isEmpty then return (n, p.assigned.reverse) else throw (.expecting "EOF")

end KnightLang.Host.Shell.Arithmetic
