import KnightLang.Eval.Action

namespace KnightLang

def powerFrom (result base : Int64) (exponent : Nat) : Int64 :=
  if exponent = 0 then result
  else
    powerFrom (if exponent % 2 = 1 then result * base else result) (base * base) (exponent / 2)

/-- The power of two integers. With a negative exponent the exact value is cut off toward zero. -/
def power? (base exponent : Int64) : Except RuntimeError Int64 :=
  if exponent < 0 then
    if base = 0 then .error .negativePowerOfZero
    else if base = 1 then .ok 1
    else if base = -1 then .ok (if exponent % 2 = 0 then 1 else -1)
    else .ok 0
  else .ok (powerFrom 1 base exponent.toInt.toNat)

def repeated (text : String) (times : Nat) : String :=
  if text.isEmpty then "" else times.repeat (· ++ text) ""

namespace Action

def unsupported {α : Type} (attempt : Attempt) (v : Value) : Action α :=
  fail (.unsupported attempt v.kind)

def add (left right : Value) : Action Value := do
  match left with
  | .int a =>
    let b ← toInt right
    if a = 0 then return .int b else return .int (a + b)
  | .str a =>
    let b ← toStr right
    if a.isEmpty then return .str b
    else if b.isEmpty then return .str a
    else return .str (← onStrings (Cache.concat a b))
  | _ => unsupported .add left

def sub (left right : Value) : Action Value := do
  match left with
  | .int a => return .int (a - (← toInt right))
  | _ => unsupported .subtract left

/-- The product of integers, or a text repeated. A repeated text whose length 64 bits cannot tell is an
error, and one of 2^63 bytes or more is longer than any text can be. -/
def mul (left right : Value) : Action Value := do
  match left with
  | .int a => return .int (a * (← toInt right))
  | .str a =>
    let count ← toInt right
    if count < 0 then fail (.negativeRepeat count)
    else
      let times := count.toInt.toNat
      if 0x10000000000000000 ≤ a.length * times then fail (.repeatTooLong count)
      else if 0x8000000000000000 ≤ a.length * times then throw (.panic .capacityOverflow)
      else string (repeated a.text times)
  | _ => unsupported .multiply left

def div (left right : Value) : Action Value := do
  match left with
  | .int a =>
    let b ← toInt right
    if b = 0 then fail .divisionByZero else return .int (a / b)
  | _ => unsupported .divide left

def mod (left right : Value) : Action Value := do
  match left with
  | .int a =>
    let b ← toInt right
    if b ≤ 0 then fail (.modulusNotPositive b) else return .int (a % b)
  | _ => unsupported .divide left

def exp (left right : Value) : Action Value := do
  match left with
  | .int a =>
    match power? a (← toInt right) with
    | .ok n => return .int n
    | .error e => fail e
  | _ => unsupported .exponentiate left

def less (left right : Value) : Action Value := do
  match left with
  | .bool a => return .bool (!a && (← toBool right))
  | .int a => return .bool (a < (← toInt right))
  | .str a => return .bool (compare (Text.bytes a.text) (Text.bytes (← toStr right).text) == .lt)
  | _ => unsupported .compare left

def greater (left right : Value) : Action Value := do
  match left with
  | .bool a => return .bool (a && !(← toBool right))
  | .int a => return .bool (a > (← toInt right))
  | .str a => return .bool (compare (Text.bytes a.text) (Text.bytes (← toStr right).text) == .gt)
  | _ => unsupported .compare left

def binary (op : BinaryOp) (left right : Value) : Action Value :=
  match op with
  | .add => add left right
  | .sub => sub left right
  | .mul => mul left right
  | .div => div left right
  | .mod => mod left right
  | .exp => exp left right
  | .less => less left right
  | .greater => greater left right
  | .equal => return .bool (left.equal right)
  | .and | .or | .assign | .chain => fail (.notArithmetic op)

end Action

end KnightLang
