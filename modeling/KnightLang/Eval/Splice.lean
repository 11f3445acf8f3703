import KnightLang.Eval.Action

namespace KnightLang.Action

def byteRange (start count : Int64) (length : Nat) : Except RuntimeError (Nat × Nat) :=
  if start < 0 ∨ count < 0 then .error (.outOfBounds start count length)
  else
    let first := start.toInt.toNat
    let last := first + count.toInt.toNat
    if last ≤ length then .ok (first, last) else .error (.outOfBounds start count length)

def range (start count : Int64) (length : Nat) : Action (Nat × Nat) :=
  match byteRange start count length with
  | .ok ends => return ends
  | .error e => fail e

def slice (s : Str) (start stop : Nat) : Action Str := do
  match ← onStrings (Cache.substring s start stop) with
  | some part => return part
  | none => fail (.outOfBounds (.ofNat start) (.ofNat (stop - start)) s.length)

def get (string start count : Value) : Action Value := do
  let s ← toStr string
  let start ← toInt start
  let count ← toInt count
  let (first, last) ← range start count s.length
  if first = last then return .str (← onStrings Cache.emptyString)
  else if first = 0 ∧ last = s.length then return .str s
  else return .str (← slice s first last)

def delete (s : Str) (first last : Nat) : Action Str := do
  if first = 0 then
    if last = s.length then onStrings Cache.emptyString else slice s last s.length
  else if first = last then return s
  else if last = s.length then slice s 0 first
  else
    let head ← slice s 0 first
    let tail ← slice s last s.length
    onStrings (Cache.concat head tail)

def replace (s : Str) (first last : Nat) (replacement : Str) : Action Str := do
  let head ← slice s 0 first
  let head ← onStrings (Cache.concat head replacement)
  let tail ← slice s last s.length
  onStrings (Cache.concat head tail)

/-- Putting nothing in the place of nothing gives back the value itself, whatever it is. -/
def substitute (string start count replacement : Value) : Action Value := do
  let start ← toInt start
  let count ← toInt count
  let replacement ← toStr replacement
  if count = 0 ∧ replacement.isEmpty then return string
  else
    let s ← toStr string
    let (first, last) ← range start count s.length
    if replacement.isEmpty then return .str (← delete s first last)
    else return .str (← replace s first last replacement)

def characterOf (n : Int64) : Char :=
  if n < 0 then Text.replacement
  else
    let code := n.toInt.toNat
    if code.isValidChar then Char.ofNat code else Text.replacement

def ascii (v : Value) : Action Value := do
  match v with
  | .int n => string (String.singleton (characterOf n))
  | .str s =>
    match Text.bytes s.text with
    | b :: _ => return .int (.ofNat b.toNat)
    | [] => fail (.outOfBounds 0 1 0)
  | _ => fail (.unsupported .takeAscii v.kind)

end KnightLang.Action
