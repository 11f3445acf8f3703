import KnightLang.Host.Shell.Options

namespace KnightLang.Host.Shell.Run

def splitAssignment (word : String) : String × Option String :=
  let cs := word.toList
  match cs.dropWhile (· ≠ '=') with
  | _ :: value => (String.ofList (cs.takeWhile (· ≠ '=')), some (String.ofList value))
  | [] => (word, none)

def requireName (name : String) : Run Unit := do
  unless isName name do fail (name ++ ": bad variable name")

def sortedVariables : Run (List (String × Variable)) := do
  return (← shell).bindings.mergeSort fun a b => !(b.1 < a.1)

def listVariables (start : String) (keep : Variable → Bool) : Run Unit := do
  for (name, v) in ← sortedVariables do
    if keep v then
      match v.value with
      | some value => print (start ++ name ++ "=" ++ inQuotes value ++ "\n")
      | none => unless start.isEmpty do print (start ++ name ++ "\n")

def mark (name : String) (f : Variable → Variable) : Run Unit := do
  putVariable name (f ((← binding? name).getD { value := none }))

def markAll (word : String) (keep : Variable → Bool) (f : Variable → Variable)
    (arguments : List String) : Run Nat := do
  let (found, names) ← options "p" arguments
  if !found.isEmpty || names.isEmpty then listVariables (word ++ " ") keep
  else
    for argument in names do
      let (name, value) := splitAssignment argument
      requireName name
      if let some value := value then assign name value
      mark name f
  return 0

def exportNames : List String → Run Nat :=
  markAll "export" (·.exported) fun v => { v with exported := true }

def readonlyNames : List String → Run Nat :=
  markAll "readonly" (·.readonly) fun v => { v with readonly := true }

def unsetNames (arguments : List String) : Run Nat := do
  let (found, names) ← options "vf" arguments
  let ofFunctions := match found.getLast? with
    | some ('f', _) => true
    | _ => false
  for name in names do
    if ofFunctions then
      modifyShell fun s => { s with functions := s.functions.filter (·.1 ≠ name) }
    else
      requireName name
      unassign name
  return 0

/-! ### Variables of a function -/

def remember (name : String) : Run Unit := do
  let v ← binding? name
  modifyShell fun s =>
    match s.frames with
    | frame :: rest =>
      if frame.bindings.any (·.1 = name) then s
      else { s with frames := { frame with bindings := (name, v) :: frame.bindings } :: rest }
    | [] => s

def restoreVariable (name : String) : Option Variable → Run Unit
  | some v => do
    putVariable name v
    if name = "OPTIND" then
      let n := (v.value.bind (·.toNat?)).getD 1
      modifyShell fun s => { s with optionIndex := max n 1, optionOffset := none }
    if name = "PATH" then modifyShell fun s => { s with found := [] }
  | none => modifyShell fun s => { s with bindings := s.bindings.filter (·.1 ≠ name) }

def openFrame : Run Unit := modifyShell fun s => { s with frames := {} :: s.frames }

def closeFrames (left : Nat) : Run Unit := do
  let frames := (← shell).frames
  for frame in frames.take (frames.length - left) do
    for (name, v) in frame.bindings do
      restoreVariable name v
    if let some options := frame.options then modifyShell fun s => { s with options }
  modifyShell fun s => { s with frames := frames.drop (frames.length - left) }

def makeLocal (exported : Bool) (word : String) : Run Unit := do
  if word = "-" then
    modifyShell fun s =>
      match s.frames with
      | frame :: rest =>
        { s with frames := { frame with options := some (frame.options.getD s.options) } :: rest }
      | [] => s
  else
    let (name, value) := splitAssignment word
    requireName name
    remember name
    match value with
    | some value => assignAs exported name value
    | none => mark name id

def declareLocal (arguments : List String) : Run Nat := do
  if (← shell).frames.isEmpty then fail "not in a function"
  for word in arguments do makeLocal false word
  return 0

/-! ### Arguments -/

def setCommand (arguments : List String) : Run Nat := do
  if arguments.isEmpty then listVariables "" fun _ => true
  else setAll (arguments.length + 1) arguments
  return 0

def shift (arguments : List String) : Run Nat := do
  let n ← match arguments with
    | [] => pure 1
    | a :: _ => number a
  let present := (← shell).arguments
  if n > present.length then fail "can't shift that many"
  setArguments (present.drop n)
  return 0

structure OptionStep where
  letter : Char
  argument : Option String := none
  complaint : Option String := none
  index : Nat
  offset : Option Nat := none
  done : Bool := false

def nextOption (allowed : String) (index : Nat) (offset : Option Nat) (arguments : List String) :
    OptionStep :=
  let silent := allowed.startsWith ":"
  let before := (arguments[index - 2]?.getD "").toList
  let unfinished := match offset with
    | some n => if index ≤ 1 then [] else before.drop n
    | none => []
  let found : Option (List Char × Nat) ⊕ Nat :=
    if !unfinished.isEmpty then .inl (some (unfinished, index))
    else
      match (arguments[index - 1]?.getD "").toList with
      | ['-', '-'] => .inr (index + 1)
      | '-' :: c :: rest => .inl (some (c :: rest, index + 1))
      | _ => .inr index
  match found with
  | .inl (some (c :: rest, index)) =>
    let here := if rest.isEmpty then none
      else some ((arguments[index - 2]?.getD "").length - rest.length)
    match allowed.toList.dropWhile (· ≠ c) with
    | _ :: ':' :: _ =>
      if !rest.isEmpty then { letter := c, argument := some (String.ofList rest), index }
      else
        match arguments[index - 1]? with
        | some a => { letter := c, argument := some a, index := index + 1 }
        | none =>
          if silent then { letter := ':', argument := some (String.singleton c), index }
          else
            { letter := '?', index,
              complaint := some ("No arg for -" ++ String.singleton c ++ " option\n") }
    | _ :: _ => { letter := c, argument := some "", index, offset := here }
    | [] =>
      if silent then
        { letter := '?', argument := some (String.singleton c), index, offset := here }
      else
        { letter := '?', index, offset := here,
          complaint := some ("Illegal option -" ++ String.singleton c ++ "\n") }
  | .inl _ => { letter := '?', argument := none, index, done := true }
  | .inr index => { letter := '?', argument := none, index, done := true }

def getOptions (arguments : List String) : Run Nat := do
  match arguments with
  | allowed :: name :: own =>
    let s ← shell
    let source := if own.isEmpty then s.arguments else own
    let fresh := s.optionIndex > source.length + 1
    let step := nextOption allowed (if fresh then 1 else s.optionIndex)
      (if fresh then none else s.optionOffset) source
    if let some complaint := step.complaint then
      let _ ← write 2 complaint
      unassign "OPTARG"
    if let some argument := step.argument then assign "OPTARG" argument
    assign "OPTIND" (Decimal.ofNat step.index)
    modifyShell fun s => { s with optionIndex := step.index, optionOffset := step.offset }
    requireName name
    assign name (String.singleton step.letter)
    return if step.done then 1 else 0
  | _ => fail "Usage: getopts optstring var [arg...]"

end KnightLang.Host.Shell.Run
