import KnightLang.Host.Shell.Variables

namespace KnightLang.Host.Shell

structure LineFields where
  done : List String := []
  current : String := ""
  cut : Option Nat := none
  blank : Bool := false
  wanted : Nat

namespace LineFields

def step (separators : String) (l : LineFields) (c : Char) : LineFields :=
  let separates := separators.contains c
  let isBlank := separates && (c = ' ' || c = '\t' || c = '\n')
  if l.wanted = 0 then
    if isBlank then
      { l with current := l.current.push c, cut := some (l.cut.getD l.current.length) }
    else
      { l with current := l.current.push c, blank := false,
               cut := if separates && l.blank then l.cut else none }
  else if l.blank then
    if isBlank then { l with current := "" }
    else if separates then { l with current := "", blank := false }
    else { l with current := l.current.push c, blank := false }
  else if separates then
    if l.current.isEmpty && isBlank then l
    else if l.wanted = 1 then
      { l with current := l.current.push c, cut := some l.current.length, blank := isBlank,
               wanted := 0 }
    else
      { l with done := l.current :: l.done, current := "", blank := isBlank, wanted := l.wanted - 1 }
  else { l with current := l.current.push c }

def keep (l : LineFields) (c : Char) : LineFields :=
  { l with current := l.current.push c, blank := false }

def result (l : LineFields) : List String :=
  let last := match l.cut with
    | some n => String.ofList (l.current.toList.take n)
    | none => l.current
  (if last.isEmpty then l.done else last :: l.done).reverse

end LineFields

namespace Run

/-- Reads a line. Unless it is taken as it is, a backslash makes the next character stand for itself and
joins the next line to this one. The result tells whether the line had an end. -/
def readFields (raw : Bool) (separators : String) : Nat → LineFields → Run (Bool × LineFields)
  | 0, l => return (false, l)
  | fuel + 1, l => do
    match ← work (.readLine 0) with
    | .error _ => return (false, l)
    | .ok line => do
      let cs := line.toList.filter (· ≠ '\x00')
      let ended := cs.getLast? = some '\n'
      let cs := if ended then cs.dropLast else cs
      let (escaped, l) := cs.foldl (fun (escaped, l) c =>
        if escaped then (false, LineFields.keep l c)
        else if c = '\\' && !raw then (true, l)
        else (false, LineFields.step separators l c)) (false, l)
      if escaped && ended then readFields raw separators fuel { l with blank := false }
      else return (ended, l)

def readLine (arguments : List String) : Run Nat := do
  let (found, names) ← options "p:r" arguments
  if names.isEmpty then fail "arg count"
  let separators ← separators
  let (ended, l) ← readFields (found.any (·.1 = 'r')) separators 1000000 { wanted := names.length }
  let values := l.result
  for (name, i) in names.zipIdx do
    requireName name
    assign name (values[i]?.getD "")
  return if ended then 0 else 1

end Run

end KnightLang.Host.Shell
