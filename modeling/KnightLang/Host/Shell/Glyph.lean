import KnightLang.Files.Tree
import KnightLang.Host.Shell.Pattern

namespace KnightLang.Host.Shell

inductive Glyph
  | bare (c : Char)
  | value (c : Char)
  | fixed (c : Char)
  | border
  | edge
  | quote
  deriving DecidableEq, Repr

namespace Glyph

def char? : Glyph → Option Char
  | bare c | value c | fixed c => some c
  | border => some '\x00'
  | _ => none

def text (gs : Array Glyph) : String :=
  gs.foldl (fun s g => match g.char? with
    | some c => s.push c
    | none => s) ""

def ofText (glyph : Char → Glyph) (s : String) : Array Glyph :=
  s.foldl (fun gs c => gs.push (glyph c)) #[]

def pattern (gs : Array Glyph) : List PatternPart :=
  Pattern.ofString (gs.foldl (fun s g => match g with
    | fixed c => (s.push '\\').push c
    | bare c | value c => s.push c
    | _ => s) "")

/-! ### Fields -/

/-- Fields under construction. After a blank that ends a field, `blank` is set: more blanks and one
separator that is no blank belong to the same end. -/
structure Splitting where
  done : Array (Array Glyph) := #[]
  current : Array Glyph := #[]
  blank : Bool := false

def Splitting.step (separators : String) (s : Splitting) (g : Glyph) : Splitting :=
  match g with
  | .edge => { s with blank := false }
  | .border => { done := s.done.push s.current }
  | .value c =>
    let isSeparator := c = '\x00' || separators.contains c
    let isBlank := c = '\x00' || c = ' ' || c = '\t' || c = '\n'
    if !isSeparator then { s with current := s.current.push g, blank := false }
    else if s.blank then { s with blank := isBlank }
    else if s.current.isEmpty && isBlank then s
    else { done := s.done.push s.current, blank := isBlank }
  | g => { s with current := s.current.push g, blank := false }

def fields (separators : String) (gs : Array Glyph) : List (Array Glyph) :=
  let s := gs.foldl (Splitting.step separators) {}
  (if s.current.isEmpty then s.done else s.done.push s.current).toList

/-! ### Paths -/

def parts (gs : Array Glyph) : List (Array Glyph) :=
  let (done, last) := gs.foldl (fun (done, current) g =>
    if g.char? = some '/' then (done.push current, #[]) else (done, current.push g))
    ((#[], #[]) : Array (Array Glyph) × Array Glyph)
  (done.push last).toList

def isPattern (gs : Array Glyph) : Bool := (pattern gs).any Pattern.isActive

def matching (files : Files.Tree) (here : Nat) (start : String) (part : Array Glyph) : List String :=
  match files.find here (if start.isEmpty then "." else start) with
  | .error _ => []
  | .ok id =>
    let ps := pattern part
    let dotted := match ps with
      | .one '.' :: _ => true
      | _ => false
    ("." :: ".." :: (files.entries id).map (·.1)).filter fun name =>
      (dotted || !name.startsWith ".") && Pattern.isMatch ps name.toList

def paths (files : Files.Tree) (here : Nat) : String → List (Array Glyph) → List String
  | start, [] => [start]
  | start, [part] =>
    if isPattern part then (matching files here start part).map (start ++ ·)
    else
      match files.lookup false here (start ++ text part) with
      | .ok _ => [start ++ text part]
      | .error _ => []
  | start, part :: rest =>
    if isPattern part then
      (matching files here start part).flatMap fun name => paths files here (start ++ name ++ "/") rest
    else paths files here (start ++ text part ++ "/") rest

def expanded (files : Files.Tree) (here : Nat) (field : Array Glyph) : List String :=
  if isPattern field then
    match (paths files here "" (parts field)).mergeSort fun a b => !(b < a) with
    | [] => [text field]
    | found => found
  else [text field]

end Glyph

end KnightLang.Host.Shell
