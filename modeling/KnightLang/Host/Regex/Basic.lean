import KnightLang.Host.Text.CharClass

namespace KnightLang.Host

inductive Edge
  | lineStart
  | lineEnd
  | textStart
  | textEnd
  | wordStart
  | wordEnd
  | word
  | noWord
  deriving DecidableEq, Repr

inductive CharChoice
  | range (first last : Char)
  | named (name : String)
  deriving DecidableEq, Repr

inductive Regex
  | empty
  | one (c : Char)
  | any
  | oneOf (negated : Bool) (choices : List CharChoice)
  | edge (e : Edge)
  | sequence (a b : Regex)
  | either (a b : Regex)
  | repeated (a : Regex) (least : Nat) (most : Option Nat)
  | group (n : Nat) (a : Regex)
  | again (n : Nat)
  deriving Repr

namespace Regex

def refersBack : Regex → Bool
  | sequence a b | either a b => a.refersBack || b.refersBack
  | repeated a _ _ | group _ a => a.refersBack
  | again _ => true
  | _ => false

structure Subject where
  text : Array Char
  ignoreCase : Bool := false
  lines : Bool := false

structure Place where
  position : Nat
  groups : List (Nat × Nat × Nat) := []
  deriving DecidableEq

def Place.group? (p : Place) (n : Nat) : Option (Nat × Nat) := p.groups.lookup n

namespace Subject

def same (s : Subject) (a b : Char) : Bool := a = b || (s.ignoreCase && a.toLower = b.toLower)

def chooses (s : Subject) (c : Char) : CharChoice → Bool
  | .range first last =>
    if s.ignoreCase then first.toUpper ≤ c.toUpper && c.toUpper ≤ last.toUpper
    else first ≤ c && c ≤ last
  | .named name =>
    CharClass.holds (if s.ignoreCase && (name = "upper" || name = "lower") then "alpha" else name) c

def isWordChar (c : Char) : Bool := c.isAlphanum || c = '_'

def wordAt (s : Subject) (i : Nat) : Bool := (s.text[i]?).any isWordChar

def atEdge (s : Subject) (i : Nat) : Edge → Bool
  | .textStart => i = 0
  | .textEnd => i = s.text.size
  | .lineStart => i = 0 || (s.lines && s.text[i - 1]? = some '\n')
  | .lineEnd => i = s.text.size || (s.lines && s.text[i]? = some '\n')
  | .wordStart => !before i && s.wordAt i
  | .wordEnd => before i && !s.wordAt i
  | .word => before i ≠ s.wordAt i
  | .noWord => before i = s.wordAt i
where
  before (i : Nat) : Bool := i > 0 && s.wordAt (i - 1)

def repeats (s : Subject) (i j : Nat) : Nat → Bool
  | 0 => true
  | n + 1 =>
    match s.text[i]?, s.text[j]? with
    | some a, some b => s.same a b && repeats s (i + 1) (j + 1) n
    | _, _ => false

def step (s : Subject) (f : Char → Bool) (p : Place) : List Place :=
  match s.text[p.position]? with
  | some c => if f c then [{ p with position := p.position + 1 }] else []
  | none => []

end Subject

def onePerPosition : List Place → List Place
  | p :: q :: rest =>
    if p.position = q.position then onePerPosition (p :: rest) else p :: onePerPosition (q :: rest)
  | rest => rest
termination_by l => l.length

/-- The furthest places first; among equal ones those found first. If the groups do not matter any more
one for each position is enough. -/
def arranged (exact : Bool) (places : List Place) : List Place :=
  match places with
  | [] | [_] => places
  | _ =>
    let sorted := places.mergeSort fun p q => q.position ≤ p.position
    if exact then sorted.eraseDups else onePerPosition sorted

def repetitions (exact : Bool) (next : Place → List Place) (least : Nat) (most : Option Nat) :
    Nat → Nat → List Place → List Place → Nat → List Place
  | 0, _, _, found, _ => found.reverse
  | fuel + 1, count, level, found, bound =>
    let enough := least ≤ count
    let found := if enough then level.reverse ++ found else found
    let bound := if enough then level.foldl (fun n p => max n (p.position + 1)) bound else bound
    if level.isEmpty || most = some count then found.reverse
    else
      let after := level.flatMap fun p => (next p).filter fun q => !enough || p.position < q.position
      let isNew (q : Place) : Bool :=
        exact || bound ≤ q.position || !(found.any (·.position = q.position))
      repetitions exact next least most fuel (count + 1) ((arranged exact after).filter isNew) found
        bound

def ends (exact : Bool) (s : Subject) : Regex → Place → List Place
  | empty, p => [p]
  | one c, p => s.step (s.same c) p
  | any, p => s.step (fun c => !(s.lines && c = '\n')) p
  | oneOf negated choices, p =>
    s.step (fun c => choices.any (s.chooses c) ≠ negated && !(negated && s.lines && c = '\n')) p
  | edge e, p => if s.atEdge p.position e then [p] else []
  | sequence a b, p => arranged exact ((ends exact s a p).flatMap (ends exact s b))
  | either a b, p => arranged exact (ends exact s a p ++ ends exact s b p)
  | repeated a least most, p =>
    arranged exact (repetitions exact (ends exact s a) least most (least + s.text.size + 2) 0 [p] [] 0)
  | group n a, p => (ends exact s a p).map fun q =>
    { q with groups := (n, p.position, q.position) :: q.groups.filter (·.1 ≠ n) }
  | again n, p =>
    match p.group? n with
    | some (first, last) =>
      if s.repeats first p.position (last - first) then
        [{ p with position := p.position + (last - first) }]
      else []
    | none => []

def endsAt (r : Regex) (s : Subject) (i : Nat) : List Place :=
  arranged r.refersBack (ends r.refersBack s r { position := i })

def matchAt (r : Regex) (s : Subject) (i : Nat) : Option Place := (r.endsAt s i).head?

def firstOf {α : Type} (f : Nat → Option α) : Nat → Nat → Option (Nat × α)
  | 0, _ => none
  | n + 1, i =>
    match f i with
    | some a => some (i, a)
    | none => firstOf f n (i + 1)

def search (r : Regex) (s : Subject) (i : Nat) : Option (Nat × Place) :=
  firstOf (r.matchAt s) (s.text.size + 1 - i) i

def literal (text : String) : Regex :=
  text.toList.foldr (fun c r => if r matches .empty then .one c else .sequence (.one c) r) .empty

end Regex

end KnightLang.Host
