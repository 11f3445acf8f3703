import KnightLang.Host.Text.CharClass

namespace KnightLang.Host.Shell

inductive Choice
  | range (first last : Char)
  | named (name : String)
  deriving DecidableEq, Repr

inductive PatternPart
  | one (c : Char)
  | any
  | many
  | choice (negated : Bool) (choices : List Choice)
  deriving DecidableEq, Repr

def signedOrder (c : Char) : Nat := if c.toNat < 128 then c.toNat + 128 else c.toNat - 128

def Choice.matches (c : Char) : Choice → Bool
  | range first last =>
    signedOrder first ≤ signedOrder c && signedOrder c ≤ signedOrder last
  | named name => CharClass.holds name c

namespace Pattern

def readClass (cs : List Char) : Option (String × List Char) :=
  let name := cs.takeWhile Char.isAlpha
  match cs.drop name.length with
  | ':' :: ']' :: rest =>
    if CharClass.names.contains (String.ofList name) then some (String.ofList name, rest) else none
  | _ => none

def readChoices : Nat → Bool → List Choice → List Char → Option (List Choice × List Char)
  | 0, _, _, _ => none
  | _, _, _, [] => none
  | fuel + 1, first, found, c :: rest =>
    if c = ']' && !first then some (found.reverse, rest)
    else
      match c, rest with
      | '[', ':' :: more =>
        match readClass more with
        | some (name, rest) => readChoices fuel false (.named name :: found) rest
        | none => readRange fuel '[' found rest
      | '\\', c :: rest => readRange fuel c found rest
      | _, _ => readRange fuel c found rest
where
  readRange (fuel : Nat) (c : Char) (found : List Choice) (rest : List Char) :
      Option (List Choice × List Char) :=
    match rest with
    | '-' :: '\\' :: last :: after => readChoices fuel false (.range c last :: found) after
    | '-' :: last :: after =>
      if last = ']' then readChoices fuel false (.range c c :: found) rest
      else readChoices fuel false (.range c last :: found) after
    | _ => readChoices fuel false (.range c c :: found) rest

def ofChars : Nat → List Char → List PatternPart
  | 0, _ | _, [] => []
  | fuel + 1, c :: rest =>
    match c, rest with
    | '?', _ => .any :: ofChars fuel rest
    | '*', _ => .many :: ofChars fuel rest
    | '\\', c :: rest => .one c :: ofChars fuel rest
    | '[', _ =>
      let (negated, inside) := match rest with
        | '!' :: inside => (true, inside)
        | inside => (false, inside)
      match readChoices (inside.length + 1) true [] inside with
      | some (choices, rest) => .choice negated choices :: ofChars fuel rest
      | none => .one '[' :: ofChars fuel rest
    | _, _ => .one c :: ofChars fuel rest

def ofString (s : String) : List PatternPart := ofChars (s.length + 1) s.toList

def someRest (f : List Char → Bool) : List Char → Bool
  | [] => f []
  | c :: cs => f (c :: cs) || someRest f cs

def isMatch : List PatternPart → List Char → Bool
  | [], cs => cs.isEmpty
  | .many :: ps, cs => someRest (isMatch ps) cs
  | .one p :: ps, c :: cs => p = c && isMatch ps cs
  | .any :: ps, _ :: cs => isMatch ps cs
  | .choice negated choices :: ps, c :: cs =>
    choices.any (·.matches c) ≠ negated && isMatch ps cs
  | _ :: _, [] => false

def isActive : PatternPart → Bool
  | .one _ => false
  | _ => true

end Pattern

end KnightLang.Host.Shell
