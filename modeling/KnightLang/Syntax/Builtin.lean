namespace KnightLang

inductive Builtin
  | ascii | block | call | dump | eval | get | branch | length | output | prompt | quit | random
  | substitute | loop | dumpTree
  deriving DecidableEq, Repr

namespace Builtin

/-- A word means what its first letter says, except that the one word in X is `XD`. -/
def ofWord? (word : String) : Option Builtin :=
  match word.toList with
  | 'A' :: _ => some ascii
  | 'B' :: _ => some block
  | 'C' :: _ => some call
  | 'D' :: _ => some dump
  | 'E' :: _ => some eval
  | 'G' :: _ => some get
  | 'I' :: _ => some branch
  | 'L' :: _ => some length
  | 'O' :: _ => some output
  | 'P' :: _ => some prompt
  | 'Q' :: _ => some quit
  | 'R' :: _ => some random
  | 'S' :: _ => some substitute
  | 'W' :: _ => some loop
  | ['X', 'D'] => some dumpTree
  | _ => none

def arity : Builtin → Nat
  | prompt | random => 0
  | ascii | block | call | dump | eval | length | output | quit | dumpTree => 1
  | loop => 2
  | get | branch => 3
  | substitute => 4

end Builtin

end KnightLang
