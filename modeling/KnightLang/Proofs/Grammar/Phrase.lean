import KnightLang.Parse
import Mathlib.Data.List.Basic

/-!
The prefix grammar. A phrase is a tree with its integers as they were spelled, and it is written by an
operator or a word in front of its operands. Main statement: no two phrases begin the same list of
tokens.
-/
namespace KnightLang

inductive Phrase
  | integer (digits : String)
  | text (content : String)
  | true
  | false
  | null
  | name (spelling : String)
  | unary (op : UnaryOp) (operand : Phrase)
  | binary (op : BinaryOp) (left right : Phrase)
  | call (word : String) (builtin : Builtin) (args : List Phrase)

namespace Phrase

mutual

def tokens : Phrase → List Token
  | .integer digits => [.integer digits]
  | .text content => [.text content]
  | .true => [.true]
  | .false => [.false]
  | .null => [.null]
  | .name spelling => [.name spelling]
  | .unary op operand => .unary op :: operand.tokens
  | .binary op left right => .binary op :: (left.tokens ++ right.tokens)
  | .call word _ args => .word word :: tokensAll args

def tokensAll : List Phrase → List Token
  | [] => []
  | p :: ps => p.tokens ++ tokensAll ps

end

/-- Integers are below 2^63, words mean what the calls are of, and calls have as many arguments as
they need. -/
inductive WellFormed : Phrase → Prop
  | integer {digits : String} (h : Decimal.value digits.toList < 0x8000000000000000) :
      WellFormed (.integer digits)
  | text (content : String) : WellFormed (.text content)
  | true : WellFormed .true
  | false : WellFormed .false
  | null : WellFormed .null
  | name (spelling : String) : WellFormed (.name spelling)
  | unary (op : UnaryOp) {p : Phrase} (h : WellFormed p) : WellFormed (.unary op p)
  | binary (op : BinaryOp) {p q : Phrase} (h : WellFormed p) (h' : WellFormed q) :
      WellFormed (.binary op p q)
  | call {word : String} {builtin : Builtin} {ps : List Phrase}
      (hw : Builtin.ofWord? word = some builtin) (hl : ps.length = builtin.arity)
      (h : ∀ p ∈ ps, WellFormed p) : WellFormed (.call word builtin ps)

@[induction_eliminator]
theorem induction {motive : Phrase → Prop} (integer : ∀ digits, motive (.integer digits))
    (text : ∀ content, motive (.text content)) (true : motive .true) (false : motive .false)
    (null : motive .null) (name : ∀ spelling, motive (.name spelling))
    (unary : ∀ op p, motive p → motive (.unary op p))
    (binary : ∀ op p q, motive p → motive q → motive (.binary op p q))
    (call : ∀ word builtin ps, (∀ p ∈ ps, motive p) → motive (.call word builtin ps)) (p : Phrase) :
    motive p :=
  Phrase.rec (motive_2 := fun ps => ∀ p ∈ ps, motive p) integer text true false null name unary binary
    call nofun (fun _ _ h hs => List.forall_mem_cons.2 ⟨h, hs⟩) p

theorem mem_tokensAll {ps : List Phrase} {t : Token} :
    t ∈ tokensAll ps ↔ ∃ p ∈ ps, t ∈ p.tokens := by
  induction ps with
  | nil => simp [tokensAll]
  | cons p ps ih => simp [tokensAll, ih]

end Phrase

end KnightLang
