import KnightLang.Store
import KnightLang.Strings.Cache
import KnightLang.Syntax.Token
import KnightLang.Tree.Basic

/-!
Programs out of tokens. An expression is written in prefix order, so reading it needs only a stack of
the operators and functions that still wait for operands. What follows the first expression is not
read.
-/
namespace KnightLang

structure Workspace where
  strings : Interner
  store : Store
  nextNode : Nat

namespace Workspace

def fresh : Workspace := ⟨.create {} {}, .empty, 0⟩

@[inline] def onStrings {α : Type} (x : StateM Interner α) : StateM Workspace α :=
  fun ⟨strings, store, nextNode⟩ =>
    let (a, strings) := x strings
    (a, ⟨strings, store, nextNode⟩)

@[inline] def onStore {α : Type} (x : StateM Store α) : StateM Workspace α :=
  fun ⟨strings, store, nextNode⟩ =>
    let (a, store) := x store
    (a, ⟨strings, store, nextNode⟩)

@[inline] def number : StateM Workspace Nat :=
  fun ⟨strings, store, nextNode⟩ => (nextNode, ⟨strings, store, nextNode + 1⟩)

end Workspace

namespace Parse

open Workspace

/-- An operator or function that waits for an operand: of a binary operator the left one or, after it,
the right one; of a call some argument, with those before it in reverse and the number of those
after it. -/
inductive Pending
  | unary (op : UnaryOp)
  | left (op : BinaryOp)
  | right (op : BinaryOp) (left : Node)
  | call (word : String) (builtin : Builtin) (done : List Node) (more : Nat)

def start (l : Lexeme) : StateM Workspace (Except CompileError (Pending ⊕ Node)) := do
  match l.token with
  | .unary op => return .ok (.inl (.unary op))
  | .binary op => return .ok (.inl (.left op))
  | .integer digits =>
    let n := Decimal.value digits.toList
    if n < 0x8000000000000000 then return .ok (.inr (.literal (← number) (.int (.ofNat n))))
    else return .error (.integerOutOfRange digits l.span)
  | .text content =>
    let s ← onStrings (Cache.string content)
    return .ok (.inr (.literal (← number) (.str s)))
  | .true => return .ok (.inr (.literal (← number) (.bool Bool.true)))
  | .false => return .ok (.inr (.literal (← number) (.bool Bool.false)))
  | .null => return .ok (.inr (.literal (← number) .null))
  | .name spelling =>
    let v ← onStore (Store.lookup spelling)
    return .ok (.inr (.var (← number) v))
  | .word spelling =>
    match Builtin.ofWord? spelling with
    | none => return .error (.unknownFunction spelling l.span)
    | some builtin =>
      match builtin.arity with
      | 0 => return .ok (.inr (.call (← number) spelling builtin []))
      | more + 1 => return .ok (.inl (.call spelling builtin [] more))

/-- Gives a node to what waits on top of the stack, and so on while that completes a node. The result
is the node that nothing waited for, or the stack that waits for the next one. -/
def deliver (node : Node) : List Pending → StateM Workspace (Node ⊕ List Pending)
  | [] => return .inl node
  | .unary op :: stack => do deliver (.unary (← number) op node) stack
  | .left op :: stack => return .inr (.right op node :: stack)
  | .right op left :: stack => do deliver (.binary (← number) op left node) stack
  | .call word builtin done 0 :: stack => do
    deliver (.call (← number) word builtin (done.reverse ++ [node])) stack
  | .call word builtin done (more + 1) :: stack =>
    return .inr (.call word builtin (node :: done) more :: stack)

def finish (length : Nat) :
    List Pending → List Lexeme → StateM Workspace (Except CompileError Node)
  | _, [] => return .error (.unexpectedEnd ⟨length, length⟩)
  | stack, l :: rest => do
    match ← start l with
    | .error e => return .error e
    | .ok (.inl pending) => finish length (pending :: stack) rest
    | .ok (.inr node) =>
      match ← deliver node stack with
      | .inl root => return .ok root
      | .inr stack => finish length stack rest

end Parse

/-- Parses a source. Its names are looked up in the store while it is read, also when it turns out to
be wrong further on. -/
def Program.parse (source : String) : StateM Workspace (Except CompileError Program) := do
  match Token.scan source with
  | .error e => return .error e
  | .ok lexemes =>
    match ← Parse.finish source.utf8ByteSize [] lexemes with
    | .error e => return .error e
    | .ok root => return .ok ⟨root⟩

end KnightLang
