import KnightLang.Proofs.Execution.Cells

/-!
Trees that differ only in how the words of their calls are written, and what may hold such trees:
values, frames and stores. Main statement: neither coercions nor operators nor dumps see a difference,
and all operations of the store keep it.
-/
namespace KnightLang

open List (Forall₂)
open Std (TreeMap)

mutual

inductive Value.Respells : Value → Value → Prop
  | null : Value.Respells .null .null
  | bool (b : Bool) : Value.Respells (.bool b) (.bool b)
  | int (n : Int64) : Value.Respells (.int n) (.int n)
  | str (s : Str) : Value.Respells (.str s) (.str s)
  | block {m n : Node} (h : Node.Respells m n) : Value.Respells (.block m) (.block n)

inductive Node.Respells : Node → Node → Prop
  | literal (id : Nat) {u v : Value} (h : Value.Respells u v) :
      Node.Respells (.literal id u) (.literal id v)
  | var (id : Nat) (v : Variable) : Node.Respells (.var id v) (.var id v)
  | unary (id : Nat) (op : UnaryOp) {m n : Node} (h : Node.Respells m n) :
      Node.Respells (.unary id op m) (.unary id op n)
  | binary (id : Nat) (op : BinaryOp) {m n m' n' : Node} (h : Node.Respells m n)
      (h' : Node.Respells m' n') : Node.Respells (.binary id op m m') (.binary id op n n')
  | call (id : Nat) (word word' : String) (builtin : Builtin) {ms ns : List Node}
      (h : Forall₂ Node.Respells ms ns) :
      Node.Respells (.call id word builtin ms) (.call id word' builtin ns)

end

mutual

theorem Value.respells_refl : (v : Value) → v.Respells v
  | .null => .null
  | .bool b => .bool b
  | .int n => .int n
  | .str s => .str s
  | .block body => .block body.respells_refl

theorem Node.respells_refl : (n : Node) → n.Respells n
  | .literal id v => .literal id v.respells_refl
  | .var id v => .var id v
  | .unary id op n => .unary id op n.respells_refl
  | .binary id op m n => .binary id op m.respells_refl n.respells_refl
  | .call id word builtin ns => .call id word word builtin (Node.respells_reflAll ns)

theorem Node.respells_reflAll : (ns : List Node) → Forall₂ Node.Respells ns ns
  | [] => .nil
  | n :: ns => .cons n.respells_refl (Node.respells_reflAll ns)

end

theorem Node.Respells.id_eq {m n : Node} (h : m.Respells n) : m.id = n.id := by
  cases h <;> rfl

namespace Value.Respells

variable {u v u' v' : Value}

theorem eq_or_blocks (h : u.Respells v) :
    u = v ∨ ∃ m n, m.Respells n ∧ u = .block m ∧ v = .block n := by
  cases h with
  | block h => exact .inr ⟨_, _, h, rfl, rfl⟩
  | _ => exact .inl rfl

theorem toBool_eq (h : u.Respells v) : Action.toBool u = Action.toBool v := by
  cases h <;> rfl

theorem toInt_eq (h : u.Respells v) : Action.toInt u = Action.toInt v := by
  cases h <;> rfl

theorem toStr_eq (h : u.Respells v) : Action.toStr u = Action.toStr v := by
  cases h <;> rfl

theorem equal_eq (h : u.Respells v) (h' : u'.Respells v') : u.equal u' = v.equal v' := by
  obtain rfl | ⟨m, n, hm, rfl, rfl⟩ := h.eq_or_blocks
  · obtain rfl | ⟨m', n', -, rfl, rfl⟩ := h'.eq_or_blocks
    · rfl
    · cases u with
      | block body => cases h' with
        | block h' => simp only [Value.equal, h'.id_eq]
      | _ => rfl
  · cases h' with
    | block h' => simp only [Value.equal, hm.id_eq, h'.id_eq]
    | _ => rfl

end Value.Respells

mutual

theorem Value.Respells.dump_eq : {u v : Value} → u.Respells v → u.dump = v.dump
  | _, _, .null => rfl
  | _, _, .bool b => rfl
  | _, _, .int n => rfl
  | _, _, .str s => rfl
  | _, _, .block h => by simp only [Value.dump, h.dump_eq]

theorem Node.Respells.dump_eq : {m n : Node} → m.Respells n → m.dump = n.dump
  | _, _, .literal id h => by simp only [Node.dump, h.dump_eq]
  | _, _, .var id v => rfl
  | _, _, .unary id op h => rfl
  | _, _, .binary id op h h' => rfl
  | _, _, .call id word word' builtin h => rfl

end

inductive Frame.Respells : Frame → Frame → Prop
  | unary (op : UnaryOp) : Frame.Respells (.unary op) (.unary op)
  | left (op : BinaryOp) {m n : Node} (h : m.Respells n) : Frame.Respells (.left op m) (.left op n)
  | right (op : BinaryOp) {u v : Value} (h : u.Respells v) :
      Frame.Respells (.right op u) (.right op v)
  | chain {m n : Node} (h : m.Respells n) : Frame.Respells (.chain m) (.chain n)
  | and {m n : Node} (h : m.Respells n) : Frame.Respells (.and m) (.and n)
  | or {m n : Node} (h : m.Respells n) : Frame.Respells (.or m) (.or n)
  | assign (target : Variable) : Frame.Respells (.assign target) (.assign target)
  | branch {ms ns : List Node} (h : Forall₂ Node.Respells ms ns) :
      Frame.Respells (.branch ms) (.branch ns)
  | loopTest {ms ns : List Node} (h : Forall₂ Node.Respells ms ns) :
      Frame.Respells (.loopTest ms) (.loopTest ns)
  | loopBody {ms ns : List Node} (h : Forall₂ Node.Respells ms ns) :
      Frame.Respells (.loopBody ms) (.loopBody ns)
  | argument (builtin : Builtin) {ms ns : List Node} {us vs : List Value}
      (h : Forall₂ Node.Respells ms ns) (h' : Forall₂ Value.Respells us vs) :
      Frame.Respells (.argument builtin ms us) (.argument builtin ns vs)

inductive Control.Respells : Control → Control → Prop
  | node {m n : Node} (h : m.Respells n) : Control.Respells (.node m) (.node n)
  | value {u v : Value} (h : u.Respells v) : Control.Respells (.value u) (.value v)

def Program.Respells (p q : Program) : Prop := p.root.Respells q.root

structure Store.Respells (s t : Store) : Prop where
  names : s.names = t.names
  size : s.slots.size = t.slots.size
  slots (k : Nat) : Option.Rel Value.Respells s.slots[k]?.join t.slots[k]?.join
  programs (k : Nat) : Option.Rel (fun e e' => e.1 = e'.1 ∧ e.2.Respells e'.2)
    s.programs[k]? t.programs[k]?
  count : s.programs.size = t.programs.size

theorem rel_refl {α : Type} {R : α → α → Prop} (hR : ∀ a, R a a) (x : Option α) :
    Option.Rel R x x := by
  cases x with
  | some a => exact .some (hR a)
  | none => exact .none

namespace Store

variable {s t : Store}

theorem respells_refl (s : Store) : s.Respells s where
  names := rfl
  size := rfl
  slots _ := rel_refl Value.respells_refl _
  programs _ := rel_refl (fun e => ⟨rfl, e.2.root.respells_refl⟩) _
  count := rfl

namespace Respells

theorem lookup (h : s.Respells t) (name : String) :
    ((Store.lookup name : StateM Store Variable) s).2.Respells
        ((Store.lookup name : StateM Store Variable) t).2 ∧
      ((Store.lookup name : StateM Store Variable) s).1 =
        ((Store.lookup name : StateM Store Variable) t).1 := by
  simp only [lookup_eq, h.names, h.size]
  cases t.names[name]? with
  | some slot => exact ⟨h, rfl⟩
  | none =>
    refine ⟨?_, rfl⟩
    exact {
      names := rfl
      size := by simp only [Array.size_push, h.size]
      slots := fun k => by simpa only [getElem?_push_none] using h.slots k
      programs := h.programs
      count := h.count }

theorem write (h : s.Respells t) (target : Variable) {u v : Value} (hv : u.Respells v) :
    ((Store.write target u : StateM Store Unit) s).2.Respells
      ((Store.write target v : StateM Store Unit) t).2 where
  names := h.names
  size := by
    change (s.slots.setIfInBounds _ _).size = (t.slots.setIfInBounds _ _).size
    simp only [Array.size_setIfInBounds, h.size]
  slots k := by
    change Option.Rel _ (s.slots.setIfInBounds _ _)[k]?.join (t.slots.setIfInBounds _ _)[k]?.join
    have hk := h.slots k
    simp only [Array.getElem?_setIfInBounds, h.size]
    split
    · split
      · exact .some hv
      · exact .none
    · exact hk
  programs := h.programs
  count := h.count

theorem insertProgram (h : s.Respells t) (source : Str) {p q : Program}
    (hp : p.Respells q) :
    ((Store.insertProgram source p : StateM Store Unit) s).2.Respells
      ((Store.insertProgram source q : StateM Store Unit) t).2 where
  names := h.names
  size := h.size
  slots := h.slots
  programs k := by
    change Option.Rel _ (s.programs.insert _ _)[k]? (t.programs.insert _ _)[k]?
    rw [TreeMap.getElem?_insert, TreeMap.getElem?_insert]
    split
    · exact .some ⟨rfl, hp⟩
    · exact h.programs k
  count := by
    change (s.programs.insert _ _).size = (t.programs.insert _ _).size
    have hk := rel_isSome (h.programs source.identity.key)
    rw [← TreeMap.contains_eq_isSome_getElem?, ← TreeMap.contains_eq_isSome_getElem?] at hk
    simp only [TreeMap.size_insert, hk, h.count]

theorem value? (h : s.Respells t) (name : String) :
    Option.Rel Value.Respells (s.value? name) (t.value? name) := by
  rw [value?_eq, value?_eq, h.names]
  cases t.names[name]? with
  | some slot => exact h.slots slot
  | none => exact .none

end Respells

end Store

structure Workspace.Respells (ws ws' : Workspace) : Prop where
  strings : ws.strings = ws'.strings
  store : ws.store.Respells ws'.store
  nextNode : ws.nextNode = ws'.nextNode

structure State.Respells (s t : State) : Prop where
  workspace : s.workspace.Respells t.workspace
  console : s.console = t.console

end KnightLang
