import KnightLang.Eval.Machine
import Mathlib.Data.List.Forall2
import Mathlib.Order.Lattice

/-!
Two runs of one program, side by side. Their strings are other instances and their nodes have other
numbers. What is the same in both: strings go in pairs of one text, numbers differ by a constant, and
everything else is equal.
-/
namespace KnightLang

open List (Forall₂)

/-- Which strings of two runs are one another's counterparts. -/
abbrev Pairing := Str → Str → Prop

/-- No program can tell the strings of the first run from their counterparts. -/
structure Pairing.Faithful (w : Pairing) : Prop where
  text {a b : Str} : w a b → a.text = b.text
  identity {a b a' b' : Str} : w a b → w a' b' → (a.identity = a'.identity ↔ b.identity = b'.identity)
  equal {a b a' b' : Str} : w a b → w a' b' → a.equal a' = b.equal b'

theorem Pairing.Faithful.length_eq {w : Pairing} (hw : w.Faithful) {a b : Str} (h : w a b) :
    a.length = b.length := by
  simp only [Str.length, hw.text h]

theorem Pairing.Faithful.isEmpty_eq {w : Pairing} (hw : w.Faithful) {a b : Str} (h : w a b) :
    a.isEmpty = b.isEmpty := by
  simp only [Str.isEmpty, hw.text h]

def Apart (d : Int) (k l : Nat) : Prop := (l : Int) = k + d

mutual

inductive Value.Matches (d : Int) (w : Pairing) : Value → Value → Prop
  | null : Value.Matches d w .null .null
  | bool (b : Bool) : Value.Matches d w (.bool b) (.bool b)
  | int (n : Int64) : Value.Matches d w (.int n) (.int n)
  | str {a b : Str} (h : w a b) : Value.Matches d w (.str a) (.str b)
  | block {m n : Node} (h : Node.Matches d w m n) : Value.Matches d w (.block m) (.block n)

inductive Node.Matches (d : Int) (w : Pairing) : Node → Node → Prop
  | literal {k l : Nat} {u v : Value} (hid : Apart d k l) (h : Value.Matches d w u v) :
      Node.Matches d w (.literal k u) (.literal l v)
  | var {k l : Nat} (hid : Apart d k l) (v : Variable) : Node.Matches d w (.var k v) (.var l v)
  | unary {k l : Nat} {m n : Node} (hid : Apart d k l) (op : UnaryOp) (h : Node.Matches d w m n) :
      Node.Matches d w (.unary k op m) (.unary l op n)
  | binary {k l : Nat} {m n m' n' : Node} (hid : Apart d k l) (op : BinaryOp)
      (h : Node.Matches d w m n) (h' : Node.Matches d w m' n') :
      Node.Matches d w (.binary k op m m') (.binary l op n n')
  | call {k l : Nat} {ms ns : List Node} (hid : Apart d k l) (word : String) (builtin : Builtin)
      (h : Forall₂ (Node.Matches d w) ms ns) :
      Node.Matches d w (.call k word builtin ms) (.call l word builtin ns)

end

variable {d : Int} {w w' : Pairing}

mutual

theorem Value.Matches.mono (hw : w ≤ w') : {u v : Value} → u.Matches d w v → u.Matches d w' v
  | _, _, .null => .null
  | _, _, .bool b => .bool b
  | _, _, .int n => .int n
  | _, _, .str h => .str (hw _ _ h)
  | _, _, .block h => .block (h.mono hw)

theorem Node.Matches.mono (hw : w ≤ w') : {m n : Node} → m.Matches d w n → m.Matches d w' n
  | _, _, .literal hid h => .literal hid (h.mono hw)
  | _, _, .var hid v => .var hid v
  | _, _, .unary hid op h => .unary hid op (h.mono hw)
  | _, _, .binary hid op h h' => .binary hid op (h.mono hw) (h'.mono hw)
  | _, _, .call hid word builtin h => .call hid word builtin (Node.Matches.monoAll hw h)

theorem Node.Matches.monoAll (hw : w ≤ w') : {ms ns : List Node} →
    Forall₂ (Node.Matches d w) ms ns → Forall₂ (Node.Matches d w') ms ns
  | _, _, .nil => .nil
  | _, _, .cons h hs => .cons (h.mono hw) (Node.Matches.monoAll hw hs)

end

mutual

theorem Value.Matches.render_eq (hw : w.Faithful) : {u v : Value} → u.Matches d w v →
    u.render = v.render
  | _, _, .null => rfl
  | _, _, .bool b => rfl
  | _, _, .int n => rfl
  | _, _, .str h => by simp only [Value.render, hw.text h]
  | _, _, .block h => by simp only [Value.render, h.render_eq hw]

theorem Node.Matches.render_eq (hw : w.Faithful) : {m n : Node} → m.Matches d w n →
    m.render = n.render
  | _, _, .literal _ h => by simp only [Node.render, h.render_eq hw]
  | _, _, .var _ v => rfl
  | _, _, .unary _ op h => by simp only [Node.render, h.render_eq hw]
  | _, _, .binary _ op h h' => by simp only [Node.render, h.render_eq hw, h'.render_eq hw]
  | _, _, .call _ word builtin h => by
    simp only [Node.render, List.isEmpty_iff_length_eq_zero, h.length_eq, Node.Matches.renderAll_eq hw h]

theorem Node.Matches.renderAll_eq (hw : w.Faithful) : {ms ns : List Node} →
    Forall₂ (Node.Matches d w) ms ns → Node.renderAll ms = Node.renderAll ns
  | _, _, .nil => rfl
  | _, _, .cons h hs => by
    simp only [Node.renderAll, h.render_eq hw, Node.Matches.renderAll_eq hw hs]

end

mutual

theorem Value.Matches.dump_eq (hw : w.Faithful) : {u v : Value} → u.Matches d w v →
    u.dump = v.dump
  | _, _, .null => rfl
  | _, _, .bool b => rfl
  | _, _, .int n => rfl
  | _, _, .str h => by simp only [Value.dump, hw.text h]
  | _, _, .block h => by simp only [Value.dump, h.dump_eq hw]

theorem Node.Matches.dump_eq (hw : w.Faithful) : {m n : Node} → m.Matches d w n → m.dump = n.dump
  | _, _, .literal _ h => by simp only [Node.dump, h.dump_eq hw]
  | _, _, .var _ v => rfl
  | _, _, .unary _ op h => rfl
  | _, _, .binary _ op h h' => rfl
  | _, _, .call _ word builtin h => rfl

end

theorem Node.Matches.apart {m n : Node} (h : m.Matches d w n) : Apart d m.id n.id := by
  cases h <;> assumption

namespace Value.Matches

variable {u v u' v' : Value}

theorem kind_eq (h : u.Matches d w v) : u.kind = v.kind := by
  cases h <;> rfl

theorem toBool_eq (hw : w.Faithful) (h : u.Matches d w v) : u.toBool = v.toBool := by
  cases h with
  | str h => simp only [Value.toBool, hw.isEmpty_eq h]
  | _ => rfl

theorem toInt_eq (hw : w.Faithful) (h : u.Matches d w v) : u.toInt = v.toInt := by
  cases h with
  | str h => simp only [Value.toInt, hw.text h]
  | _ => rfl

theorem equal_eq (hw : w.Faithful) (h : u.Matches d w v) (h' : u'.Matches d w v') :
    u.equal u' = v.equal v' := by
  cases h with
  | str h =>
    cases h' with
    | str h' => exact hw.equal h h'
    | _ => rfl
  | block h =>
    cases h' with
    | block h' =>
      have hm := h.apart
      have hn := h'.apart
      simp only [Apart] at hm hn
      simp only [Value.equal, decide_eq_decide]
      omega
    | _ => rfl
  | _ => cases h' <;> rfl

end Value.Matches

inductive Frame.Matches (d : Int) (w : Pairing) : Frame → Frame → Prop
  | unary (op : UnaryOp) : Frame.Matches d w (.unary op) (.unary op)
  | left (op : BinaryOp) {m n : Node} (h : m.Matches d w n) :
      Frame.Matches d w (.left op m) (.left op n)
  | right (op : BinaryOp) {u v : Value} (h : u.Matches d w v) :
      Frame.Matches d w (.right op u) (.right op v)
  | chain {m n : Node} (h : m.Matches d w n) : Frame.Matches d w (.chain m) (.chain n)
  | and {m n : Node} (h : m.Matches d w n) : Frame.Matches d w (.and m) (.and n)
  | or {m n : Node} (h : m.Matches d w n) : Frame.Matches d w (.or m) (.or n)
  | assign (target : Variable) : Frame.Matches d w (.assign target) (.assign target)
  | branch {ms ns : List Node} (h : Forall₂ (Node.Matches d w) ms ns) :
      Frame.Matches d w (.branch ms) (.branch ns)
  | loopTest {ms ns : List Node} (h : Forall₂ (Node.Matches d w) ms ns) :
      Frame.Matches d w (.loopTest ms) (.loopTest ns)
  | loopBody {ms ns : List Node} (h : Forall₂ (Node.Matches d w) ms ns) :
      Frame.Matches d w (.loopBody ms) (.loopBody ns)
  | argument (builtin : Builtin) {ms ns : List Node} {us vs : List Value}
      (h : Forall₂ (Node.Matches d w) ms ns) (h' : Forall₂ (Value.Matches d w) us vs) :
      Frame.Matches d w (.argument builtin ms us) (.argument builtin ns vs)

inductive Control.Matches (d : Int) (w : Pairing) : Control → Control → Prop
  | node {m n : Node} (h : m.Matches d w n) : Control.Matches d w (.node m) (.node n)
  | value {u v : Value} (h : u.Matches d w v) : Control.Matches d w (.value u) (.value v)

structure Store.Matches (d : Int) (w : Pairing) (s t : Store) : Prop where
  names : s.names = t.names
  size : s.slots.size = t.slots.size
  slots (k : Nat) : Option.Rel (Value.Matches d w) s.slots[k]?.join t.slots[k]?.join
  program {k : Nat} {p : Str × Program} : s.programs[k]? = some p →
    ∃ q : Str × Program, w p.1 q.1 ∧ p.1.identity.key = k ∧ t.programs[q.1.identity.key]? = some q ∧
      p.2.root.Matches d w q.2.root
  program' {k : Nat} {q : Str × Program} : t.programs[k]? = some q →
    ∃ p : Str × Program, w p.1 q.1 ∧ q.1.identity.key = k ∧ s.programs[p.1.identity.key]? = some p ∧
      p.2.root.Matches d w q.2.root
  count : s.programs.size = t.programs.size

theorem Frame.Matches.mono (hw : w ≤ w') {f g : Frame} (h : f.Matches d w g) :
    f.Matches d w' g := by
  cases h with
  | unary op => exact .unary op
  | left op h => exact .left op (h.mono hw)
  | right op h => exact .right op (h.mono hw)
  | chain h => exact .chain (h.mono hw)
  | and h => exact .and (h.mono hw)
  | or h => exact .or (h.mono hw)
  | assign target => exact .assign target
  | branch h => exact .branch (Node.Matches.monoAll hw h)
  | loopTest h => exact .loopTest (Node.Matches.monoAll hw h)
  | loopBody h => exact .loopBody (Node.Matches.monoAll hw h)
  | argument builtin h h' =>
    exact .argument builtin (Node.Matches.monoAll hw h) (h'.imp fun _ _ hv => hv.mono hw)

theorem rel_mono {α β : Type} {R S : α → β → Prop} (hRS : ∀ a b, R a b → S a b) {x : Option α}
    {y : Option β} (h : Option.Rel R x y) : Option.Rel S x y := by
  cases h with
  | some h => exact .some (hRS _ _ h)
  | none => exact .none

theorem rel_map {α β γ δ : Type} {R : α → β → Prop} {S : γ → δ → Prop} {f : α → γ} {g : β → δ}
    (hRS : ∀ a b, R a b → S (f a) (g b)) {x : Option α} {y : Option β} (h : Option.Rel R x y) :
    Option.Rel S (x.map f) (y.map g) := by
  cases h with
  | some h => exact .some (hRS _ _ h)
  | none => exact .none

theorem rel_isSome {α β : Type} {R : α → β → Prop} {x : Option α} {y : Option β}
    (h : Option.Rel R x y) : x.isSome = y.isSome := by
  cases h <;> rfl

theorem Store.Matches.mono (hw : w ≤ w') {s t : Store} (h : s.Matches d w t) :
    s.Matches d w' t where
  names := h.names
  size := h.size
  slots k := rel_mono (fun _ _ hv => hv.mono hw) (h.slots k)
  program hp := by
    obtain ⟨q, hpq, hk, hq, hr⟩ := h.program hp
    exact ⟨q, hw _ _ hpq, hk, hq, hr.mono hw⟩
  program' hq := by
    obtain ⟨p, hpq, hk, hp, hr⟩ := h.program' hq
    exact ⟨p, hw _ _ hpq, hk, hp, hr.mono hw⟩
  count := h.count

end KnightLang
