import KnightLang.Proofs.Lockstep.Linking

namespace KnightLang

open List (Forall₂)
open Std (TreeMap)

variable {L : Link} {d : Int} {w : Pairing}

namespace Store

theorem lookup_eq (name : String) (s : Store) : (lookup name : StateM Store Variable) s =
    match s.names[name]? with
    | some slot => (⟨name, slot⟩, s)
    | none => (⟨name, s.slots.size⟩,
        { s with names := s.names.insert name s.slots.size, slots := s.slots.push none }) := by
  simp only [lookup, modifyGet, MonadStateOf.modifyGet, StateT.modifyGet, Guarded.within]
  rfl

theorem getElem?_push_none (xs : Array (Option Value)) (k : Nat) :
    (xs.push none)[k]?.join = xs[k]?.join := by
  rw [Array.getElem?_push]
  split
  · rename_i hk
    simp [hk]
  · rfl

theorem Matches.lookup {s t : Store} (h : s.Matches d w t) (name : String) :
    ((Store.lookup name : StateM Store Variable) s).2.Matches d w
        ((Store.lookup name : StateM Store Variable) t).2 ∧
      ((Store.lookup name : StateM Store Variable) s).1 =
        ((Store.lookup name : StateM Store Variable) t).1 := by
  simp only [lookup_eq, h.names, h.size]
  cases t.names[name]? with
  | some slot => exact ⟨h, rfl⟩
  | none =>
    refine ⟨?_, rfl⟩
    exact {
      names := rfl
      size := by simp only [Array.size_push, h.size]
      slots := fun k => by simpa only [getElem?_push_none] using h.slots k
      program := h.program
      program' := h.program'
      count := h.count }

end Store

namespace Link.Sim

variable {α β : Type} {R : Pairing → α → β → Prop}

theorem onStrings {x : StateM Interner α} {y : StateM Interner β} (h : L.Sim d w R x y) :
    L.Sim d w R (Workspace.onStrings x) (Workspace.onStrings y) := by
  intro w₁ s t hw hl hs ht
  obtain ⟨w₂, hw₂, hl₂, hr⟩ := h hw hl.strings hs ht
  exact ⟨w₂, hw₂, ⟨hl₂, hl.store.mono hw₂, hl.nextNode⟩, hr⟩

theorem onStore (hL : L.Lawful) {x : StateM Store α} {y : StateM Store β}
    (h : ∀ {w' : Pairing} {s t : Store}, w ≤ w' → w'.Faithful → s.Matches d w' t →
      (x s).2.Matches d w' (y t).2 ∧ R w' (x s).1 (y t).1) :
    L.Sim d w R (Workspace.onStore x) (Workspace.onStore y) := by
  intro w₁ s t hw hl _ _
  obtain ⟨hm, hr⟩ := h hw (hL.faithful hl.strings) hl.store
  exact ⟨w₁, le_rfl, ⟨hl.strings, hm, hl.nextNode⟩, hr⟩

theorem number : L.Sim d w (fun _ => Apart d) Workspace.number Workspace.number := by
  intro w₁ s t _ hl _ _
  have hn := hl.nextNode
  refine ⟨w₁, le_rfl, ⟨hl.strings, hl.store, ?_⟩, hn⟩
  simp only [Apart, Workspace.number] at hn ⊢
  omega

end Link.Sim

namespace Parse

open Workspace

inductive Pending.Matches (d : Int) (w : Pairing) : Pending → Pending → Prop
  | unary (op : UnaryOp) : Pending.Matches d w (.unary op) (.unary op)
  | left (op : BinaryOp) : Pending.Matches d w (.left op) (.left op)
  | right (op : BinaryOp) {m n : Node} (h : m.Matches d w n) :
      Pending.Matches d w (.right op m) (.right op n)
  | call (word : String) (builtin : Builtin) {ms ns : List Node}
      (h : Forall₂ (Node.Matches d w) ms ns) (more : Nat) :
      Pending.Matches d w (.call word builtin ms more) (.call word builtin ns more)

theorem Pending.Matches.mono {w' : Pairing} (hw : w ≤ w') {p q : Pending} (h : p.Matches d w q) :
    p.Matches d w' q := by
  cases h with
  | unary op => exact .unary op
  | left op => exact .left op
  | right op h => exact .right op (h.mono hw)
  | call word builtin h more => exact .call word builtin (Node.Matches.monoAll hw h) more

inductive Started (d : Int) (w : Pairing) : Pending ⊕ Node → Pending ⊕ Node → Prop
  | pending {p q : Pending} (h : p.Matches d w q) : Started d w (.inl p) (.inl q)
  | node {m n : Node} (h : m.Matches d w n) : Started d w (.inr m) (.inr n)

inductive Delivered (d : Int) (w : Pairing) : Node ⊕ List Pending → Node ⊕ List Pending → Prop
  | node {m n : Node} (h : m.Matches d w n) : Delivered d w (.inl m) (.inl n)
  | stack {ps qs : List Pending} (h : Forall₂ (Pending.Matches d w) ps qs) :
      Delivered d w (.inr ps) (.inr qs)

theorem sim_start (hL : L.Lawful) (l : Lexeme) :
    L.Sim d w (Results (Started d)) (start l) (start l) := by
  have numbered {m n : Nat → Node} {w : Pairing}
      (h : ∀ {w' : Pairing} {k l : Nat}, w ≤ w' → Apart d k l → (m k).Matches d w' (n l)) :
      L.Sim d w (Results (Started d))
        (do return .ok (.inr (m (← number))) : StateM Workspace (Except CompileError (Pending ⊕ Node)))
        (do return .ok (.inr (n (← number)))) :=
    Link.Sim.number.bind fun hw hid => .pure fun hw' => .ok (.node (h (hw.trans hw') hid))
  unfold start
  cases l.token with
  | unary op => exact .pure fun _ => .ok (.pending (.unary op))
  | binary op => exact .pure fun _ => .ok (.pending (.left op))
  | integer digits =>
    dsimp only
    split
    · exact numbered fun _ hid => .literal hid (.int _)
    · exact .pure fun _ => .error _
  | text content =>
    exact (hL.string content).onStrings.bind fun _ hab =>
      numbered fun hw hid => .literal hid (.str (hw _ _ hab))
  | true => exact numbered fun _ hid => .literal hid (.bool _)
  | false => exact numbered fun _ hid => .literal hid (.bool _)
  | null => exact numbered fun _ hid => .literal hid .null
  | name spelling =>
    refine (Link.Sim.onStore (R := Same) hL fun _ _ h => h.lookup spelling).bind fun _ hv => ?_
    obtain rfl := hv
    exact numbered fun _ hid => .var hid _
  | word spelling =>
    dsimp only
    cases Builtin.ofWord? spelling with
    | none => exact .pure fun _ => .error _
    | some builtin =>
      dsimp only
      cases builtin.arity with
      | zero => exact numbered fun _ hid => .call hid spelling builtin .nil
      | succ more => exact .pure fun _ => .ok (.pending (.call spelling builtin .nil more))

theorem Pending.Matches.monoAll {w' : Pairing} (hw : w ≤ w') {ps qs : List Pending}
    (h : Forall₂ (Pending.Matches d w) ps qs) : Forall₂ (Pending.Matches d w') ps qs :=
  h.imp fun _ _ hp => hp.mono hw

theorem sim_deliver {m n : Node} (h : m.Matches d w n) {ps qs : List Pending}
    (hs : Forall₂ (Pending.Matches d w) ps qs) :
    L.Sim d w (Delivered d) (deliver m ps) (deliver n qs) := by
  induction ps generalizing w m n qs with
  | nil =>
    cases hs
    exact .pure fun hw => .node (h.mono hw)
  | cons p ps ih =>
    cases hs with
    | cons hp hs =>
      cases hp with
      | unary op =>
        simp only [deliver]
        exact Link.Sim.number.bind fun hw hid =>
          ih (.unary hid op (h.mono hw)) (Pending.Matches.monoAll hw hs)
      | left op =>
        exact .pure fun hw => .stack (.cons (.right op (h.mono hw)) (Pending.Matches.monoAll hw hs))
      | right op h' =>
        simp only [deliver]
        exact Link.Sim.number.bind fun hw hid =>
          ih (.binary hid op (h'.mono hw) (h.mono hw)) (Pending.Matches.monoAll hw hs)
      | call word builtin hd more =>
        cases more with
        | zero =>
          have hall := List.rel_append (List.rel_reverse hd) (.cons h .nil)
          simp only [deliver]
          exact Link.Sim.number.bind fun hw hid =>
            ih (.call hid word builtin (Node.Matches.monoAll hw hall)) (Pending.Matches.monoAll hw hs)
        | succ more =>
          have hall := Forall₂.cons h hd
          exact .pure fun hw => .stack
            (.cons (.call word builtin (Node.Matches.monoAll hw hall) more) (Pending.Matches.monoAll hw hs))

theorem sim_finish (hL : L.Lawful) (length : Nat) {ps qs : List Pending}
    (hs : Forall₂ (Pending.Matches d w) ps qs) (ls : List Lexeme) :
    L.Sim d w (Results (Node.Matches d)) (finish length ps ls) (finish length qs ls) := by
  induction ls generalizing w ps qs with
  | nil =>
    cases hs <;> exact .pure fun _ => .error _
  | cons l rest ih =>
    have started := spends_started length rest inferInstance
    have delivered := spends_delivered length rest inferInstance
    unfold finish
    refine (sim_start hL l).bind fun hw hstart => ?_
    cases hstart with
    | error e => exact .pure fun _ => .error e
    | ok hstart =>
      have hs := Pending.Matches.monoAll hw hs
      cases hstart with
      | pending hp => exact ih (.cons hp hs)
      | node hn =>
        refine (sim_deliver hn hs).bind fun _ hdeliver => ?_
        cases hdeliver with
        | node hr => exact .pure fun hw => .ok (hr.mono hw)
        | stack hs => exact ih hs

end Parse

def Program.Matches (d : Int) (w : Pairing) (p q : Program) : Prop := p.root.Matches d w q.root

theorem Program.sim_parse (hL : L.Lawful) (source : String) :
    L.Sim d w (Results (Program.Matches d)) (Program.parse source) (Program.parse source) := by
  have finished := Program.spends_finished
  unfold Program.parse
  cases Token.scan source with
  | error e => exact .pure fun _ => .error e
  | ok lexemes =>
    refine (Parse.sim_finish hL _ .nil lexemes).bind fun _ hroot => ?_
    cases hroot with
    | error e => exact .pure fun _ => .error e
    | ok hroot => exact .pure fun hw => .ok (hroot.mono hw)

end KnightLang
