import KnightLang.Proofs.Execution.Passing
import Mathlib.Data.List.Basic

namespace KnightLang

open Std (TreeMap)

mutual

def Value.vars : Value → List Variable
  | .block body => body.vars
  | _ => []

def Node.vars : Node → List Variable
  | .literal _ value => value.vars
  | .var _ v => [v]
  | .unary _ _ operand => operand.vars
  | .binary _ _ left right => left.vars ++ right.vars
  | .call _ _ _ args => Node.varsAll args

def Node.varsAll : List Node → List Variable
  | [] => []
  | n :: ns => n.vars ++ Node.varsAll ns

end

theorem Node.mem_varsAll {ns : List Node} {v : Variable} :
    v ∈ Node.varsAll ns ↔ ∃ n ∈ ns, v ∈ n.vars := by
  induction ns with
  | nil => simp [Node.varsAll]
  | cons n ns ih => simp [Node.varsAll, ih]

namespace Store

def Links (s : Store) (v : Variable) : Prop := s.names[v.name]? = some v.slot

theorem links_iff {s : Store} {v : Variable} :
    s.Links v ↔ (Store.lookup v.name : StateM Store Variable) s = (v, s) := by
  constructor
  · exact s.lookup_of_some v.name
  · intro h
    have hn := s.names_lookup v.name
    rwa [h] at hn

theorem links_lookup (name : String) (s : Store) :
    ((Store.lookup name : StateM Store Variable) s).2.Links
      ((Store.lookup name : StateM Store Variable) s).1 := by
  unfold Links
  rw [variable_lookup]
  exact s.names_lookup name

theorem Widens.links {s t : Store} (h : s.Widens t) {v : Variable} (hv : s.Links v) : t.Links v :=
  h.name hv

def linking (s : Store) : Trait where
  node n := ∀ v ∈ n.vars, s.Links v
  value u := ∀ v ∈ u.vars, s.Links v
  target := s.Links
  scalar {u} h := by
    cases u with
    | block body => exact absurd rfl h
    | _ => exact nofun
  block := Iff.rfl
  literal h := h
  var h := h _ (List.mem_singleton.2 rfl)
  unary h := h
  binary h := List.forall_mem_append.1 h
  call h n hn v hv := h v (Node.mem_varsAll.2 ⟨n, hn, hv⟩)

structure Keyed (s : Store) : Prop where
  lt {name : String} {slot : Nat} : s.names[name]? = some slot → slot < s.slots.size
  inj {a b : String} {slot : Nat} : s.names[a]? = some slot → s.names[b]? = some slot → a = b
  size : s.names.size = s.slots.size

theorem keyed_empty : Store.empty.Keyed where
  lt h := by simp [empty] at h
  inj h := by simp [empty] at h
  size := rfl

theorem Keyed.lookup {s : Store} (h : s.Keyed) (name : String) :
    ((Store.lookup name : StateM Store Variable) s).2.Keyed := by
  rw [lookup_eq]
  cases hn : s.names[name]? with
  | some slot => exact h
  | none =>
    -- a slot is either the new one, which has this name, or an old one
    have hnames {other : String} {slot : Nat}
        (ho : (s.names.insert name s.slots.size)[other]? = some slot) :
        (name = other ∧ slot = s.slots.size) ∨ s.names[other]? = some slot ∧ slot < s.slots.size := by
      rw [TreeMap.getElem?_insert] at ho
      split at ho
      · rename_i he
        exact .inl ⟨by simpa using he, (Option.some.inj ho).symm⟩
      · exact .inr ⟨ho, h.lt ho⟩
    refine ⟨?_, ?_, ?_⟩
    · intro other slot ho
      have := hnames ho
      simp only [Array.size_push]
      omega
    · intro a b slot ha hb
      rcases hnames ha with ⟨rfl, rfl⟩ | ⟨ha, hlt⟩
      · rcases hnames hb with ⟨rfl, -⟩ | ⟨-, hlt⟩
        · rfl
        · omega
      · rcases hnames hb with ⟨-, rfl⟩ | ⟨hb, -⟩
        · omega
        · exact h.inj ha hb
    · have hmem : s.names.contains name = false := by
        rw [TreeMap.contains_eq_isSome_getElem?, hn]
        rfl
      simp only [TreeMap.size_insert, hmem, Array.size_push, h.size]
      rfl

theorem Keyed.write {s : Store} (h : s.Keyed) (target : Variable) (v : Value) :
    ((Store.write target v : StateM Store Unit) s).2.Keyed where
  lt hn := by
    rw [write_eq, Array.size_setIfInBounds]
    exact h.lt hn
  inj := h.inj
  size := by
    rw [write_eq, Array.size_setIfInBounds]
    exact h.size

theorem mem_lookup {s : Store} {name other : String} :
    name ∈ ((Store.lookup other : StateM Store Variable) s).2.names ↔ name = other ∨ name ∈ s.names := by
  rw [lookup_eq]
  cases hn : s.names[other]? with
  | some slot =>
    have hmem : other ∈ s.names := by
      rw [TreeMap.mem_iff_isSome_getElem?, hn]
      rfl
    simp only [iff_or_self]
    rintro rfl
    exact hmem
  | none =>
    rw [TreeMap.mem_insert, Std.compare_eq_iff_eq, eq_comm]

theorem mem_of_mem_lookupAll {s : Store} {names : List String} {name : String}
    (h : name ∈ (s.lookupAll names).names) : name ∈ s.names ∨ name ∈ names := by
  induction names generalizing s with
  | nil => exact .inl h
  | cons other names ih =>
    rcases ih h with h | h
    · rcases mem_lookup.1 h with rfl | h
      · exact .inr List.mem_cons_self
      · exact .inl h
    · exact .inr (List.mem_cons_of_mem _ h)

end Store

namespace Phrase

def Linked {α : Type} (x : StateM Workspace α) (vars : α → List Variable) : Prop :=
  ∀ ws, ws.store.Widens (x ws).2.store ∧ ∀ v ∈ vars (x ws).1, (x ws).2.store.Links v

theorem linked_buildAll {ps : List Phrase} (h : ∀ p ∈ ps, Linked p.build Node.vars) :
    Linked (buildAll ps) Node.varsAll := by
  induction ps with
  | nil => exact fun ws => ⟨.refl _, nofun⟩
  | cons p ps ih =>
    rw [List.forall_mem_cons] at h
    intro ws
    obtain ⟨hw, hv⟩ := h.1 ws
    obtain ⟨hw', hv'⟩ := ih h.2 (p.build ws).2
    exact ⟨hw.trans hw', List.forall_mem_append.2 ⟨fun v hm => hw'.links (hv v hm), hv'⟩⟩

theorem linked_build (p : Phrase) : Linked p.build Node.vars := by
  induction p with
  | name spelling =>
    intro ws
    refine ⟨ws.store.lookup_widens spelling, fun v hv => ?_⟩
    obtain rfl : v = ((Store.lookup spelling : StateM Store Variable) ws.store).1 :=
      List.mem_singleton.1 hv
    exact ws.store.links_lookup spelling
  | unary op p ih => exact ih
  | binary op p q ihp ihq =>
    intro ws
    obtain ⟨hw, hv⟩ := ihp ws
    obtain ⟨hw', hv'⟩ := ihq (p.build ws).2
    exact ⟨hw.trans hw', List.forall_mem_append.2 ⟨fun v hm => hw'.links (hv v hm), hv'⟩⟩
  | call word builtin ps ih => exact linked_buildAll ih
  | _ => exact fun ws => ⟨.refl _, nofun⟩

end Phrase

theorem Program.linked_of_parse {source : String} {ws ws' : Workspace} {q : Program}
    (h : parse source ws = (.ok q, ws')) : ws'.store.linking.node q.root := by
  obtain ⟨ls, rest, p, -, -, rfl, rfl⟩ := exists_begins_of_parse h
  exact (p.linked_build ws).2

end KnightLang
