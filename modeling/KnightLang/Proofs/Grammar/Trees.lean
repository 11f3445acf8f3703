import KnightLang.Proofs.Grammar.Reading
import KnightLang.Proofs.Lockstep.Parsing
import KnightLang.Proofs.Strings.Content

namespace KnightLang

open Std (TreeMap)

structure Store.Widens (s t : Store) : Prop where
  name {name : String} {slot : Nat} : s.names[name]? = some slot → t.names[name]? = some slot
  slots (k : Nat) : t.slots[k]?.join = s.slots[k]?.join
  programs : t.programs = s.programs

namespace Store

theorem Widens.refl (s : Store) : s.Widens s := ⟨id, fun _ => rfl, rfl⟩

theorem Widens.trans {s t u : Store} (h : s.Widens t) (h' : t.Widens u) : s.Widens u where
  name hn := h'.name (h.name hn)
  slots k := (h'.slots k).trans (h.slots k)
  programs := h'.programs.trans h.programs

variable (name : String) (s : Store)

theorem lookup_widens : s.Widens ((Store.lookup name : StateM Store Variable) s).2 := by
  rw [lookup_eq]
  cases h : s.names[name]? with
  | some slot => exact .refl s
  | none =>
    refine ⟨fun {other slot} ho => ?_, getElem?_push_none s.slots, rfl⟩
    have hne : name ≠ other := by
      rintro rfl
      simp [h] at ho
    rwa [TreeMap.getElem?_insert, if_neg (by simpa using hne)]

theorem variable_lookup : ((Store.lookup name : StateM Store Variable) s).1 =
    ⟨name, ((Store.lookup name : StateM Store Variable) s).1.slot⟩ := by
  rw [lookup_eq]
  cases s.names[name]? <;> rfl

theorem names_lookup : ((Store.lookup name : StateM Store Variable) s).2.names[name]? =
    some ((Store.lookup name : StateM Store Variable) s).1.slot := by
  rw [lookup_eq]
  cases h : s.names[name]? with
  | some slot => exact h
  | none => exact TreeMap.getElem?_insert_self

theorem lookup_of_some {slot : Nat} (h : s.names[name]? = some slot) :
    (Store.lookup name : StateM Store Variable) s = (⟨name, slot⟩, s) := by
  rw [lookup_eq, h]

end Store

mutual

def Value.bare : Value → Value
  | .null => .null
  | .bool b => .bool b
  | .int n => .int n
  | .str s => .str ⟨s.text, .unique 0⟩
  | .block body => .block body.bare

/-- A tree without the numbers of its nodes. Trees are structurally equal when these are equal. -/
def Node.bare : Node → Node
  | .literal _ value => .literal 0 value.bare
  | .var _ v => .var 0 v
  | .unary _ op operand => .unary 0 op operand.bare
  | .binary _ op left right => .binary 0 op left.bare right.bare
  | .call _ word builtin args => .call 0 word builtin (Node.bareAll args)

def Node.bareAll : List Node → List Node
  | [] => []
  | n :: ns => n.bare :: Node.bareAll ns

end

namespace Phrase

mutual

def tree? (names : TreeMap String Nat) : Phrase → Option Node
  | .integer digits => some (.literal 0 (.int (.ofNat (Decimal.value digits.toList))))
  | .text content => some (.literal 0 (.str ⟨content, .unique 0⟩))
  | .true => some (.literal 0 (.bool Bool.true))
  | .false => some (.literal 0 (.bool Bool.false))
  | .null => some (.literal 0 .null)
  | .name spelling => do return .var 0 ⟨spelling, ← names[spelling]?⟩
  | .unary op operand => do return .unary 0 op (← operand.tree? names)
  | .binary op left right => do return .binary 0 op (← left.tree? names) (← right.tree? names)
  | .call word builtin args => do return .call 0 word builtin (← trees? names args)

def trees? (names : TreeMap String Nat) : List Phrase → Option (List Node)
  | [] => some []
  | p :: ps => do return (← p.tree? names) :: (← trees? names ps)

end

section

variable {names names' : TreeMap String Nat}

theorem trees?_mono {ps : List Phrase}
    (h : ∀ p ∈ ps, ∀ {t : Node}, p.tree? names = some t → p.tree? names' = some t) {ts : List Node}
    (hts : trees? names ps = some ts) : trees? names' ps = some ts := by
  induction ps generalizing ts with
  | nil => exact hts
  | cons p ps ih =>
    rw [List.forall_mem_cons] at h
    simp only [trees?, Option.bind_eq_bind, Option.bind_eq_some_iff] at hts ⊢
    obtain ⟨t, ht, us, hus, hr⟩ := hts
    exact ⟨t, h.1 ht, us, ih h.2 hus, hr⟩

theorem tree?_mono
    (h : ∀ {name : String} {slot : Nat}, names[name]? = some slot → names'[name]? = some slot)
    {p : Phrase} {t : Node} (ht : p.tree? names = some t) : p.tree? names' = some t := by
  induction p generalizing t with
  | name spelling =>
    simp only [tree?, Option.bind_eq_bind, Option.bind_eq_some_iff] at ht ⊢
    obtain ⟨slot, hs, hr⟩ := ht
    exact ⟨slot, h hs, hr⟩
  | unary op p ih =>
    simp only [tree?, Option.bind_eq_bind, Option.bind_eq_some_iff] at ht ⊢
    obtain ⟨u, hu, hr⟩ := ht
    exact ⟨u, ih hu, hr⟩
  | binary op p q ihp ihq =>
    simp only [tree?, Option.bind_eq_bind, Option.bind_eq_some_iff] at ht ⊢
    obtain ⟨u, hu, v, hv, hr⟩ := ht
    exact ⟨u, ihp hu, v, ihq hv, hr⟩
  | call word builtin ps ih =>
    simp only [tree?, Option.bind_eq_bind, Option.bind_eq_some_iff] at ht ⊢
    obtain ⟨ts, hts, hr⟩ := ht
    exact ⟨ts, trees?_mono ih hts, hr⟩
  | _ => exact ht

end

def Yields {α : Type} (x : StateM Workspace α) (t : Store → α → Prop) : Prop :=
  ∀ ws, (∃ E, ws.strings.Sound E) → (∃ E, (x ws).2.strings.Sound E) ∧
    ws.store.Widens (x ws).2.store ∧ t (x ws).2.store (x ws).1

theorem yields_literal {p : Phrase} {value : Value}
    (hb : p.build = do return .literal (← Workspace.number) value)
    (ht : ∀ names, p.tree? names = some (.literal 0 value.bare)) :
    Yields p.build fun s n => p.tree? s.names = some n.bare := by
  intro ws hs
  rw [hb]
  exact ⟨hs, .refl _, ht _⟩

theorem yields_buildAll {ps : List Phrase}
    (h : ∀ p ∈ ps, Yields p.build fun s n => p.tree? s.names = some n.bare) :
    Yields (buildAll ps) fun s ns => trees? s.names ps = some (Node.bareAll ns) := by
  induction ps with
  | nil => exact fun ws hs => ⟨hs, .refl _, rfl⟩
  | cons p ps ih =>
    rw [List.forall_mem_cons] at h
    intro ws hs
    obtain ⟨hs₁, hg₁, ht₁⟩ := h.1 ws hs
    obtain ⟨hs₂, hg₂, ht₂⟩ := ih h.2 (p.build ws).2 hs₁
    refine ⟨hs₂, hg₁.trans hg₂, ?_⟩
    have ht₁ := tree?_mono hg₂.name ht₁
    simp only [buildAll, trees?]
    exact Option.bind_eq_some_iff.2 ⟨_, ht₁, Option.bind_eq_some_iff.2 ⟨_, ht₂, rfl⟩⟩

theorem yields_build (p : Phrase) : Yields p.build fun s n => p.tree? s.names = some n.bare := by
  induction p with
  | integer digits => exact yields_literal rfl fun _ => rfl
  | true => exact yields_literal rfl fun _ => rfl
  | false => exact yields_literal rfl fun _ => rfl
  | null => exact yields_literal rfl fun _ => rfl
  | text content =>
    rintro ws ⟨E, hE⟩
    have hkey : ∀ key : Cache.Key, none = some key → key.Denotes E content := nofun
    refine ⟨⟨_, Cache.string_eq_make content ws.strings ▸ (hE.make hkey).2⟩, .refl _, ?_⟩
    change some (Node.literal 0 (.str ⟨content, _⟩)) =
      some (Node.literal 0 (.str ⟨((Cache.string content : StateM Interner Str) ws.strings).1.text, _⟩))
    rw [hE.text_string]
  | name spelling =>
    intro ws hs
    refine ⟨hs, ws.store.lookup_widens spelling, ?_⟩
    have hn := Store.variable_lookup spelling ws.store
    have hk := Store.names_lookup spelling ws.store
    exact Option.bind_eq_some_iff.2 ⟨_, hk, congrArg (fun v => some (Node.var 0 v)) hn.symm⟩
  | unary op p ih =>
    intro ws hs
    obtain ⟨hs, hg, ht⟩ := ih ws hs
    exact ⟨hs, hg, Option.bind_eq_some_iff.2 ⟨_, ht, rfl⟩⟩
  | binary op p q ihp ihq =>
    intro ws hs
    obtain ⟨hs₁, hg₁, ht₁⟩ := ihp ws hs
    obtain ⟨hs₂, hg₂, ht₂⟩ := ihq (p.build ws).2 hs₁
    refine ⟨hs₂, hg₁.trans hg₂, ?_⟩
    have ht₁ := tree?_mono hg₂.name ht₁
    exact Option.bind_eq_some_iff.2 ⟨_, ht₁, Option.bind_eq_some_iff.2 ⟨_, ht₂, rfl⟩⟩
  | call word builtin ps ih =>
    intro ws hs
    obtain ⟨hs, hg, ht⟩ := yields_buildAll ih ws hs
    exact ⟨hs, hg, Option.bind_eq_some_iff.2 ⟨_, ht, rfl⟩⟩

theorem store_buildAll {ps : List Phrase}
    (h : ∀ p ∈ ps, ∀ {ws : Workspace} {t : Node}, p.tree? ws.store.names = some t →
      (p.build ws).2.store = ws.store) {ws : Workspace} {ts : List Node}
    (hts : trees? ws.store.names ps = some ts) : (buildAll ps ws).2.store = ws.store := by
  induction ps generalizing ws ts with
  | nil => rfl
  | cons p ps ih =>
    rw [List.forall_mem_cons] at h
    simp only [trees?, Option.bind_eq_bind, Option.bind_eq_some_iff] at hts
    obtain ⟨t, ht, us, hus, -⟩ := hts
    have hp := h.1 ht
    calc (buildAll (p :: ps) ws).2.store
      _ = (buildAll ps (p.build ws).2).2.store := rfl
      _ = (p.build ws).2.store := ih h.2 (by rwa [hp])
      _ = ws.store := hp

theorem store_build {p : Phrase} {ws : Workspace} {t : Node} (ht : p.tree? ws.store.names = some t) :
    (p.build ws).2.store = ws.store := by
  induction p generalizing ws t with
  | name spelling =>
    simp only [tree?, Option.bind_eq_bind, Option.bind_eq_some_iff] at ht
    obtain ⟨slot, hs, -⟩ := ht
    exact congrArg Prod.snd (ws.store.lookup_of_some spelling hs)
  | unary op p ih =>
    simp only [tree?, Option.bind_eq_bind, Option.bind_eq_some_iff] at ht
    obtain ⟨u, hu, -⟩ := ht
    exact ih hu
  | binary op p q ihp ihq =>
    simp only [tree?, Option.bind_eq_bind, Option.bind_eq_some_iff] at ht
    obtain ⟨u, hu, v, hv, -⟩ := ht
    have hp := ihp hu
    calc ((Phrase.binary op p q).build ws).2.store
      _ = (q.build (p.build ws).2).2.store := rfl
      _ = (p.build ws).2.store := ihq (by rwa [hp])
      _ = ws.store := hp
  | call word builtin ps ih =>
    simp only [tree?, Option.bind_eq_bind, Option.bind_eq_some_iff] at ht
    obtain ⟨ts, hts, -⟩ := ht
    exact store_buildAll ih hts
  | _ => rfl

end Phrase

end KnightLang
