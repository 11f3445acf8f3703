import KnightLang.Proofs.Lockstep.Past
import Mathlib.Logic.Relation

/-!
What a run comes to. Main statement: what holds of new stores, and is kept by everything that a process
does, by the machine step by step, holds of all stores and programs of all pasts and of whatever a
program among them comes to.
-/
namespace KnightLang

namespace Machine

section

variable {α : Type} {x : Action α} {go : α → State → Step} {s t : State}

theorem after_of_ok {a : α} (h : x.run s = (.ok a, t)) : after x s go = go a t := by
  simp only [ExceptT.run] at h
  simp only [after, h]

theorem after_of_error {stop : Stop} (h : x.run s = (.error stop, t)) :
    after x s go = .halt (.error stop) t := by
  simp only [ExceptT.run] at h
  simp only [after, h]

end

def Reaches (around : Surroundings) : Config → Config → Prop :=
  Relation.ReflTransGen fun c e => step around c = .next e

theorem reaches_advance (around : Surroundings) (fuel : Nat) (c : Config) :
    ∃ e, Reaches around c e ∧ (advance around fuel c = (none, e.state) ∨
      ∃ result s, step around e = .halt result s ∧ advance around fuel c = (some result, s)) := by
  induction fuel generalizing c with
  | zero => exact ⟨c, .refl, .inl rfl⟩
  | succ fuel ih =>
    cases h : step around c with
    | next c' =>
      obtain ⟨e, he, hr⟩ := ih c'
      have ha : advance around (fuel + 1) c = advance around fuel c' := by simp only [advance, h]
      rw [ha]
      exact ⟨e, he.head h, hr⟩
    | halt result s =>
      have ha : advance around (fuel + 1) c = (some result, s) := by simp only [advance, h]
      exact ⟨c, .refl, .inr ⟨result, s, h, ha⟩⟩

theorem exists_state_advance (around : Surroundings) (fuel : Nat) (c : Config) :
    ∃ e, Reaches around c e ∧ ((advance around fuel c).2 = e.state ∨
      (advance around fuel c).2 = (step around e).state) := by
  obtain ⟨e, he, ha | ⟨result, s, hs, ha⟩⟩ := reaches_advance around fuel c
  · exact ⟨e, he, .inl (by rw [ha])⟩
  · exact ⟨e, he, .inr (by rw [ha, hs]; rfl)⟩

end Machine

def Config.Hosted (c : Config) : Prop :=
  ∃ (caches : Caches) (k : Nat) (w : Pairing), c.Alike (.itself caches k) 0 w c

theorem Machine.hosted_step {around : Surroundings} {c e : Config} (h : c.Hosted)
    (hs : step around c = .next e) : e.Hosted := by
  obtain ⟨caches, k, w, h⟩ := h
  obtain ⟨w', -, hw⟩ := steps_step (Link.lawful_itself caches k) around h Link.enough_itself
    Link.enough_itself
  rw [hs] at hw
  cases hw with
  | next he => exact ⟨caches, k, w', he⟩

def Program.opening (q : Program) (s : State) : Config := ⟨.node q.root, [], s.warmed⟩

namespace Past

theorem hosted_opening {p : Past} {E : Set Str} (h : p.Sound E) {n k : Nat} {store : Store}
    {q : Program} (hn : p.program? n = some (k, store, q)) (console : Console) :
    (q.opening ⟨p.share.workspace store, console⟩).Hosted := by
  obtain ⟨hq, hs⟩ := getElem?_of_program? hn
  obtain ⟨E₁, h₁⟩ := h.share
  obtain ⟨g, hg⟩ := p.exists_shared?_share
  have hws := h₁.alike hg (h₁.store_get (by rwa [stores_share]))
  have hq₁ := h₁.program (List.mem_of_getElem? (by rwa [programs_share]))
  obtain ⟨w, hw, hl⟩ := State.warmed_alike (Link.lawful_itself _ g)
    (s := ⟨_, console⟩) (t := ⟨_, console⟩) ⟨hws, rfl⟩ Link.enough_itself Link.enough_itself
  exact ⟨_, g, w, .node (Node.Matches.mono hw hq₁), .nil, hl⟩

/-- Something about stores, programs and configurations that no deed ends. -/
structure Invariant (S : Store → Prop) (T : Program → Prop) (C : Config → Prop) : Prop where
  empty : S .empty
  assign (name : String) (a : Str) {s : Store} : S s → S (Store.assign name (.str a) s).2
  parse (source : String) (ws : Workspace) : (∃ E, ws.strings.Sound E) → S ws.store →
    S (Program.parse source ws).2.store ∧ ∀ q, (Program.parse source ws).1 = .ok q → T q
  opening {q : Program} {s : State} : T q → S s.workspace.store → C (q.opening s)
  store {c : Config} : C c → S c.state.workspace.store
  next (around : Surroundings) {c e : Config} : c.Hosted → C c →
    Machine.step around c = .next e → C e
  halt (around : Surroundings) {c : Config} {result : Except Stop Value} {s : State} : c.Hosted →
    C c → Machine.step around c = .halt result s → S s.workspace.store

namespace Invariant

variable {S : Store → Prop} {T : Program → Prop} {C : Config → Prop}

theorem reaches (I : Invariant S T C) {around : Surroundings} {c e : Config}
    (h : Machine.Reaches around c e) (hc : c.Hosted) (hC : C c) : e.Hosted ∧ C e := by
  induction h with
  | refl => exact ⟨hc, hC⟩
  | tail _ hs ih => exact ⟨Machine.hosted_step ih.1 hs, I.next around ih.1 ih.2 hs⟩

theorem advance (I : Invariant S T C) (around : Surroundings) (fuel : Nat) {c : Config}
    (hc : c.Hosted) (hC : C c) : S (Machine.advance around fuel c).2.workspace.store := by
  obtain ⟨e, he, ha | ⟨result, s, hs, ha⟩⟩ := Machine.reaches_advance around fuel c
  · rw [ha]
    exact I.store (I.reaches he hc hC).2
  · obtain ⟨he, hE⟩ := I.reaches he hc hC
    rw [ha]
    exact I.halt around he hE hs

def Holds (S : Store → Prop) (T : Program → Prop) (p : Past) : Prop :=
  (∀ s ∈ p.stores, S s) ∧ ∀ k q, (k, q) ∈ p.programs → T q

theorem holds_set {p : Past} (h : Holds S T p) (k : Nat) {s : Store} (hs : S s) :
    ∀ t ∈ p.stores.set k s, S t := by
  intro t ht
  rcases List.mem_or_eq_of_mem_set ht with ht | rfl
  · exact h.1 t ht
  · exact hs

theorem holds_leave {p : Past} (h : Holds S T p) (k : Nat) {ws : Workspace} (hs : S ws.store) :
    Holds S T (p.leave k ws) := ⟨holds_set h k hs, h.2⟩

theorem holds_keep {p : Past} (h : Holds S T p) (k : Nat) {parsed : Except CompileError Program}
    (hq : ∀ q, parsed = .ok q → T q) : Holds S T (p.keep k parsed) := by
  cases parsed with
  | error e => exact h
  | ok q =>
    refine ⟨h.1, fun l r hr => ?_⟩
    rcases List.mem_append.1 hr with hr | hr
    · exact h.2 l r hr
    · obtain ⟨-, rfl⟩ := Prod.mk.inj (List.mem_singleton.1 hr)
      exact hq _ rfl

theorem holds_handOut {p : Past} (h : Holds S T p) (result : Option (Except Stop Value)) :
    Holds S T (p.handOut result) := by
  unfold handOut
  split <;> exact h

theorem holds_step (I : Invariant S T C) {p : Past} {E : Set Str} (hp : p.Sound E)
    (h : Holds S T p) (deed : Deed) : Holds S T (deed.step p) := by
  have hshare : Holds S T p.share := by
    refine ⟨?_, ?_⟩
    · rw [stores_share]
      exact h.1
    · rw [programs_share]
      exact h.2
  cases deed with
  | use u => exact h
  | share => exact hshare
  | openStore =>
    refine ⟨fun s hs => ?_, h.2⟩
    rcases List.mem_append.1 hs with hs | hs
    · exact h.1 s hs
    · obtain rfl := List.mem_singleton.1 hs
      exact I.empty
  | assign k name n =>
    simp only [Deed.step]
    split
    · rename_i s a hs ha
      exact ⟨holds_set h k (I.assign name a (h.1 s (List.mem_of_getElem? hs))), h.2⟩
    · exact h
  | parse k source =>
    simp only [Deed.step]
    split
    · rename_i s hs
      obtain ⟨E₁, h₁⟩ := hp.share
      obtain ⟨E₂, h₂, -⟩ := h₁.strings
      obtain ⟨hS, hT⟩ := I.parse source (p.share.workspace s) ⟨E₂, h₂⟩
        (h.1 s (List.mem_of_getElem? hs))
      exact holds_keep (holds_leave hshare k hS) k hT
    · exact h
  | execute n around console fuel =>
    simp only [Deed.step]
    split
    · rename_i k s q hn
      obtain ⟨hq, hs⟩ := getElem?_of_program? hn
      have hC : C (q.opening ⟨p.share.workspace s, console⟩) :=
        I.opening (h.2 k q (List.mem_of_getElem? hq)) (h.1 s (List.mem_of_getElem? hs))
      have hS := I.advance around fuel (hosted_opening hp hn console) hC
      exact holds_handOut (holds_leave hshare k hS) _
    · exact h

theorem holds_foldl (I : Invariant S T C) {p : Past} {E : Set Str} (hp : p.Sound E)
    (h : Holds S T p) (deeds : List Deed) : Holds S T (deeds.foldl Deed.step p) := by
  induction deeds generalizing p E with
  | nil => exact h
  | cons deed deeds ih =>
    obtain ⟨E', hp'⟩ := hp.step deed
    exact ih hp' (I.holds_step hp h deed)

theorem holds_run (I : Invariant S T C) (deeds : List Deed) : Holds S T (run deeds) :=
  I.holds_foldl sound_empty ⟨nofun, nofun⟩ deeds

theorem holds_reached (I : Invariant S T C) (deeds : List Deed) {n k : Nat} {store : Store}
    {q : Program} (hn : (run deeds).program? n = some (k, store, q)) {around : Surroundings}
    {console : Console} {c : Config}
    (hc : Machine.Reaches around (q.opening ⟨(run deeds).share.workspace store, console⟩) c) :
    c.Hosted ∧ C c := by
  obtain ⟨E, hE⟩ := sound_run deeds
  obtain ⟨hq, hs⟩ := getElem?_of_program? hn
  obtain ⟨hS, hT⟩ := I.holds_run deeds
  exact I.reaches hc (hosted_opening hE hn console)
    (I.opening (hT k q (List.mem_of_getElem? hq)) (hS store (List.mem_of_getElem? hs)))

end Invariant

end Past

end KnightLang
