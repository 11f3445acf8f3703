import KnightLang.Proofs.Execution.Naming

/-!
The life of one store: names are looked up and assigned to, sources parsed, and trees evaluated, to the
end or not. Main statement: what all parsed programs have, and no look-up of a name takes from a tree,
all trees have that are ever at hand.
-/
namespace KnightLang

open Std (TreeMap)

namespace Store

inductive Edit (s : Store) : Store → Prop
  | lookup (name : String) : Edit s ((Store.lookup name : StateM Store Variable) s).2
  | write (target : Variable) (v : Value) : Edit s ((Store.write target v : StateM Store Unit) s).2
  | insert (k : Nat) (e : Str × Program) : Edit s { s with programs := s.programs.insert k e }

def Edits : Store → Store → Prop := Relation.ReflTransGen Edit

def Grows (s t : Store) : Prop :=
  ∀ (name : String) (slot : Nat), s.names[name]? = some slot → t.names[name]? = some slot

structure Lasts (s t : Store) : Prop where
  names : s.Grows t
  size : s.slots.size ≤ t.slots.size
  assigned {k : Nat} : s.slots[k]?.join.isSome → t.slots[k]?.join.isSome

section

variable {s t u : Store}

theorem Grows.refl (s : Store) : s.Grows s := fun _ _ => id

theorem Grows.trans (h : s.Grows t) (h' : t.Grows u) : s.Grows u :=
  fun name slot hn => h' name slot (h name slot hn)

theorem Widens.grows (h : s.Widens t) : s.Grows t := fun _ _ => h.name

theorem Lasts.refl (s : Store) : s.Lasts s := ⟨.refl s, le_rfl, id⟩

theorem Lasts.trans (h : s.Lasts t) (h' : t.Lasts u) : s.Lasts u where
  names := h.names.trans h'.names
  size := h.size.trans h'.size
  assigned hk := h'.assigned (h.assigned hk)

theorem Edit.lasts (h : s.Edit t) : s.Lasts t := by
  cases h with
  | lookup name =>
    have hw := s.lookup_widens name
    refine ⟨hw.grows, ?_, fun hk => ?_⟩
    · rw [lookup_eq]
      cases s.names[name]? <;> simp
    · rwa [hw.slots]
  | write target v =>
    refine ⟨.refl s, ?_, fun {k} hk => ?_⟩
    · simp [write_eq]
    · rw [write_eq, Array.getElem?_setIfInBounds]
      split
      · split
        · rfl
        · rename_i hlt
          simp_all
      · exact hk
  | insert k e => exact ⟨.refl s, le_rfl, id⟩

theorem Edit.keyed (h : s.Edit t) (hs : s.Keyed) : t.Keyed := by
  cases h with
  | lookup name => exact hs.lookup name
  | write target v => exact hs.write target v
  | insert k e => exact ⟨hs.lt, hs.inj, hs.size⟩

theorem Edits.lasts (h : s.Edits t) : s.Lasts t := by
  induction h with
  | refl => exact .refl s
  | tail _ h ih => exact ih.trans h.lasts

theorem Edits.keyed (h : s.Edits t) (hs : s.Keyed) : t.Keyed := by
  induction h with
  | refl => exact hs
  | tail _ h ih => exact h.keyed ih

theorem edits_lookupAll (s : Store) (names : List String) : s.Edits (s.lookupAll names) := by
  induction names generalizing s with
  | nil => exact .refl
  | cons name names ih => exact (ih _).head (.lookup name)

theorem edits_assign (name : String) (v : Value) (s : Store) : s.Edits (Store.assign name v s).2 := by
  rw [assign_eq]
  exact Relation.ReflTransGen.refl.tail (.lookup name) |>.tail (.write _ v)

end

end Store

theorem Program.edits_of_parse {source : String} {ws ws' : Workspace}
    {parsed : Except CompileError Program} (h : parse source ws = (parsed, ws')) :
    ws.store.Edits ws'.store := by
  obtain ⟨names, -, hs⟩ := looksUp_parse source ws
  rw [h] at hs
  rw [hs]
  exact ws.store.edits_lookupAll names

namespace Machine

variable {around : Surroundings} {c e : Config} {t : State}

theorem edits_stores (h : Stores c t) : c.state.workspace.store.Edits t.workspace.store := by
  cases h with
  | keeps h =>
    rw [h]
    exact .refl
  | @assigns target v frames hc hf h =>
    rw [h]
    exact .single (.write target v)
  | @finds v source s result args frames hc hf hv h =>
    rw [← Action.store_of_toStr hv]
    cases h with
    | known he => exact .refl
    | parsed _ hp => exact (Program.edits_of_parse hp).tail (.insert _ _)
    | wrong _ hp => exact Program.edits_of_parse hp

theorem edits_step (around : Surroundings) (c : Config) :
    c.state.workspace.store.Edits (step around c).state.workspace.store :=
  edits_stores (stores_step around c)

theorem edits_reaches (h : Reaches around c e) :
    c.state.workspace.store.Edits e.state.workspace.store := by
  induction h with
  | refl => exact .refl
  | @tail b e _ hs ih =>
    have hb := edits_step around b
    rw [hs] at hb
    exact ih.trans hb

theorem edits_advance (around : Surroundings) (fuel : Nat) (c : Config) :
    c.state.workspace.store.Edits (advance around fuel c).2.workspace.store := by
  obtain ⟨e, he, ha | ha⟩ := exists_state_advance around fuel c
  · rw [ha]
    exact edits_reaches he
  · rw [ha]
    exact (edits_reaches he).trans (edits_step around e)

end Machine

/-- What there is outside of a run: the store, the trees that may be run, which are those of programs and
of blocks that were results, and all results. -/
structure Session where
  store : Store := .empty
  trees : List Node := []
  results : List Value := []

def Value.trees : Value → List Node
  | .block body => [body]
  | _ => []

namespace Workspace

def withStore (ws : Workspace) (store : Store) : Workspace := ⟨ws.strings, store, ws.nextNode⟩

end Workspace

namespace Session

/-- What may be done. Strings, numbers of nodes and the console are whatever they are at that time. -/
inductive Act
  | lookup (name : String)
  | assign (name : String) (n : Nat)
  | parse (source : String) (ws : Workspace)
  | execute (n : Nat) (around : Surroundings) (fuel : Nat) (ws : Workspace) (console : Console)

def opening (s : Session) (root : Node) (ws : Workspace) (console : Console) : Config :=
  Program.opening ⟨root⟩ ⟨ws.withStore s.store, console⟩

def keep (s : Session) (store : Store) : Option (Except Stop Value) → Session
  | some (.ok v) => ⟨store, s.trees ++ v.trees, s.results ++ [v]⟩
  | _ => ⟨store, s.trees, s.results⟩

def Act.step (s : Session) : Act → Session
  | .lookup name => { s with store := ((Store.lookup name : StateM Store Variable) s.store).2 }
  | .assign name n =>
    match s.results[n]? with
    | some v => { s with store := (Store.assign name v s.store).2 }
    | none => s
  | .parse source ws =>
    let (parsed, ws) := Program.parse source (ws.withStore s.store)
    match parsed with
    | .ok q => ⟨ws.store, s.trees ++ [q.root], s.results⟩
    | .error _ => ⟨ws.store, s.trees, s.results⟩
  | .execute n around fuel ws console =>
    match s.trees[n]? with
    | some root =>
      let (result, t) := Machine.advance around fuel (s.opening root ws console)
      s.keep t.workspace.store result
    | none => s

def run (acts : List Act) : Session := acts.foldl Act.step {}

end Session

structure Enduring (P : Store → Trait) : Prop where
  node {s t : Store} (h : s.Grows t) {n : Node} : (P s).node n → (P t).node n
  target {s t : Store} (h : s.Grows t) {v : Variable} : (P s).target v → (P t).target v
  parse {source : String} {ws ws' : Workspace} {q : Program} :
    Program.parse source ws = (.ok q, ws') → (P ws'.store).node q.root

theorem Store.enduring_linking : Enduring Store.linking where
  node h _ hn := fun v hv => h v.name v.slot (hn v hv)
  target h v hv := h v.name v.slot hv
  parse := Program.linked_of_parse

structure Session.Has (P : Store → Trait) (s : Session) : Prop where
  trees : ∀ n ∈ s.trees, (P s.store).node n
  results : ∀ v ∈ s.results, (P s.store).value v
  store : (P s.store).OfStore s.store

theorem Session.Has.opening {P : Store → Trait} {s : Session} (h : s.Has P) {root : Node}
    (hr : root ∈ s.trees) (ws : Workspace) (console : Console) :
    (P s.store).OfConfig (s.opening root ws console) := ⟨h.trees root hr, nofun, h.store⟩

namespace Enduring

variable {P : Store → Trait} (hP : Enduring P) {s t : Store}

include hP

theorem value (h : s.Grows t) {v : Value} (hv : (P s).value v) : (P t).value v := by
  cases v with
  | block body => exact (P t).block.2 (hP.node h ((P s).block.1 hv))
  | _ => exact (P t).scalar nofun

theorem ofFrame (h : s.Grows t) {f : Frame} (hf : (P s).OfFrame f) : (P t).OfFrame f where
  nodes n hn := hP.node h (hf.nodes n hn)
  values v hv := hP.value h (hf.values v hv)
  targets v hv := hP.target h (hf.targets v hv)

theorem control (h : s.Grows t) {c : Control} (hc : (P s).control c) : (P t).control c := by
  cases c with
  | node n => exact hP.node h hc
  | value v => exact hP.value h hc

theorem widen (h : s.Widens t) (hs : (P s).OfStore s) : (P t).OfStore t where
  slots hv := hP.value h.grows (hs.slots ((h.slots _).symm.trans hv))
  programs he := hP.node h.grows (hs.programs (h.programs ▸ he))

theorem write (hs : (P s).OfStore s) (target : Variable) {v : Value} (hv : (P s).value v)
    (ht : t = ((Store.write target v : StateM Store Unit) s).2) : (P t).OfStore t := by
  have hg : s.Grows t := by
    subst ht
    exact .refl s
  subst ht
  refine ⟨?_, fun he => hP.node hg (hs.programs he)⟩
  intro k u hu
  apply hP.value hg
  rcases Store.slots_of_write hu with rfl | hu
  · exact hv
  · exact hs.slots hu

theorem insert (hs : (P s).OfStore s) (k : Nat) {e : Str × Program} (he : (P s).node e.2.root)
    (ht : t = { s with programs := s.programs.insert k e }) : (P t).OfStore t := by
  have hg : s.Grows t := by
    subst ht
    exact .refl s
  subst ht
  refine ⟨fun hv => hP.value hg (hs.slots hv), ?_⟩
  intro l f hf
  apply hP.node hg
  rw [TreeMap.getElem?_insert] at hf
  split at hf
  · obtain rfl := Option.some.inj hf
    exact he
  · exact hs.programs hf

theorem stores {c : Config} {u : State} (h : (P c.state.workspace.store).OfConfig c)
    (hu : Machine.Stores c u) : (P u.workspace.store).OfStore u.workspace.store := by
  cases hu with
  | keeps hu =>
    rw [hu]
    exact h.store
  | @assigns target v frames hc hf hu =>
    have hv := h.control
    rw [hc] at hv
    exact hP.write h.store target hv hu
  | @finds v source s result args frames hc hf hv hu =>
    have hstore := h.store
    rw [← Action.store_of_toStr hv] at hstore
    cases hu with
    | known he => exact hstore
    | parsed _ hp => exact hP.insert (hP.widen (Program.widens_of_parse hp) hstore) _ (hP.parse hp) rfl
    | wrong _ hp => exact hP.widen (Program.widens_of_parse hp) hstore

theorem step (around : Surroundings) {c : Config} (h : (P c.state.workspace.store).OfConfig c) :
    (P (Machine.step around c).state.workspace.store).Passes (Machine.step around c) := by
  have hg := (Machine.edits_step around c).lasts.names
  -- all that the step goes on with was there before, except for a program that it finds
  apply Machine.passes_step
  · exact hP.control hg h.control
  · exact fun f hf => hP.ofFrame hg (h.frames f hf)
  · exact fun hv => hP.value hg (h.store.slots hv)
  · rintro - - - - q ⟨source, s', hs', hq⟩
    generalize (Machine.step around c).state = u at hq hg ⊢
    cases hq with
    | known he =>
      apply hP.node hg
      rw [hs'] at he
      exact h.store.programs he
    | @parsed q ws _ hp =>
      have hnames : ws.store.Grows { ws.store with
        programs := ws.store.programs.insert source.identity.key (source, q) } := .refl _
      exact hP.node hnames (hP.parse hp)

theorem next {around : Surroundings} {c e : Config} (h : (P c.state.workspace.store).OfConfig c)
    (hs : Machine.step around c = .next e) : (P e.state.workspace.store).OfConfig e := by
  have hp := hP.step around h
  have ht := Machine.stores_step around c
  rw [hs] at hp ht
  cases hp with
  | next hc hf => exact ⟨hc, hf, hP.stores h ht⟩

theorem reaches {around : Surroundings} {c e : Config} (h : (P c.state.workspace.store).OfConfig c)
    (he : Machine.Reaches around c e) : (P e.state.workspace.store).OfConfig e := by
  induction he with
  | refl => exact h
  | tail _ hs ih => exact hP.next ih hs

theorem advance (around : Surroundings) (fuel : Nat) {c : Config}
    (h : (P c.state.workspace.store).OfConfig c) {result : Option (Except Stop Value)} {u : State}
    (hr : Machine.advance around fuel c = (result, u)) :
    (P u.workspace.store).OfStore u.workspace.store ∧
      ∀ v, result = some (.ok v) → (P u.workspace.store).value v := by
  obtain ⟨e, he, ha | ⟨res, t, hs, ha⟩⟩ := Machine.reaches_advance around fuel c
  · obtain ⟨rfl, rfl⟩ := Prod.mk.inj (hr.symm.trans ha)
    exact ⟨(hP.reaches h he).store, nofun⟩
  · obtain ⟨rfl, rfl⟩ := Prod.mk.inj (hr.symm.trans ha)
    have hp := hP.step around (hP.reaches h he)
    have ht := Machine.stores_step around e
    rw [hs] at hp ht
    refine ⟨hP.stores (hP.reaches h he) ht, ?_⟩
    rintro v hv
    obtain rfl := Option.some.inj hv
    cases hp with
    | value hv => exact hv

theorem keep {s : Session} (h : s.Has P) {store : Store} (hg : s.store.Grows store)
    (hs : (P store).OfStore store) {result : Option (Except Stop Value)}
    (hv : ∀ v, result = some (.ok v) → (P store).value v) : (s.keep store result).Has P := by
  have htrees : ∀ n ∈ s.trees, (P store).node n := fun n hn => hP.node hg (h.trees n hn)
  have hresults : ∀ v ∈ s.results, (P store).value v := fun v hn => hP.value hg (h.results v hn)
  unfold Session.keep
  split
  · rename_i v
    have hv := hv v rfl
    refine ⟨List.forall_mem_append.2 ⟨htrees, ?_⟩, List.forall_mem_append.2 ⟨hresults, ?_⟩, hs⟩
    · cases v with
      | block body => simpa [Value.trees] using (P store).block.1 hv
      | _ => exact nofun
    · simpa using hv
  · exact ⟨htrees, hresults, hs⟩

theorem leave {s : Session} (h : s.Has P) {store : Store} (hg : s.store.Grows store)
    (hs : (P store).OfStore store) : Session.Has P ⟨store, s.trees, s.results⟩ := by
  have hnone : ∀ v, (none : Option (Except Stop Value)) = some (.ok v) → (P store).value v := nofun
  exact hP.keep h hg hs hnone

theorem act {s : Session} (h : s.Has P) (a : Session.Act) : (a.step s).Has P := by
  cases a with
  | lookup name =>
    have hw := s.store.lookup_widens name
    exact hP.leave h hw.grows (hP.widen hw h.store)
  | assign name n =>
    simp only [Session.Act.step]
    split
    · rename_i v hv
      have hw := s.store.lookup_widens name
      have hg := (s.store.edits_assign name v).lasts.names
      have hvalue := hP.value hw.grows (h.results v (List.mem_of_getElem? hv))
      exact hP.leave h hg (hP.write (hP.widen hw h.store) _ hvalue rfl)
    · exact h
  | parse source ws =>
    simp only [Session.Act.step]
    rcases hp : Program.parse source (ws.withStore s.store) with ⟨e | q, ws'⟩
    · have hw := Program.widens_of_parse hp
      exact hP.leave h hw.grows (hP.widen hw h.store)
    · have hw := Program.widens_of_parse hp
      have hleft := hP.leave h hw.grows (hP.widen hw h.store)
      refine ⟨List.forall_mem_append.2 ⟨hleft.trees, ?_⟩, hleft.results, hleft.store⟩
      simpa using hP.parse hp
  | execute n around fuel ws console =>
    simp only [Session.Act.step]
    split
    · rename_i root hn
      have hopen := h.opening (List.mem_of_getElem? hn) ws console
      have hg := (Machine.edits_advance around fuel (s.opening root ws console)).lasts.names
      rcases hr : Machine.advance around fuel (s.opening root ws console) with ⟨result, t⟩
      rw [hr] at hg
      obtain ⟨hs, hv⟩ := hP.advance around fuel hopen hr
      exact hP.keep h hg hs hv
    · exact h

theorem run (acts : List Session.Act) : (Session.run acts).Has P := by
  have hfold {s : Session} (h : s.Has P) : (acts.foldl Session.Act.step s).Has P := by
    induction acts generalizing s with
    | nil => exact h
    | cons a acts ih => exact ih (hP.act h a)
  apply hfold
  refine ⟨nofun, nofun, ?_, ?_⟩
  · intro k v hv
    simp [Store.empty] at hv
  · intro k e he
    simp [Store.empty] at he

end Enduring

namespace Session

theorem edits_step (s : Session) (a : Act) : s.store.Edits (a.step s).store := by
  cases a with
  | lookup name => exact .single (.lookup name)
  | assign name n =>
    simp only [Act.step]
    split
    · exact s.store.edits_assign name _
    · exact .refl
  | parse source ws =>
    simp only [Act.step]
    rcases hp : Program.parse source (ws.withStore s.store) with ⟨e | q, ws'⟩ <;>
      exact Program.edits_of_parse hp
  | execute n around fuel ws console =>
    simp only [Act.step]
    split
    · rename_i root hn
      have he := Machine.edits_advance around fuel (s.opening root ws console)
      rcases hr : Machine.advance around fuel (s.opening root ws console) with ⟨result, t⟩
      rw [hr] at he
      unfold keep
      split <;> exact he
    · exact .refl

theorem edits_run (acts later : List Act) : (run acts).store.Edits (run (acts ++ later)).store := by
  have hfold (s : Session) : s.store.Edits (later.foldl Act.step s).store := by
    induction later generalizing s with
    | nil => exact .refl
    | cons a later ih => exact (edits_step s a).trans (ih _)
  unfold run
  rw [List.foldl_append]
  exact hfold _

theorem keyed_run (acts : List Act) : (run acts).store.Keyed :=
  (edits_run [] acts).keyed Store.keyed_empty

end Session

end KnightLang
