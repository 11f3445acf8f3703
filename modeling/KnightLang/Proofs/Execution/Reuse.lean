import KnightLang.Proofs.Execution.Reaching
import KnightLang.Proofs.Execution.Storing

namespace KnightLang

open Std (TreeMap)

def Store.Rereads (s : Store) (text : String) (q : Program) : Prop :=
  ∃ (ls rest : List Lexeme) (p : Phrase), Token.scan text = .ok ls ∧ Parse.Begins p ls rest ∧
    p.tree? s.names = some q.root.bare

def Store.Rereadable (s : Store) : Prop :=
  ∀ (k : Nat) (e : Str × Program), s.programs[k]? = some e → s.Rereads e.1.text e.2

def Store.Preserved (s t : Store) : Prop :=
  ∀ (k : Nat) (e : Str × Program), s.programs[k]? = some e → t.programs[k]? = some e

namespace Store

theorem Rereads.mono {s t : Store} {text : String} {q : Program}
    (hn : ∀ {name : String} {slot : Nat}, s.names[name]? = some slot → t.names[name]? = some slot)
    (h : s.Rereads text q) : t.Rereads text q := by
  obtain ⟨ls, rest, p, hs, hb, ht⟩ := h
  exact ⟨ls, rest, p, hs, hb, p.tree?_mono hn ht⟩

theorem Rereadable.widen {s t : Store} (h : s.Rereadable) (hw : s.Widens t) : t.Rereadable := by
  intro k e he
  rw [hw.programs] at he
  exact (h k e he).mono hw.name

end Store

namespace Program

variable {text : String} {ws ws' : Workspace} {q : Program}

theorem rereads_of_parse (hs : ∃ E, ws.strings.Sound E) (h : parse text ws = (.ok q, ws')) :
    ws'.store.Rereads text q := by
  obtain ⟨ls, rest, p, hl, hb, rfl, rfl⟩ := exists_begins_of_parse h
  exact ⟨ls, rest, p, hl, hb, (p.yields_build ws hs).2.2⟩

theorem parse_of_rereads (h : ws.store.Rereads text q) (hs : ∃ E, ws.strings.Sound E) :
    ∃ fresh ws', parse text ws = (.ok fresh, ws') ∧ ws'.store = ws.store ∧
      fresh.root.bare = q.root.bare := by
  obtain ⟨ls, rest, p, hl, hb, ht⟩ := h
  refine ⟨_, _, hb.parse_eq hl ws, p.store_build ht, ?_⟩
  have hfresh := (p.yields_build ws hs).2.2
  rw [p.store_build ht, ht] at hfresh
  exact (Option.some.inj hfresh).symm

end Program

theorem State.Alike.sound {caches : Caches} {k : Nat} {w : Pairing} {s : State}
    (h : s.Alike (.itself caches k) 0 w s) :
    ∃ E, w ≤ .diagonal E ∧ s.workspace.strings.Sound E ∧
      s.workspace.store.Matches 0 (.diagonal E) s.workspace.store := by
  obtain ⟨-, E, hi, hE⟩ := h.workspace.strings
  exact ⟨E, hE, hi.interner, h.workspace.store.mono hE⟩

theorem Config.Hosted.toStr {c : Config} (h : c.Hosted) {v : Value} (hc : c.control = .value v)
    {source : Str} {s : State} (hv : (Action.toStr v).run c.state = (.ok source, s)) :
    ∃ E, source ∈ E ∧ s.workspace.strings.Sound E ∧
      s.workspace.store.Matches 0 (.diagonal E) s.workspace.store := by
  obtain ⟨caches, k, w, h⟩ := h
  have hm := h.control
  rw [hc] at hm
  cases hm with
  | value hm =>
    obtain ⟨w', -, hs, hr⟩ := (Link.lawful_itself caches k).toStr hm le_rfl h.state
      Link.enough_itself Link.enough_itself
    rw [hv] at hs hr
    obtain ⟨E, hE, hsound⟩ := hs.sound
    cases hr with
    | ok hr => exact ⟨E, (hE _ _ hr).2, hsound⟩

namespace Machine

variable {around : Surroundings} {c e : Config} {t : State}

theorem rereadable_stores (hh : c.Hosted) (h : c.state.workspace.store.Rereadable)
    (ht : Stores c t) : t.workspace.store.Rereadable := by
  cases ht with
  | keeps ht => rwa [ht]
  | assigns target hc hf ht =>
    rw [ht]
    exact h
  | @finds v source s result args frames hc hf hv ht =>
    rw [← Action.store_of_toStr hv] at h
    cases ht with
    | known _ => exact h
    | wrong _ hp => exact h.widen (Program.widens_of_parse hp)
    | @parsed q ws _ hp =>
      obtain ⟨E, -, hs, -⟩ := hh.toStr hc hv
      have hq := Program.rereads_of_parse ⟨E, hs⟩ hp
      have hold := h.widen (Program.widens_of_parse hp)
      intro k e he
      simp only [TreeMap.getElem?_insert, Std.compare_eq_iff_eq] at he
      split at he
      · obtain rfl := Option.some.inj he
        exact hq
      · exact hold k e he

theorem preserved_stores (ht : Stores c t) :
    c.state.workspace.store.Preserved t.workspace.store := by
  intro k e he
  cases ht with
  | keeps ht => rwa [ht]
  | assigns target hc hf ht =>
    rw [ht]
    exact he
  | @finds v source s result args frames hc hf hv ht =>
    rw [← Action.store_of_toStr hv] at he
    cases ht with
    | known _ => exact he
    | wrong _ hp => rwa [(Program.widens_of_parse hp).programs]
    | @parsed q ws hnone hp =>
      have hw := (Program.widens_of_parse hp).programs
      have hne : source.identity.key ≠ k := by
        rintro rfl
        simp [hnone] at he
      rwa [TreeMap.getElem?_insert, if_neg (by simpa using hne), hw]

theorem preserved_reaches (h : Reaches around c e) :
    c.state.workspace.store.Preserved e.state.workspace.store := by
  induction h with
  | refl => exact fun _ _ => id
  | @tail b e _ hs ih =>
    have ht := stores_step around b
    rw [hs] at ht
    exact fun k p hp => preserved_stores ht k p (ih k p hp)

theorem preserved_advance (around : Surroundings) (fuel : Nat) (c : Config) :
    c.state.workspace.store.Preserved (advance around fuel c).2.workspace.store := by
  obtain ⟨e, he, ha | ⟨result, s, hs, ha⟩⟩ := reaches_advance around fuel c
  · rw [ha]
    exact preserved_reaches he
  · have ht := stores_step around e
    rw [hs] at ht
    rw [ha]
    exact fun k p hp => preserved_stores ht k p (preserved_reaches he k p hp)

end Machine

theorem Action.sourceProgram_of_some {source : Str} {s : State} {e : Str × Program}
    (h : s.workspace.store.programs[source.identity.key]? = some e) :
    (sourceProgram source).run s = (.ok e.2, s) := by
  have hf := finds_sourceProgram source s
  generalize (sourceProgram source).run s = r at hf
  obtain ⟨result, t⟩ := r
  cases hf with
  | known h' => rw [Option.some.inj (h.symm.trans h')]
  | parsed h' _ => simp [h] at h'
  | wrong h' _ => simp [h] at h'

/-- Each program lies under the identity of its source, and parsing the source again would succeed, make
no variable and give the same tree, with the same variables. -/
def Workspace.Reuses (ws : Workspace) : Prop :=
  ∀ (k : Nat) (source : Str) (q : Program), ws.store.programs[k]? = some (source, q) →
    k = source.identity.key ∧ ∃ fresh ws', Program.parse source.text ws = (.ok fresh, ws') ∧
      ws'.store = ws.store ∧ fresh.root.bare = q.root.bare

theorem Workspace.reuses {ws : Workspace} {E F : Set Str} (hr : ws.store.Rereadable)
    (hs : ws.strings.Sound E) (hm : ws.store.Matches 0 (.diagonal F) ws.store) : ws.Reuses := by
  intro k source q hq
  obtain ⟨-, -, hk, -⟩ := hm.program hq
  exact ⟨hk.symm, Program.parse_of_rereads (hr k _ hq) ⟨E, hs⟩⟩

theorem Workspace.source_eq_of_found {ws : Workspace} {E : Set Str} (hs : ws.strings.Sound E)
    (hm : ws.store.Matches 0 (.diagonal E) ws.store) {source : Str} (hE : source ∈ E)
    {e : Str × Program} (he : ws.store.programs[source.identity.key]? = some e) :
    e.1 = source := by
  obtain ⟨-, ⟨-, hmem⟩, hk, -⟩ := hm.program he
  exact hs.covers.identity hmem hE (Identity.key_inj.1 hk)

namespace Past

theorem stores_keep (p : Past) (k : Nat) (parsed : Except CompileError Program) :
    (p.keep k parsed).stores = p.stores := by
  cases parsed <;> rfl

theorem stores_handOut (p : Past) (result : Option (Except Stop Value)) :
    (p.handOut result).stores = p.stores := by
  unfold handOut
  split <;> rfl

theorem preserved_set {stores : List Store} {k l : Nat} {s t u : Store} (hk : stores[k]? = some s)
    (hl : stores[l]? = some t) (h : t.Preserved u) :
    ∃ v, (stores.set l u)[k]? = some v ∧ s.Preserved v := by
  by_cases hkl : l = k
  · subst hkl
    obtain rfl := Option.some.inj (hk.symm.trans hl)
    obtain ⟨hlt, -⟩ := List.getElem?_eq_some_iff.1 hk
    exact ⟨u, List.getElem?_set_self hlt, h⟩
  · exact ⟨s, by rwa [List.getElem?_set_ne hkl], fun _ _ => id⟩

theorem preserved_step (p : Past) (deed : Deed) {k : Nat} {s : Store} (hk : p.stores[k]? = some s) :
    ∃ t, (deed.step p).stores[k]? = some t ∧ s.Preserved t := by
  have same {stores : List Store} (h : stores = p.stores) :
      ∃ t, stores[k]? = some t ∧ s.Preserved t := ⟨s, by rwa [h], fun _ _ => id⟩
  cases deed with
  | use u => exact same rfl
  | share => exact same p.stores_share
  | openStore =>
    obtain ⟨hlt, -⟩ := List.getElem?_eq_some_iff.1 hk
    exact ⟨s, by rwa [Deed.step, List.getElem?_append_left hlt], fun _ _ => id⟩
  | assign l name n =>
    simp only [Deed.step]
    split
    · rename_i t a ht _
      refine preserved_set hk ht fun i e he => ?_
      rw [← (t.lookup_widens name).programs] at he
      exact he
    · exact same rfl
  | parse l source =>
    simp only [Deed.step]
    split
    · rename_i t ht
      let r := Program.parse source (p.share.workspace t)
      have hr : t.Preserved r.2.store := fun i e he => by
        rwa [(Program.widens_parse source (p.share.workspace t)).programs]
      rw [← stores_share] at hk ht
      change ∃ u, ((p.share.leave l r.2).keep l r.1).stores[k]? = some u ∧ s.Preserved u
      rw [stores_keep]
      exact preserved_set hk ht hr
    · exact same rfl
  | execute n around console fuel =>
    simp only [Deed.step]
    split
    · rename_i l t q hn
      obtain ⟨-, ht⟩ := getElem?_of_program? hn
      let r := q.advance around fuel ⟨p.share.workspace t, console⟩
      have hr : t.Preserved r.2.workspace.store :=
        Machine.preserved_advance around fuel (q.opening ⟨p.share.workspace t, console⟩)
      rw [← stores_share] at hk ht
      change ∃ u, ((p.share.leave l r.2.workspace).handOut r.1).stores[k]? = some u ∧ s.Preserved u
      rw [stores_handOut]
      exact preserved_set hk ht hr
    · exact same rfl

theorem preserved_foldl {p : Past} {k : Nat} {s : Store} (hk : p.stores[k]? = some s)
    (deeds : List Deed) :
    ∃ t, (deeds.foldl Deed.step p).stores[k]? = some t ∧ s.Preserved t := by
  induction deeds generalizing p s with
  | nil => exact ⟨s, hk, fun _ _ => id⟩
  | cons deed deeds ih =>
    obtain ⟨t, ht, hst⟩ := p.preserved_step deed hk
    obtain ⟨u, hu, htu⟩ := ih ht
    exact ⟨u, hu, fun i e he => htu i e (hst i e he)⟩

theorem invariant_rereadable : Invariant Store.Rereadable (fun _ => True)
    fun c => c.state.workspace.store.Rereadable where
  empty k e he := by simp [Store.empty] at he
  assign name a s h := by
    have hl := h.widen (s.lookup_widens name)
    exact hl
  parse source ws _ h := ⟨h.widen (Program.widens_parse source ws), fun _ _ => trivial⟩
  opening _ h := h
  store h := h
  next around c e hh h hs := by
    have ht := Machine.stores_step around c
    rw [hs] at ht
    exact Machine.rereadable_stores hh h ht
  halt around c result s hh h hs := by
    have ht := Machine.stores_step around c
    rw [hs] at ht
    exact Machine.rereadable_stores hh h ht

/-- In every store, the programs of `EVAL` are what parsing their sources again would give; they stay
there whatever happens later; and where one of them is found for a source, it is evaluated and is what
parsing the source would give there. -/
theorem cached_programs_are_fresh (deeds : List Deed) :
    (∀ store ∈ (run deeds).stores, ((run deeds).workspace store).Reuses) ∧
    (∀ (k : Nat) (store : Store) (later : List Deed), (run deeds).stores[k]? = some store →
      ∃ store', (run (deeds ++ later)).stores[k]? = some store' ∧ store.Preserved store') ∧
    ∀ n k store q around console c, (run deeds).program? n = some (k, store, q) →
      Machine.Reaches around (q.opening ⟨(run deeds).share.workspace store, console⟩) c →
      c.state.workspace.Reuses ∧ store.Preserved c.state.workspace.store ∧
      ∀ v args frames s source t found, c = ⟨.value v, .argument .eval args [] :: frames, s⟩ →
        (Action.toStr v).run s = (.ok source, t) →
        ((Store.program? source : StateM Store _) t.workspace.store).1 = some found →
        Machine.step around c = .next ⟨.node found.root, frames, t⟩ ∧
        ∃ fresh ws, Program.parse source.text t.workspace = (.ok fresh, ws) ∧
          ws.store = t.workspace.store ∧ fresh.root.bare = found.root.bare := by
  obtain ⟨E, hE⟩ := sound_run deeds
  obtain ⟨hS, -⟩ := invariant_rereadable.holds_run deeds
  refine ⟨fun store hs => ?_, fun k store later hk => ?_, ?_⟩
  · obtain ⟨F, hF, -⟩ := hE.strings
    exact Workspace.reuses (hS store hs) hF (hE.store hs)
  · have hrun : run (deeds ++ later) = later.foldl Deed.step (run deeds) := List.foldl_append
    rw [hrun]
    exact preserved_foldl hk later
  · intro n k store q around console c hn hc
    obtain ⟨hhosted, hr⟩ := invariant_rereadable.holds_reached deeds hn hc
    obtain ⟨caches, g, w, halike⟩ := id hhosted
    obtain ⟨F, -, hF, hm⟩ := halike.state.sound
    refine ⟨Workspace.reuses hr hF hm, Machine.preserved_reaches hc, ?_⟩
    rintro v args frames s source t found rfl hv hfound
    obtain ⟨e, he, rfl⟩ := Option.map_eq_some_iff.1 hfound
    obtain ⟨G, hsource, hG, hm⟩ := hhosted.toStr rfl hv
    have hrt : t.workspace.store.Rereadable := by rwa [Action.store_of_toStr hv]
    have hreuses := Workspace.reuses hrt hG hm
    have hp := (Action.run_bind_of_ok hv).trans (Action.sourceProgram_of_some he)
    have hrun : Machine.step around ⟨.value v, .argument .eval args [] :: frames, s⟩ =
        .next ⟨.node e.2.root, frames, t⟩ := Machine.after_of_ok hp
    refine ⟨hrun, ?_⟩
    -- no other string has this identity, so the entry was made for this very source
    obtain ⟨-, hparse⟩ := hreuses _ e.1 e.2 he
    rwa [Workspace.source_eq_of_found hG hm hsource he] at hparse

end Past

end KnightLang
