import KnightLang.Proofs.Execution.Reuse
import KnightLang.Proofs.Lockstep.Owning
import Mathlib.Data.List.Dedup
import Mathlib.Data.List.Duplicate
import Mathlib.Data.List.Nodup
import Mathlib.Data.List.NodupEquivFin

namespace KnightLang

open Std (TreeMap)

inductive Finding
  | known
  | parsed
  | wrong
  deriving DecidableEq, Repr

structure SourceUse where
  text : String
  found : Finding
  deriving DecidableEq, Repr

namespace Program

def Parses (text : String) : Prop :=
  ∃ ls rest p, Token.scan text = .ok ls ∧ Parse.Begins p ls rest

variable {text : String} {ws ws' : Workspace}

theorem parses_of_ok {q : Program} (h : parse text ws = (.ok q, ws')) : Parses text := by
  obtain ⟨ls, rest, p, hl, hb, -, -⟩ := exists_begins_of_parse h
  exact ⟨ls, rest, p, hl, hb⟩

theorem not_parses_of_error {e : CompileError} (h : parse text ws = (.error e, ws')) :
    ¬ Parses text := by
  rintro ⟨ls, rest, p, hl, hb⟩
  cases (hb.parse_eq hl ws).symm.trans h

end Program

namespace Action

def finding (source : Str) (s : State) : Finding :=
  match ((Store.program? source : StateM Store (Option Program)) s.workspace.store).1,
    ((sourceProgram source).run s).1 with
  | some _, _ => .known
  | none, .ok _ => .parsed
  | none, .error _ => .wrong

inductive Found (source : Str) (s t : State) : Finding → Prop
  | known {e : Str × Program} (h : s.workspace.store.programs[source.identity.key]? = some e)
      (ht : t.workspace.store.programs = s.workspace.store.programs) : Found source s t .known
  | parsed {q : Program} (h : s.workspace.store.programs[source.identity.key]? = none)
      (ht : t.workspace.store.programs =
        s.workspace.store.programs.insert source.identity.key (source, q))
      (hp : Program.Parses source.text) : Found source s t .parsed
  | wrong (h : s.workspace.store.programs[source.identity.key]? = none)
      (ht : t.workspace.store.programs = s.workspace.store.programs)
      (hp : ¬ Program.Parses source.text) : Found source s t .wrong

theorem found_finding (source : Str) (s : State) :
    Found source s ((sourceProgram source).run s).2 (finding source s) := by
  have h := finds_sourceProgram source s
  unfold finding
  rw [Store.program?_eq]
  generalize (sourceProgram source).run s = r at h ⊢
  obtain ⟨result, t⟩ := r
  cases h with
  | known h =>
    simp only [h, Option.map_some]
    exact .known h rfl
  | @parsed q ws h hp =>
    simp only [h, Option.map_none]
    refine .parsed (q := q) h ?_ (Program.parses_of_ok hp)
    rw [(Program.widens_of_parse hp).programs]
  | wrong h hp =>
    simp only [h, Option.map_none]
    exact .wrong h (Program.widens_of_parse hp).programs (Program.not_parses_of_error hp)

end Action

def Config.sourceUse? : Config → Option SourceUse
  | ⟨.value v, .argument .eval _ [] :: _, s⟩ =>
    match (Action.toStr v).run s with
    | (.ok source, t) => some ⟨source.text, Action.finding source t⟩
    | (.error _, _) => none
  | _ => none

namespace Machine

variable {around : Surroundings} {c : Config} {e : SourceUse}

theorem programs_step_of_none (h : c.sourceUse? = none) :
    (step around c).state.workspace.store.programs = c.state.workspace.store.programs := by
  cases stores_step around c with
  | keeps ht => rw [ht]
  | assigns target hc hf ht => rw [ht, Store.write_eq]
  | finds hc hf hv _ =>
    obtain ⟨control, frames, s⟩ := c
    dsimp only at hc hf hv
    subst hc hf
    simp only [Config.sourceUse?, hv] at h
    cases h

theorem state_after {α : Type} {x : Action α} {go : α → State → Step} {s : State}
    (hgo : ∀ a t, (go a t).state = t) : (after x s go).state = (x.run s).2 := by
  rcases hx : x.run s with ⟨stop | a, t⟩
  · rw [after_of_error hx]
    rfl
  · rw [after_of_ok hx]
    exact hgo a t

theorem exists_source_of_some (around : Surroundings) (h : c.sourceUse? = some e) : ∃ v source t, c.control = .value v ∧
    (Action.toStr v).run c.state = (.ok source, t) ∧ e = ⟨source.text, Action.finding source t⟩ ∧
    (step around c).state = ((Action.sourceProgram source).run t).2 := by
  unfold Config.sourceUse? at h
  split at h
  · rename_i v args frames s
    split at h
    · rename_i source t hv
      refine ⟨v, source, t, rfl, hv, (Option.some.inj h).symm, ?_⟩
      have hrun := Action.run_bind_of_ok (f := Action.sourceProgram) hv
      rw [← hrun]
      exact state_after (x := Action.toStr v >>= Action.sourceProgram) fun _ _ => rfl
    · cases h
  · cases h

end Machine

namespace Store

/-- What the programs of a store say about the texts that were evaluated on it, and these about each
other. -/
structure Logged (s : Store) (log : List SourceUse) : Prop where
  parsed_iff {text : String} : text.utf8ByteSize ≤ 32 →
    (⟨text, .parsed⟩ ∈ log ↔
      ∃ (k : ℕ) (e : Str × Program), s.programs[k]? = some e ∧ e.1.text = text)
  known_iff {n : ℕ} {e : SourceUse} : log[n]? = some e → e.text.utf8ByteSize ≤ 32 →
    (e.found = .known ↔ ⟨e.text, .parsed⟩ ∈ log.take n)
  wrong {e : SourceUse} : e ∈ log → e.found = .wrong → ¬ Program.Parses e.text

structure Knows (s : Store) (source : Str) : Prop where
  key {k : ℕ} {e : Str × Program} : s.programs[k]? = some e → k = e.1.identity.key
  same {k : ℕ} {e : Str × Program} : s.programs[k]? = some e → e.1.text = source.text →
    source.text.utf8ByteSize ≤ 32 → e.1 = source
  found {e : Str × Program} : s.programs[source.identity.key]? = some e → e.1 = source

theorem logged_empty : Store.empty.Logged [] where
  parsed_iff _ := by simp [Store.empty]
  known_iff h := by simp at h
  wrong h := by simp at h

namespace Logged

variable {s t : Store} {log : List SourceUse}

theorem of_programs (h : s.Logged log) (ht : t.programs = s.programs) : t.Logged log where
  parsed_iff hshort := by
    rw [ht]
    exact h.parsed_iff hshort
  known_iff := h.known_iff
  wrong := h.wrong

theorem parsed_iff_of_knows (h : s.Logged log) {source : Str} (hk : s.Knows source)
    (hshort : source.text.utf8ByteSize ≤ 32) : ⟨source.text, .parsed⟩ ∈ log ↔
      ∃ e : Str × Program, s.programs[source.identity.key]? = some e := by
  rw [h.parsed_iff hshort]
  constructor
  · rintro ⟨k, e, he, htext⟩
    have hkey := hk.key he
    rw [hk.same he htext hshort] at hkey
    exact ⟨e, hkey ▸ he⟩
  · rintro ⟨e, he⟩
    exact ⟨_, e, he, by rw [hk.found he]⟩

theorem known_iff_push (h : s.Logged log) {e : SourceUse}
    (he : e.text.utf8ByteSize ≤ 32 → (e.found = .known ↔ ⟨e.text, .parsed⟩ ∈ log)) {n : ℕ}
    {e' : SourceUse} (hn : (log ++ [e])[n]? = some e') (hshort : e'.text.utf8ByteSize ≤ 32) :
    e'.found = .known ↔ ⟨e'.text, .parsed⟩ ∈ (log ++ [e]).take n := by
  rcases Caches.getElem?_append_one hn with ⟨rfl, rfl⟩ | hold
  · rw [List.take_left]
    exact he hshort
  · obtain ⟨hlt, -⟩ := List.getElem?_eq_some_iff.1 hold
    rw [List.take_append_of_le_length hlt.le]
    exact h.known_iff hold hshort

theorem count_le_one (h : s.Logged log) {text : String} (hshort : text.utf8ByteSize ≤ 32) :
    log.count ⟨text, .parsed⟩ ≤ 1 := by
  by_contra hcount
  obtain ⟨m, n, hlt, hm, hn⟩ :=
    List.duplicate_iff_exists_distinct_get.1 (List.duplicate_iff_two_le_count.2 (Nat.not_le.1 hcount))
  rw [List.get_eq_getElem] at hm hn
  -- the second of two would have found what the first one parsed
  have hlast : log[n.1]? = some ⟨text, .parsed⟩ := by rw [hn, List.getElem?_eq_getElem n.2]
  have hfirst : ⟨text, .parsed⟩ ∈ log.take n :=
    List.mem_take_iff_getElem.2 ⟨m, lt_min hlt m.2, hm.symm⟩
  cases (h.known_iff hlast hshort).2 hfirst

theorem parsed_mem_of_parses (h : s.Logged log) {e : SourceUse} (he : e ∈ log)
    (hshort : e.text.utf8ByteSize ≤ 32) (hp : Program.Parses e.text) : ⟨e.text, .parsed⟩ ∈ log := by
  obtain ⟨n, hn⟩ := List.mem_iff_getElem?.1 he
  have hknown := h.known_iff hn hshort
  obtain ⟨text, found⟩ := e
  cases found with
  | known => exact List.mem_of_mem_take (hknown.1 rfl)
  | parsed => exact he
  | wrong => exact absurd hp (h.wrong he rfl)

end Logged

end Store

theorem Store.Logged.push {s t : State} {log : List SourceUse} {source : Str} {found : Finding}
    (h : s.workspace.store.Logged log) (hk : s.workspace.store.Knows source)
    (hf : Action.Found source s t found) :
    t.workspace.store.Logged (log ++ [⟨source.text, found⟩]) := by
  have hparsed := h.parsed_iff_of_knows hk
  have hwrong (hp : found = .wrong → ¬ Program.Parses source.text) {e : SourceUse}
      (he : e ∈ log ++ [⟨source.text, found⟩]) (hw : e.found = .wrong) :
      ¬ Program.Parses e.text := by
    rcases List.mem_append.1 he with he | he
    · exact h.wrong he hw
    · obtain rfl := List.mem_singleton.1 he
      exact hp hw
  have hfresh (hnone : s.workspace.store.programs[source.identity.key]? = none)
      (hshort : source.text.utf8ByteSize ≤ 32) : ⟨source.text, .parsed⟩ ∉ log := by
    intro hmem
    obtain ⟨e, he⟩ := (hparsed hshort).1 hmem
    cases hnone.symm.trans he
  cases hf with
  | @known e he ht =>
    refine ⟨fun hshort => ?_, h.known_iff_push fun hshort => ?_, hwrong nofun⟩
    · rw [← (h.of_programs ht).parsed_iff hshort]
      simp
    · exact iff_of_true rfl ((hparsed hshort).2 ⟨e, he⟩)
  | @parsed q hnone ht hp =>
    refine ⟨fun {text} hshort => ?_, h.known_iff_push fun hshort => ?_, hwrong nofun⟩
    · simp only [ht, List.mem_append, List.mem_singleton, h.parsed_iff hshort, SourceUse.mk.injEq,
        and_true]
      constructor
      · rintro (⟨k, e, he, htext⟩ | rfl)
        · refine ⟨k, e, ?_, htext⟩
          have hne : source.identity.key ≠ k := by
            rintro rfl
            cases hnone.symm.trans he
          rwa [TreeMap.getElem?_insert, if_neg (by simpa using hne)]
        · exact ⟨_, _, TreeMap.getElem?_insert_self, rfl⟩
      · rintro ⟨k, e, he, htext⟩
        simp only [TreeMap.getElem?_insert, Std.compare_eq_iff_eq] at he
        split at he
        · obtain rfl := Option.some.inj he
          exact .inr htext.symm
        · exact .inl ⟨k, e, he, htext⟩
    · exact iff_of_false nofun (hfresh hnone hshort)
  | wrong hnone ht hp =>
    refine ⟨fun hshort => ?_, h.known_iff_push fun hshort => ?_, hwrong fun _ => hp⟩
    · rw [← (h.of_programs ht).parsed_iff hshort]
      simp
    · exact iff_of_false nofun (hfresh hnone hshort)

theorem Config.Alike.knows {i₀ : Interner} {E₀ : Set Str} {only : Prop} {w : Pairing} {c : Config}
    (h : c.Alike (.growing i₀ E₀ only) 0 w c) (honly : only) (ho : i₀.cache.options = {}) {v : Value}
    (hc : c.control = .value v) {source : Str} {t : State}
    (hv : (Action.toStr v).run c.state = (.ok source, t)) (hl : (supply t).TagsLeft) :
    t.workspace.store.Knows source := by
  have hm := h.control
  rw [hc] at hm
  cases hm with
  | value hm =>
    have hspent : Link.Enough (.growing i₀ E₀ only) (supply ((Action.toStr v).run c.state).2) := by
      rw [hv]
      exact fun _ => hl
    -- the conversion makes or finds a string that the cache owns, as are those in the store
    obtain ⟨w', -, hs, hr⟩ := Link.lawful_growing.toStr hm le_rfl h.state hspent hspent
    rw [hv] at hs hr
    obtain ⟨-, E, hev, hw'⟩ := hs.workspace.strings
    have hmax : t.workspace.strings.cache.options.maxLength = 32 := by
      rw [hev.grows.options, ho]
    cases hr with
    | ok hsource =>
      obtain ⟨-, hmem, howns⟩ := hw' _ _ hsource
      refine ⟨fun he => ?_, fun he htext hshort => ?_, fun he => ?_⟩
      · obtain ⟨-, -, hkey, -⟩ := hs.workspace.store.program he
        exact hkey.symm
      · obtain ⟨entry, hpair, -⟩ := hs.workspace.store.program he
        obtain ⟨-, -, howns'⟩ := hw' _ _ hpair
        exact (howns' honly).eq (howns honly) htext (by rwa [htext, hmax])
      · obtain ⟨entry, hpair, hkey, -⟩ := hs.workspace.store.program he
        obtain ⟨-, hmem', -⟩ := hw' _ _ hpair
        exact hev.sound.covers.identity hmem' hmem (Identity.key_inj.1 hkey)

namespace Machine

def sourceUses (around : Surroundings) : ℕ → Config → List SourceUse
  | 0, _ => []
  | fuel + 1, c => c.sourceUse?.toList ++
    match step around c with
    | .next e => sourceUses around fuel e
    | .halt _ _ => []

section

variable {i₀ : Interner} {E₀ : Set Str} {only : Prop} (honly : only) (ho : i₀.cache.options = {})
  {around : Surroundings} {w : Pairing} {c : Config} {log : List SourceUse}
include honly ho

theorem logged_step (around : Surroundings) (h : c.Alike (.growing i₀ E₀ only) 0 w c)
    (hl : (supply (step around c).state).TagsLeft) (hlog : c.state.workspace.store.Logged log) :
    (step around c).state.workspace.store.Logged (log ++ c.sourceUse?.toList) := by
  cases hu : c.sourceUse? with
  | none =>
    rw [Option.toList_none, List.append_nil]
    exact hlog.of_programs (programs_step_of_none hu)
  | some e =>
    obtain ⟨v, source, t, hc, hv, rfl, hstep⟩ := exists_source_of_some around hu
    rw [hstep] at hl ⊢
    have htags : (supply t).TagsLeft :=
      hl.of_le (Spends.le (x := (Action.sourceProgram source).run) t)
    rw [← Action.store_of_toStr hv] at hlog
    exact hlog.push (h.knows honly ho hc hv htags) (Action.found_finding source t)

theorem logged_advance (fuel : ℕ) (h : c.Alike (.growing i₀ E₀ only) 0 w c)
    (hl : (supply (advance around fuel c).2).TagsLeft)
    (hlog : c.state.workspace.store.Logged log) :
    (advance around fuel c).2.workspace.store.Logged (log ++ sourceUses around fuel c) := by
  induction fuel generalizing w c log with
  | zero =>
    rw [sourceUses, List.append_nil]
    exact hlog
  | succ fuel ih =>
    have hsteps := steps_step Link.lawful_growing around h
    have hlogged (hl) := logged_step honly ho around h hl hlog
    simp only [advance, sourceUses] at hl ⊢
    rw [← List.append_assoc]
    generalize step around c = next at hl hsteps hlogged ⊢
    cases next with
    | next e =>
      have htags : (supply e.state).TagsLeft := hl.of_le (le_advance around fuel e)
      obtain ⟨w', -, hnext⟩ := hsteps (fun _ => htags) fun _ => htags
      cases hnext with
      | next he => exact ih he hl (hlogged htags)
    | halt result s =>
      rw [List.append_nil]
      exact hlogged hl

end

end Machine

def Deed.sourceUses (k : ℕ) (p : Past) : Deed → List SourceUse
  | .execute n around console fuel =>
    match p.program? n with
    | some (l, store, q) =>
      if l = k then Machine.sourceUses around fuel (q.opening ⟨p.share.workspace store, console⟩)
      else []
    | none => []
  | _ => []

namespace Past

def sourceUses (k : ℕ) : Past → List Deed → List SourceUse
  | _, [] => []
  | p, deed :: deeds => deed.sourceUses k p ++ sourceUses k (deed.step p) deeds

/-- Whenever a string is assigned to a variable of the `k`-th store from outside, the shared cache owns
it. -/
def AssignsOwned (k : ℕ) (p : Past) (deeds : List Deed) : Prop :=
  ∀ before name n later a, deeds = before ++ .assign k name n :: later →
    (before.foldl Deed.step p).caches.handles[n]? = some a → (before.foldl Deed.step p).Owns a

theorem assignsOwned_nil (k : ℕ) (p : Past) : AssignsOwned k p [] := by
  intro before name n later a hdeeds
  cases List.append_eq_nil_iff.1 hdeeds.symm with
  | intro _ hassign => cases hassign

theorem assignsOwned_cons {k : ℕ} {p : Past} {deed : Deed} {deeds : List Deed} :
    AssignsOwned k p (deed :: deeds) ↔
      (∀ name n a, deed = .assign k name n → p.caches.handles[n]? = some a → p.Owns a) ∧
      AssignsOwned k (deed.step p) deeds := by
  constructor
  · refine fun h => ⟨?_, fun before name n later a hdeeds hn => ?_⟩
    · rintro name n a rfl hn
      exact h [] name n deeds a rfl hn
    · exact h (deed :: before) name n later a (by rw [hdeeds]; rfl) hn
  · rintro ⟨hfirst, hrest⟩ (_ | ⟨first, before⟩) name n later a hdeeds hn
    · obtain ⟨rfl, -⟩ := List.cons.inj hdeeds
      exact hfirst name n a rfl hn
    · obtain ⟨rfl, rfl⟩ := List.cons.inj hdeeds
      exact hrest before name n later a rfl hn

def storeAt (p : Past) (k : ℕ) : Store := p.stores[k]?.getD .empty

variable {p : Past} {E : Set Str} {k l : ℕ} {s t : Store} {log : List SourceUse}

theorem storeAt_of_some (hs : p.stores[k]? = some s) : p.storeAt k = s := by
  rw [storeAt, hs]
  rfl

theorem storeAt_openStore (p : Past) (k : ℕ) : (Deed.openStore.step p).storeAt k = p.storeAt k := by
  rw [storeAt, storeAt, Deed.step, List.getElem?_append]
  split
  · rfl
  · rename_i hk
    rw [List.getElem?_eq_none (Nat.not_lt.1 hk)]
    cases k - p.stores.length <;> rfl

theorem logged_set (h : (p.storeAt k).Logged log) (hs : p.stores[l]? = some s)
    (ht : t.programs = s.programs) : ((p.stores.set l t)[k]?.getD .empty).Logged log := by
  by_cases hl : l = k
  · subst hl
    obtain ⟨hlt, -⟩ := List.getElem?_eq_some_iff.1 hs
    rw [List.getElem?_set_self hlt]
    rw [storeAt_of_some hs] at h
    exact h.of_programs ht
  · rw [List.getElem?_set_ne hl]
    exact h

namespace Tracks

theorem logged_execute (h : p.Tracks k E) (n : ℕ) (around : Surroundings) (console : Console)
    (fuel : ℕ) (hl : ((Deed.execute n around console fuel).step p).caches.supply.TagsLeft)
    (hlog : (p.storeAt k).Logged log) : (((Deed.execute n around console fuel).step p).storeAt k).Logged
      (log ++ (Deed.execute n around console fuel).sourceUses k p) := by
  cases hn : p.program? n with
  | none =>
    simp only [Deed.step, Deed.sourceUses, hn, List.append_nil]
    exact hlog
  | some found =>
    obtain ⟨l, s, q⟩ := found
    simp only [Deed.sourceUses, hn]
    obtain ⟨E₁, g, w, h₁, hg, hopen, hleft⟩ := h.exists_opening hn around console fuel hl
    obtain ⟨-, hs⟩ := getElem?_of_program? hn
    rw [step_execute hn, storeAt, stores_handOut]
    change ((p.share.stores.set l _)[k]?.getD .empty).Logged _
    rw [stores_share]
    by_cases hk : l = k
    · subst hk
      obtain ⟨hlt, -⟩ := List.getElem?_eq_some_iff.1 hs
      rw [List.getElem?_set_self hlt, if_pos rfl]
      rw [storeAt_of_some hs] at hlog
      exact Machine.logged_advance rfl (h₁.sound.hosts hg).options fuel hopen hleft hlog
    · rw [List.getElem?_set_ne hk, if_neg hk, List.append_nil]
      exact hlog

theorem logged_step (h : p.Tracks k E) (deed : Deed) (hl : (deed.step p).caches.supply.TagsLeft)
    (hlog : (p.storeAt k).Logged log) :
    ((deed.step p).storeAt k).Logged (log ++ deed.sourceUses k p) := by
  have same (hlog : ((deed.step p).storeAt k).Logged log) (hu : deed.sourceUses k p = []) :
      ((deed.step p).storeAt k).Logged (log ++ deed.sourceUses k p) := by
    rwa [hu, List.append_nil]
  cases deed with
  | use u => exact same hlog rfl
  | share =>
    refine same ?_ rfl
    rw [storeAt, Deed.step, stores_share]
    exact hlog
  | openStore =>
    refine same ?_ rfl
    rwa [storeAt_openStore]
  | assign l name n =>
    refine same ?_ rfl
    simp only [Deed.step]
    split
    · rename_i s a hs ha
      refine logged_set hlog hs ?_
      rw [Store.assign_eq, Store.write_eq]
      exact (s.lookup_widens name).programs
    · exact hlog
  | parse l source =>
    refine same ?_ rfl
    cases hs : p.stores[l]? with
    | none =>
      simp only [Deed.step, hs]
      exact hlog
    | some s =>
      rw [step_parse hs, storeAt, stores_keep]
      change ((p.share.stores.set l _)[k]?.getD .empty).Logged _
      rw [stores_share]
      exact logged_set hlog hs (Program.widens_parse source (p.share.workspace s)).programs
  | execute n around console fuel => exact h.logged_execute n around console fuel hl hlog

theorem logged_foldl (h : p.Tracks k E) (deeds : List Deed)
    (hl : (deeds.foldl Deed.step p).caches.supply.TagsLeft) (ha : AssignsOwned k p deeds)
    (hlog : (p.storeAt k).Logged log) : (∃ E', (deeds.foldl Deed.step p).Tracks k E') ∧
      ((deeds.foldl Deed.step p).storeAt k).Logged (log ++ sourceUses k p deeds) := by
  induction deeds generalizing p E log with
  | nil =>
    rw [sourceUses, List.append_nil]
    exact ⟨⟨E, h⟩, hlog⟩
  | cons deed deeds ih =>
    -- tags that are left at the end were left after each deed
    obtain ⟨F, hF⟩ := h.sound.step deed
    have htags := hF.tagsLeft_of_foldl deeds hl
    obtain ⟨hassign, hrest⟩ := assignsOwned_cons.1 ha
    obtain ⟨E', h'⟩ := h.step deed htags hassign
    rw [sourceUses, ← List.append_assoc]
    exact ih h' hl hrest (h.logged_step deed htags hlog)

end Tracks

theorem tracks_empty (k : ℕ) : Tracks {} k ∅ := ⟨sound_empty, nofun, nofun⟩

theorem Owns.eq {a b : Str} (ha : p.Owns a) (hb : p.Owns b) (htext : a.text = b.text)
    (hshort : a.text.utf8ByteSize ≤ 32) : a = b := by
  obtain ⟨g, c, hg, hc, hpool⟩ := ha hshort
  obtain ⟨g', c', hg', hc', hpool'⟩ := hb (htext ▸ hshort)
  obtain rfl := Option.some.inj (hg.symm.trans hg')
  obtain rfl := Option.some.inj (hc.symm.trans hc')
  rw [htext] at hpool
  exact Option.some.inj (hpool.symm.trans hpool')

end Past

def Store.shortPrograms (s : Store) : List (ℕ × Str × Program) :=
  s.programs.toList.filter fun e => e.2.1.text.utf8ByteSize ≤ 32

def SourceUse.parsedTexts (log : List SourceUse) : List String :=
  (log.filter fun e => e.found = .parsed ∧ e.text.utf8ByteSize ≤ 32).map SourceUse.text

namespace Store

theorem mem_shortPrograms {s : Store} {e : ℕ × Str × Program} :
    e ∈ s.shortPrograms ↔ s.programs[e.1]? = some e.2 ∧ e.2.1.text.utf8ByteSize ≤ 32 := by
  rw [shortPrograms, List.mem_filter, TreeMap.mem_toList_iff_getElem?_eq_some, decide_eq_true_iff]

theorem nodup_shortPrograms (s : Store) : s.shortPrograms.Nodup := by
  refine List.Nodup.filter _ (TreeMap.distinct_keys_toList.imp ?_)
  rintro e e' hne rfl
  exact hne Std.ReflCmp.compare_self

end Store

theorem SourceUse.mem_parsedTexts {log : List SourceUse} {text : String} :
    text ∈ parsedTexts log ↔ ⟨text, .parsed⟩ ∈ log ∧ text.utf8ByteSize ≤ 32 := by
  simp only [parsedTexts, List.mem_map, List.mem_filter, decide_eq_true_iff]
  constructor
  · rintro ⟨⟨text, found⟩, ⟨he, rfl, hshort⟩, rfl⟩
    exact ⟨he, hshort⟩
  · rintro ⟨he, hshort⟩
    exact ⟨_, ⟨he, rfl, hshort⟩, rfl⟩

namespace Past

variable {p : Past} {E : Set Str} {k : ℕ} {s : Store} {log : List SourceUse}

theorem Tracks.eq_of_text (h : p.Tracks k E) (hs : p.stores[k]? = some s) {e e' : ℕ × Str × Program}
    (he : e ∈ s.shortPrograms) (he' : e' ∈ s.shortPrograms) (htext : e.2.1.text = e'.2.1.text) :
    e = e' := by
  obtain ⟨he, hshort⟩ := Store.mem_shortPrograms.1 he
  obtain ⟨he', -⟩ := Store.mem_shortPrograms.1 he'
  obtain ⟨q, ⟨-, -, howns⟩, hkey, -⟩ := (h.store hs).program he
  obtain ⟨q', ⟨-, -, howns'⟩, hkey', -⟩ := (h.store hs).program he'
  have hsource : e.2.1 = e'.2.1 := howns.eq howns' htext hshort
  have hfst : e.1 = e'.1 := by rw [← hkey, ← hkey', hsource]
  rw [hfst] at he
  exact Prod.ext hfst (Option.some.inj (he.symm.trans he'))

theorem Tracks.length_shortPrograms (h : p.Tracks k E) (hs : p.stores[k]? = some s)
    (hlog : s.Logged log) :
    s.shortPrograms.length = (SourceUse.parsedTexts log).dedup.length := by
  have hnodup : (s.shortPrograms.map fun e => e.2.1.text).Nodup :=
    List.Nodup.map_on (fun e he e' he' => h.eq_of_text hs he he') s.nodup_shortPrograms
  rw [← List.length_map (fun e : ℕ × Str × Program => e.2.1.text)]
  refine ((List.perm_ext_iff_of_nodup hnodup (List.nodup_dedup _)).2 fun text => ?_).length_eq
  rw [List.mem_dedup, SourceUse.mem_parsedTexts, List.mem_map]
  constructor
  · rintro ⟨e, he, rfl⟩
    obtain ⟨he, hshort⟩ := Store.mem_shortPrograms.1 he
    exact ⟨(hlog.parsed_iff hshort).2 ⟨_, _, he, rfl⟩, hshort⟩
  · rintro ⟨hmem, hshort⟩
    obtain ⟨key, e, he, rfl⟩ := (hlog.parsed_iff hshort).1 hmem
    exact ⟨(key, e), Store.mem_shortPrograms.2 ⟨he, hshort⟩, rfl⟩

/-- In a process that has tags left, and for a store to which no string was assigned from outside that
the shared cache does not own: of the texts that were evaluated on it, one of at most 32 bytes was found
when it had been parsed before, and only then; it was parsed if it begins with a program, and once at
most; the programs with such texts are as many as such texts were parsed; and a text that was found to be
wrong begins with no program and has none in the store. -/
theorem short_sources_are_parsed_once (deeds : List Deed) {store : Store}
    (hk : (run deeds).stores[k]? = some store) (hl : (run deeds).caches.supply.TagsLeft)
    (ha : AssignsOwned k {} deeds) :
    let log := sourceUses k {} deeds
    (∀ n e, log[n]? = some e → e.text.utf8ByteSize ≤ 32 →
      (e.found = .known ↔ ⟨e.text, .parsed⟩ ∈ log.take n)) ∧
    (∀ e ∈ log, e.text.utf8ByteSize ≤ 32 → Program.Parses e.text → ⟨e.text, .parsed⟩ ∈ log) ∧
    (∀ text, text.utf8ByteSize ≤ 32 → log.count ⟨text, .parsed⟩ ≤ 1) ∧
    store.shortPrograms.length = (SourceUse.parsedTexts log).dedup.length ∧
    ∀ e ∈ log, e.found = .wrong → ¬ Program.Parses e.text ∧
      ∀ (key : ℕ) entry, store.programs[key]? = some entry → entry.1.text ≠ e.text := by
  intro log
  obtain ⟨⟨E, hE⟩, hlog⟩ := (tracks_empty k).logged_foldl deeds hl ha Store.logged_empty
  change ((run deeds).storeAt k).Logged log at hlog
  rw [storeAt_of_some hk] at hlog
  refine ⟨fun n e => hlog.known_iff, fun e => hlog.parsed_mem_of_parses, fun text => hlog.count_le_one,
    hE.length_shortPrograms hk hlog, ?_⟩
  intro e he hwrong
  have hnone := hlog.wrong he hwrong
  refine ⟨hnone, ?_⟩
  intro key entry hentry htext
  obtain ⟨ls, rest, q, hscan, hbegins, -⟩ :=
    (invariant_rereadable.holds_run deeds).1 store (List.mem_of_getElem? hk) key entry hentry
  rw [htext] at hscan
  exact hnone ⟨ls, rest, q, hscan, hbegins⟩

theorem short_sources_are_parsed_once_sum :
    let around : Surroundings := ⟨fun _ => 0, fun _ _ files => ((.exited 0, []), files)⟩
    let deeds : List Deed := [.share, .openStore, .use (.ask 0 (.text "+ 1 1")), .assign 0 "a" 0,
      .parse 0 "; EVAL a ; EVAL \"+ 1 1\" EVAL + \"+ 1\" \" 1\"", .execute 0 around {} 40]
    sourceUses 0 {} deeds = [⟨"+ 1 1", .parsed⟩, ⟨"+ 1 1", .known⟩, ⟨"+ 1 1", .known⟩] ∧
      (run deeds).caches.supply.TagsLeft ∧ AssignsOwned 0 {} deeds ∧
      ∃ store, (run deeds).stores[0]? = some store ∧ store.shortPrograms.length = 1 := by
  intro around deeds
  obtain ⟨hlog, hl⟩ : sourceUses 0 {} deeds =
      [⟨"+ 1 1", .parsed⟩, ⟨"+ 1 1", .known⟩, ⟨"+ 1 1", .known⟩] ∧
      (run deeds).caches.supply.TagsLeft := by decide +kernel
  have ha : AssignsOwned 0 {} deeds := by
    have howns : ∀ a, (run (deeds.take 3)).caches.handles[0]? = some a →
        (run (deeds.take 3)).Owns a := by
      rintro a ha -
      have hpool : (run (deeds.take 3)).caches.members[0]?.bind (·.pool.strings["+ 1 1"]?) =
          (run (deeds.take 3)).caches.handles[0]? := by decide +kernel
      have htext : a.text = "+ 1 1" := by
        cases ha
        rfl
      obtain ⟨c, hc, hown⟩ := Option.bind_eq_some_iff.1 (hpool.trans ha)
      rw [← htext] at hown
      exact ⟨0, c, rfl, hc, hown⟩
    iterate 3 refine assignsOwned_cons.2 ⟨nofun, ?_⟩
    refine assignsOwned_cons.2 ⟨?_, ?_⟩
    · rintro name n a hassign hn
      cases hassign
      exact howns a hn
    iterate 2 refine assignsOwned_cons.2 ⟨nofun, ?_⟩
    exact assignsOwned_nil _ _
  obtain ⟨store, hk, -⟩ :=
    preserved_foldl (p := run (deeds.take 2)) (k := 0) (s := .empty) rfl (deeds.drop 2)
  have hrun : (deeds.drop 2).foldl Deed.step (run (deeds.take 2)) = run deeds := by
    rw [run, ← List.foldl_append, List.take_append_drop]
    rfl
  rw [hrun] at hk
  obtain ⟨-, -, -, hcount, -⟩ := short_sources_are_parsed_once deeds hk hl ha
  refine ⟨hlog, hl, ha, store, hk, ?_⟩
  rw [hcount, hlog]
  decide +kernel

end Past

end KnightLang
