import KnightLang.Proofs.Execution.Reaching
import KnightLang.Proofs.Lockstep.Growing

namespace KnightLang

namespace Past

def Owns (p : Past) (a : Str) : Prop :=
  a.text.utf8ByteSize ≤ 32 → ∃ g c, p.shared? = some g ∧ p.caches.members[g]? = some c ∧
    c.pool.strings[a.text]? = some a

def kept (p : Past) (E : Set Str) : Pairing := .diagonal {a | a ∈ E ∧ p.Owns a}

/-- The `k`-th store, and the programs for it, hold strings that the shared cache owns, and no others. -/
structure Tracks (p : Past) (k : ℕ) (E : Set Str) : Prop where
  sound : p.Sound E
  store {s : Store} : p.stores[k]? = some s → s.Matches 0 (p.kept E) s
  program {q : Program} : (k, q) ∈ p.programs → q.Matches 0 (p.kept E) q

variable {p r : Past} {E E' : Set Str} {g k l : ℕ}

theorem Sound.owns_iff (h : p.Sound E) (hg : p.shared? = some g) {a : Str} :
    p.Owns a ↔ p.strings.Owns a := by
  obtain ⟨c, hc, ho, hs⟩ := h.strings_eq hg
  have hmax : p.strings.cache.options.maxLength = 32 := by rw [hs, ho]
  rw [Interner.Owns, hmax, hs]
  constructor
  · intro ha hshort
    obtain ⟨g', c', hg', hc', hpool⟩ := ha hshort
    obtain rfl := Option.some.inj (hg.symm.trans hg')
    obtain rfl := Option.some.inj (hc.symm.trans hc')
    exact hpool
  · intro ha hshort
    exact ⟨g, c, hg, hc, ha hshort⟩

theorem Sound.kept_eq (h : p.Sound E) (hg : p.shared? = some g) :
    p.kept E = p.strings.kept E True := by
  simp only [kept, Interner.kept, h.owns_iff hg, true_imp_iff]

theorem Owns.evolve {a : Str} (ha : p.Owns a) (hc : p.caches.Evolves E r.caches E')
    (hg : ∀ g, p.shared? = some g → r.shared? = some g) : r.Owns a := by
  intro hshort
  obtain ⟨g, c, hg', hc', hpool⟩ := ha hshort
  obtain ⟨d, hd, -, hgrow, -⟩ := hc.member hc'
  exact ⟨g, d, hg g hg', hd, hgrow hpool⟩

theorem kept_evolve (hc : p.caches.Evolves E r.caches E')
    (hg : ∀ g, p.shared? = some g → r.shared? = some g) : p.kept E ≤ r.kept E' :=
  Pairing.diagonal_mono fun _ ha => ⟨hc.subset ha.1, ha.2.evolve hc hg⟩

theorem shared?_share_of_some (hg : p.shared? = some g) : p.share.shared? = some g := by
  simp only [share, hg]

namespace Tracks

theorem evolve (h : p.Tracks k E) {caches : Caches} (hc : p.caches.Evolves E caches E') :
    { p with caches := caches }.Tracks k E' where
  sound := h.sound.evolve hc
  store hs := (h.store hs).mono (kept_evolve (r := { p with caches := caches }) hc fun _ => id)
  program hq := Node.Matches.mono (kept_evolve (r := { p with caches := caches }) hc fun _ => id)
    (h.program hq)

theorem share (h : p.Tracks k E) : ∃ E', p.share.Tracks k E' := by
  obtain ⟨E', hc, hsound⟩ := h.sound.share_evolves
  have hkept : p.kept E ≤ p.share.kept E' := kept_evolve hc fun _ => shared?_share_of_some
  refine ⟨E', hsound, fun hs => ?_, fun hq => ?_⟩
  · rw [stores_share] at hs
    exact (h.store hs).mono hkept
  · rw [programs_share] at hq
    exact Node.Matches.mono hkept (h.program hq)

theorem openStore (h : p.Tracks k E) : (Deed.openStore.step p).Tracks k E where
  sound := h.sound.openStore
  store hs := by
    rcases Caches.getElem?_append_one hs with ⟨-, rfl⟩ | hs
    · exact matches_empty
    · exact h.store hs
  program := h.program

theorem store_set (h : p.Tracks k E) {s t : Store} (ht : l = k → t.Matches 0 (p.kept E) t)
    (hs : (p.stores.set l t)[k]? = some s) : s.Matches 0 (p.kept E) s := by
  by_cases hl : l = k
  · subst hl
    rw [List.getElem?_set] at hs
    simp only [if_true] at hs
    split at hs
    · obtain rfl := Option.some.inj hs
      exact ht rfl
    · cases hs
  · rw [List.getElem?_set_ne hl] at hs
    exact h.store hs

theorem assign (h : p.Tracks k E) (l : ℕ) (name : String) (n : ℕ)
    (ha : ∀ a, l = k → p.caches.handles[n]? = some a → p.Owns a) :
    ((Deed.assign l name n).step p).Tracks k E := by
  have hsound := h.sound.assign l name n
  simp only [Deed.step] at hsound ⊢
  split
  · rename_i s a hs hn
    simp only [hs, hn] at hsound
    refine ⟨hsound, fun ht => h.store_set (fun hl => ?_) ht, h.program⟩
    subst hl
    have hkept : p.kept E a a := ⟨rfl, h.sound.caches.handles (List.mem_of_getElem? hn), ha a rfl hn⟩
    exact (h.store hs).assign name (.str hkept)
  · exact h

theorem diagonal_le_kept (i : Interner) (hl : l ≠ k) : .diagonal E ≤ i.kept E (l = k) :=
  Pairing.diagonal_mono fun _ ha => ⟨ha, fun hk => absurd hk hl⟩

section

variable (h : p.Tracks k E) (hg : p.shared? = some g)
include h hg

theorem kept_eq (hl : l = k) : p.kept E = p.strings.kept E (l = k) := by
  rw [h.sound.kept_eq hg]
  simp only [hl]

theorem matches_store {s : Store} (hs : p.stores[l]? = some s) :
    s.Matches 0 (p.strings.kept E (l = k)) s := by
  by_cases hl : l = k
  · rw [← h.kept_eq hg hl]
    subst hl
    exact h.store hs
  · exact (h.sound.store_get hs).mono (diagonal_le_kept _ hl)

theorem matches_program {q : Program} (hq : (l, q) ∈ p.programs) :
    q.Matches 0 (p.strings.kept E (l = k)) q := by
  by_cases hl : l = k
  · rw [← h.kept_eq hg hl]
    subst hl
    exact h.program hq
  · exact Node.Matches.mono (diagonal_le_kept _ hl) (h.sound.program hq)

theorem alike {s : Store} (hs : p.stores[l]? = some s) : (p.workspace s).Alike
    (.growing p.strings E (l = k)) 0 (p.strings.kept E (l = k)) (p.workspace s) where
  strings := ⟨rfl, E, .refl (h.sound.hosts hg).interner, le_rfl⟩
  store := h.matches_store hg hs
  nextNode := (Int.add_zero _).symm

theorem leave {w : Pairing} {ws : Workspace}
    (hws : ws.Alike (.growing p.strings E (l = k)) 0 w ws) : ∃ E', (p.leave l ws).Tracks k E' ∧
      w ≤ .diagonal E' ∧ (l = k → w ≤ (p.leave l ws).kept E') := by
  obtain ⟨-, E', hev, hw⟩ := hws.strings
  obtain ⟨c, hc, -, hs⟩ := h.sound.strings_eq hg
  have hleave : (p.leave l ws).caches = p.caches.put g ws.strings := by simp only [Past.leave, hg]
  have hcaches : p.caches.Evolves E (p.leave l ws).caches E' := by
    rw [hs] at hev
    rw [hleave]
    exact h.sound.caches.put_evolves hc hev
  have hput := h.evolve hcaches
  have hg' : (p.leave l ws).shared? = some g := hg
  have hdiag : w ≤ .diagonal E' := hw.trans (Interner.kept_le _ _ _)
  have hsound : (p.leave l ws).Sound E' :=
    { hput.sound with
      store := fun ht => by
        rcases List.mem_or_eq_of_mem_set ht with ht | rfl
        · exact hput.sound.store ht
        · exact hws.store.mono hdiag }
  -- ownership is measured by the cache that the workspace has come to
  have hstrings : (p.leave l ws).strings = ws.strings := by
    obtain ⟨d, hd, -, hs'⟩ := hsound.strings_eq hg'
    rw [hleave] at hd hs'
    rw [hs', Option.some.inj (hd.symm.trans (Caches.getElem?_put_self hc))]
    rfl
  have hkept : l = k → w ≤ (p.leave l ws).kept E' := by
    intro hl
    rw [hsound.kept_eq hg', hstrings]
    simpa only [hl] using hw
  refine ⟨E', ⟨hsound, fun ht => ?_, hput.program⟩, hdiag, hkept⟩
  exact hput.store_set (fun hl => hws.store.mono (hkept hl)) ht

theorem opening {q : Program} {s : Store} (hq : (l, q) ∈ p.programs) (hs : p.stores[l]? = some s)
    (console : Console) (hl : l = k → (supply (State.warmed ⟨p.workspace s, console⟩)).TagsLeft) :
    ∃ w, (q.opening ⟨p.workspace s, console⟩).Alike (.growing p.strings E (l = k)) 0 w
      (q.opening ⟨p.workspace s, console⟩) := by
  obtain ⟨w, hw, hwarm⟩ := State.warmed_alike Link.lawful_growing (s := ⟨_, console⟩)
    (t := ⟨_, console⟩) ⟨h.alike hg hs, rfl⟩ hl hl
  exact ⟨w, .node (Node.Matches.mono hw (h.matches_program hg hq)), .nil, hwarm⟩

end

theorem keep (h : p.Tracks k E) {parsed : Except CompileError Program}
    (hdiag : Results (Program.Matches 0) (.diagonal E) parsed parsed)
    (hkept : l = k → Results (Program.Matches 0) (p.kept E) parsed parsed) :
    (p.keep l parsed).Tracks k E := by
  have hsound := h.sound.keep hdiag l
  cases parsed with
  | error e => exact h
  | ok q =>
    refine ⟨hsound, h.store, fun hr => ?_⟩
    rcases List.mem_append.1 hr with hr | hr
    · exact h.program hr
    · obtain ⟨rfl, rfl⟩ := Prod.mk.inj (List.mem_singleton.1 hr)
      cases hkept rfl with
      | ok hq => exact hq

theorem handOut (h : p.Tracks k E) {result : Option (Except Stop Value)}
    (hr : Options (Results (Value.Matches 0)) (.diagonal E) result result) :
    (p.handOut result).Tracks k E := by
  have hsound := h.sound.handOut hr
  unfold Past.handOut at hsound ⊢
  split
  · exact ⟨hsound, h.store, h.program⟩
  · exact h

end Tracks

theorem step_parse {s : Store} (hs : p.stores[l]? = some s) (source : String) :
    (Deed.parse l source).step p =
      (p.share.leave l (Program.parse source (p.share.workspace s)).2).keep l
        (Program.parse source (p.share.workspace s)).1 := by
  simp only [Deed.step, hs]
  rfl

theorem step_execute {n : ℕ} {s : Store} {q : Program} (hn : p.program? n = some (l, s, q))
    (around : Surroundings) (console : Console) (fuel : ℕ) :
    (Deed.execute n around console fuel).step p =
      (p.share.leave l (q.advance around fuel ⟨p.share.workspace s, console⟩).2.workspace).handOut
        (q.advance around fuel ⟨p.share.workspace s, console⟩).1 := by
  simp only [Deed.step, hn]

theorem supply_leave (hg : p.shared? = some g) (l : ℕ) (ws : Workspace) :
    (p.leave l ws).caches.supply = ws.strings.supply := by
  simp only [leave, hg]
  rfl

theorem supply_keep (p : Past) (l : ℕ) (parsed : Except CompileError Program) :
    (p.keep l parsed).caches.supply = p.caches.supply := by
  cases parsed <;> rfl

theorem supply_handOut (p : Past) (result : Option (Except Stop Value)) :
    (p.handOut result).caches.supply = p.caches.supply := by
  unfold handOut
  split <;> rfl

namespace Tracks

theorem parse (h : p.Tracks k E) (l : ℕ) (source : String)
    (hl : ((Deed.parse l source).step p).caches.supply.TagsLeft) :
    ∃ E', ((Deed.parse l source).step p).Tracks k E' := by
  cases hs : p.stores[l]? with
  | none =>
    simp only [Deed.step, hs]
    exact ⟨E, h⟩
  | some s =>
    rw [step_parse hs] at hl ⊢
    obtain ⟨E₁, h₁⟩ := h.share
    obtain ⟨g, hg⟩ := p.exists_shared?_share
    rw [supply_keep, supply_leave hg] at hl
    rw [← stores_share] at hs
    obtain ⟨w, -, hws, hr⟩ := Program.sim_parse Link.lawful_growing source le_rfl (h₁.alike hg hs)
      (fun _ => hl) fun _ => hl
    obtain ⟨E₂, h₂, hdiag, hkept⟩ := h₁.leave hg hws
    exact ⟨E₂, h₂.keep (lasting_program.results hdiag hr)
      fun hk => lasting_program.results (hkept hk) hr⟩

theorem exists_opening (h : p.Tracks k E) {n : ℕ} {s : Store} {q : Program}
    (hn : p.program? n = some (l, s, q)) (around : Surroundings) (console : Console) (fuel : ℕ)
    (hl : ((Deed.execute n around console fuel).step p).caches.supply.TagsLeft) :
    ∃ E' g w, p.share.Tracks k E' ∧ p.share.shared? = some g ∧
      (q.opening ⟨p.share.workspace s, console⟩).Alike (.growing p.share.strings E' (l = k)) 0 w
        (q.opening ⟨p.share.workspace s, console⟩) ∧
      (supply (q.advance around fuel ⟨p.share.workspace s, console⟩).2).TagsLeft := by
  obtain ⟨E', h'⟩ := h.share
  obtain ⟨g, hg⟩ := p.exists_shared?_share
  obtain ⟨hq, hs⟩ := getElem?_of_program? hn
  rw [step_execute hn, supply_handOut, supply_leave hg] at hl
  rw [← programs_share] at hq
  rw [← stores_share] at hs
  have hwarm := hl.of_le (q.warmed_le_advance around fuel ⟨p.share.workspace s, console⟩)
  obtain ⟨w, hopen⟩ := h'.opening hg (List.mem_of_getElem? hq) hs console fun _ => hwarm
  exact ⟨E', g, w, h', hg, hopen, hl⟩

theorem execute (h : p.Tracks k E) (n : ℕ) (around : Surroundings) (console : Console) (fuel : ℕ)
    (hl : ((Deed.execute n around console fuel).step p).caches.supply.TagsLeft) :
    ∃ E', ((Deed.execute n around console fuel).step p).Tracks k E' := by
  cases hn : p.program? n with
  | none =>
    simp only [Deed.step, hn]
    exact ⟨E, h⟩
  | some found =>
    obtain ⟨l, s, q⟩ := found
    obtain ⟨E₁, g, w, h₁, hg, hopen, hleft⟩ := h.exists_opening hn around console fuel hl
    obtain ⟨w', -, hend, hr⟩ := Machine.advance_alike Link.lawful_growing around fuel hopen
      (fun _ => hleft) fun _ => hleft
    obtain ⟨E₂, h₂, hdiag, -⟩ := h₁.leave hg hend.workspace
    rw [step_execute hn]
    exact ⟨E₂, h₂.handOut (lasting_value.results.options hdiag hr)⟩

theorem step (h : p.Tracks k E) (deed : Deed) (hl : (deed.step p).caches.supply.TagsLeft)
    (ha : ∀ name n a, deed = .assign k name n → p.caches.handles[n]? = some a → p.Owns a) :
    ∃ E', (deed.step p).Tracks k E' := by
  cases deed with
  | use u =>
    obtain ⟨E', hu⟩ := h.sound.caches.step u
    exact ⟨E', h.evolve hu⟩
  | share => exact h.share
  | openStore => exact ⟨E, h.openStore⟩
  | assign l name n =>
    refine ⟨E, h.assign l name n fun a hlk => ?_⟩
    subst hlk
    exact ha name n a rfl
  | parse l source => exact h.parse l source hl
  | execute n around console fuel => exact h.execute n around console fuel hl

end Tracks

theorem Sound.tagsLeft_of_share (h : p.Sound E) (hl : p.share.caches.supply.TagsLeft) :
    p.caches.supply.TagsLeft := by
  obtain ⟨E', hc, -⟩ := h.share_evolves
  exact hc.tagsLeft hl

theorem Sound.tagsLeft_of_step (h : p.Sound E) (deed : Deed)
    (hl : (deed.step p).caches.supply.TagsLeft) : p.caches.supply.TagsLeft := by
  -- What was left when a store was worked on was left when its program began.
  have worked (l : ℕ) {s : Store} {ws : Workspace}
      (hle : (supply (p.share.workspace s)).nextTag.toNat ≤ ws.strings.supply.nextTag.toNat)
      (hl : (p.share.leave l ws).caches.supply.TagsLeft) : p.caches.supply.TagsLeft := by
    obtain ⟨E₁, h₁⟩ := h.share
    obtain ⟨g, hg⟩ := p.exists_shared?_share
    obtain ⟨c, -, -, hs⟩ := h₁.strings_eq hg
    rw [supply_leave hg] at hl
    have hstart : p.share.strings.supply.TagsLeft := hl.of_le hle
    rw [hs] at hstart
    exact h.tagsLeft_of_share hstart
  cases deed with
  | use u =>
    obtain ⟨E', hu⟩ := h.caches.step u
    exact hu.tagsLeft hl
  | share => exact h.tagsLeft_of_share hl
  | openStore => exact hl
  | assign l name n =>
    simp only [Deed.step] at hl
    split at hl <;> exact hl
  | parse l source =>
    cases hs : p.stores[l]? with
    | none => simpa only [Deed.step, hs] using hl
    | some s =>
      rw [step_parse hs, supply_keep] at hl
      exact worked l (Spends.le (x := Program.parse source) _) hl
  | execute n around console fuel =>
    cases hn : p.program? n with
    | none => simpa only [Deed.step, hn] using hl
    | some found =>
      obtain ⟨l, s, q⟩ := found
      rw [step_execute hn, supply_handOut] at hl
      exact worked l ((State.le_warmed ⟨_, console⟩).trans (q.warmed_le_advance around fuel _)) hl

theorem Sound.tagsLeft_of_foldl (h : p.Sound E) (deeds : List Deed)
    (hl : (deeds.foldl Deed.step p).caches.supply.TagsLeft) : p.caches.supply.TagsLeft := by
  induction deeds generalizing p E with
  | nil => exact hl
  | cons deed deeds ih =>
    obtain ⟨E', h'⟩ := h.step deed
    exact h.tagsLeft_of_step deed (ih h' hl)

end Past

end KnightLang
