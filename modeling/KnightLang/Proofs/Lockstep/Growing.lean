import KnightLang.Proofs.Lockstep.Past

namespace KnightLang

def Interner.Owns (i : Interner) (a : Str) : Prop :=
  a.text.utf8ByteSize ≤ i.cache.options.maxLength → i.cache.pool.strings[a.text]? = some a

namespace Interner

variable {i j : Interner} {E : Set Str} {a b : Str}

theorem Owns.grow (h : i.Owns a) (hg : i.Grows j) : j.Owns a := by
  intro hshort
  rw [hg.options] at hshort
  exact hg.pool.strings (h hshort)

theorem Owns.eq (ha : i.Owns a) (hb : i.Owns b) (htext : a.text = b.text)
    (hshort : a.text.utf8ByteSize ≤ i.cache.options.maxLength) : a = b := by
  have hpool := hb (htext ▸ hshort)
  rw [← htext] at hpool
  exact Option.some.inj ((ha hshort).symm.trans hpool)

theorem Sound.owns_special (h : i.Sound E) (hl : i.supply.TagsLeft) (which : Cache.Special) :
    i.Owns (i.cache.special which) := by
  intro _
  have hp := h.cache.special which
  rw [hp.text_eq]
  exact hp.pooled (hp.tagged hl)

theorem Made.owns {key? : Option Cache.Key} {text : String} (h : i.Made key? text a j)
    (hl : j.supply.TagsLeft) : j.Owns a := by
  intro hshort
  rw [h.grows.options, h.text_eq] at hshort
  rw [h.text_eq]
  exact h.pooled ((h.tagged_iff hl).2 hshort)

end Interner

def Interner.kept (i : Interner) (E : Set Str) (only : Prop) : Pairing :=
  .diagonal {a | a ∈ E ∧ (only → i.Owns a)}

theorem Interner.kept_le (i : Interner) (E : Set Str) (only : Prop) : i.kept E only ≤ .diagonal E :=
  Pairing.diagonal_mono fun _ ha => ha.1

theorem Interner.Evolves.kept_le {i j : Interner} {E E' : Set Str} (h : i.Evolves E j E')
    (only : Prop) : i.kept E only ≤ j.kept E' only :=
  Pairing.diagonal_mono fun _ ha => ⟨h.subset ha.1, fun ho => (ha.2 ho).grow h.grows⟩

/-- The link of a cache with itself from when it was `i₀` and there were the strings `E₀`. Where `only`
holds it relates those strings alone that the cache owns. -/
def Link.growing (i₀ : Interner) (E₀ : Set Str) (only : Prop) : Link where
  strict := only
  like w i j := i = j ∧ ∃ E, i₀.Evolves E₀ i E ∧ w ≤ i.kept E only

namespace Link

variable {i₀ i : Interner} {E₀ E : Set Str} {only : Prop}

theorem growing_answer (h : i₀.Evolves E₀ i E) {r : Request Str} (hr : r.Within E)
    (hl : only → (r.answer i).2.supply.TagsLeft) : ∃ E', i₀.Evolves E₀ (r.answer i).2 E' ∧
      i.kept E only ≤ (r.answer i).2.kept E' only ∧
      ∀ a ∈ (r.answer i).1, (r.answer i).2.kept E' only a a := by
  have hout := Request.answer_outcome h.sound hr
  generalize r.answer i = x at hout hl ⊢
  obtain ⟨a?, j⟩ := x
  dsimp only at hout hl ⊢
  cases hout with
  | none => exact ⟨E, h, le_rfl, nofun⟩
  | @special which =>
    refine ⟨E, h, le_rfl, ?_⟩
    rintro a ⟨⟩
    exact ⟨rfl, (h.sound.cache.special which).mem, fun ho => h.sound.owns_special (hl ho) which⟩
  | @made text a j _ _ hm hj =>
    have hev := hm.evolves h.sound hj
    refine ⟨_, h.trans hev, hev.kept_le only, ?_⟩
    rintro b ⟨⟩
    exact ⟨rfl, Set.mem_insert _ _, fun ho => hm.owns (hl ho)⟩

theorem lawful_growing : (growing i₀ E₀ only).Lawful where
  faithful := by
    rintro w i j ⟨-, E, -, hw⟩
    exact Pairing.faithful_diagonal.anti hw
  options := by
    rintro w i j ⟨rfl, -⟩
    rfl
  answer {w r r'} d hr := by
    rintro w₁ i j hw ⟨rfl, E, hi, hE⟩ hl -
    have hr₁ := hr.mono (hw.trans (hE.trans (i.kept_le E only)))
    obtain rfl := hr₁.eq_of_le le_rfl
    obtain ⟨E', hj, hkept, ha⟩ := growing_answer hi (hr₁.within_of_le le_rfl) hl
    refine ⟨_, hE.trans hkept, ⟨rfl, E', hj, le_rfl⟩, ?_⟩
    cases h : (r.answer i).1 with
    | none => exact .none
    | some a => exact .some (ha a h)

end Link

end KnightLang
