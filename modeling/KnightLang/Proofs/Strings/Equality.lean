import KnightLang.Proofs.Strings.History
import KnightLang.Tree.Basic

namespace KnightLang

theorem Text.bytes_inj {s t : String} : Text.bytes s = Text.bytes t ↔ s = t := by
  constructor
  · intro h
    apply String.toByteArray_inj.1
    apply ByteArray.ext
    exact Array.toList_inj.1 h
  · rintro rfl; rfl

namespace Caches

namespace Sound

variable {s : Caches} {E : Set Str} {a b : Str}

theorem eq_of_tag? (h : s.Sound E) (ha : a ∈ E) (hb : b ∈ E) {tag : UInt32}
    (hat : a.tag? = some tag) (hbt : b.tag? = some tag) : a = b :=
  h.covers.identity ha hb (by rw [Str.identity_of_tag? hat, Str.identity_of_tag? hbt])

theorem eq_of_pool (h : s.Sound E) (ha : a ∈ E) (hb : b ∈ E) {tag tag' pool : UInt32}
    (hal : a.label = .interned tag pool) (hbl : b.label = .interned tag' pool)
    (ht : a.text = b.text) : a = b := by
  obtain ⟨k, c, hc, hp⟩ := h.owned ha (by simp [Str.tag?_of_interned hal])
  obtain ⟨l, d, hd, hq⟩ := h.owned hb (by simp [Str.tag?_of_interned hbl])
  have number {k : Nat} {c : Cache} {a : Str} {tag : UInt32} (hc : s.members[k]? = some c)
      (hp : c.pool.strings[a.text]? = some a) (hal : a.label = .interned tag pool) :
      c.pool.number = pool := by
    obtain ⟨-, -, tag', hl⟩ := (h.caches hc).pool hp
    exact ((Label.interned.inj (hl.symm.trans hal)).2)
  have hkl : k = l :=
    h.eq_of_number hc hd hp hq ((number hc hp hal).trans (number hd hq hbl).symm)
  subst hkl
  obtain rfl := Option.some.inj (hc.symm.trans hd)
  rw [ht] at hp
  exact Option.some.inj (hp.symm.trans hq)

theorem equal_iff (h : s.Sound E) (ha : a ∈ E) (hb : b ∈ E) :
    a.equal b = true ↔ a.text = b.text := by
  unfold Str.equal
  cases hal : a.label with
  | unique n => simp
  | interned tag pool =>
    cases hbl : b.label with
    | unique n => simp
    | interned tag' pool' =>
      by_cases ht : tag = tag'
      · subst ht
        obtain rfl := h.eq_of_tag? ha hb (Str.tag?_of_interned hal) (Str.tag?_of_interned hbl)
        simp
      · by_cases hp : pool = pool'
        · subst hp
          simp only [ht, if_false, if_true, Bool.false_eq_true, false_iff]
          intro htext
          obtain rfl := h.eq_of_pool ha hb hal hbl htext
          rw [hal] at hbl
          exact ht (Label.interned.inj hbl).1
        · simp [ht, hp]

theorem eq_of_same (h : s.Sound E) (ha : a ∈ E) (hb : b ∈ E) (hs : a.same b = true) : a = b :=
  h.covers.identity ha hb (by simpa [Str.same] using hs)

end Sound

def HasValue (s : Caches) : Value → Prop
  | .str a => s.Holds a
  | _ => True

theorem equivalence_equal {s : Caches}
    (hs : ∀ a b, s.Holds a → s.Holds b → (a.equal b = true ↔ a.text = b.text)) :
    Equivalence fun v w : { v // s.HasValue v } => v.1.equal w.1 = true where
  refl := by
    rintro ⟨v, hv⟩
    cases v with
    | str a => exact (hs a a hv hv).2 rfl
    | _ => simp [Value.equal]
  symm := by
    rintro ⟨v, hv⟩ ⟨w, hw⟩ h
    cases v <;> cases w <;> simp only [Value.equal, decide_eq_true_eq, Bool.false_eq_true] at h ⊢
    case str.str a b => exact (hs b a hw hv).2 ((hs a b hv hw).1 h).symm
    all_goals exact h.symm
  trans := by
    rintro ⟨v, hv⟩ ⟨w, hw⟩ ⟨u, hu⟩ h h'
    cases v <;> cases w <;> simp only [Value.equal, decide_eq_true_eq, Bool.false_eq_true] at h
    all_goals cases u <;> simp only [Value.equal, decide_eq_true_eq, Bool.false_eq_true] at h' ⊢
    case str.str.str a b c =>
      exact (hs a c hv hu).2 (((hs a b hv hw).1 h).trans ((hs b c hw hu).1 h'))
    all_goals exact h.trans h'

/-- Whatever caches there are and whatever they were asked for, strings are equal when their bytes
are, one instance is equal to itself, and equality of values is an equivalence. -/
theorem equal_iff_bytes_eq (uses : List Use) :
    (∀ a b, (run uses).Holds a → (run uses).Holds b →
      (a.equal b = true ↔ Text.bytes a.text = Text.bytes b.text) ∧
        (a.same b = true → a.equal b = true)) ∧
      Equivalence fun v w : { v // (run uses).HasValue v } => v.1.equal w.1 = true := by
  obtain ⟨E, h⟩ := sound_run uses
  have hiff : ∀ a b, (run uses).Holds a → (run uses).Holds b →
      (a.equal b = true ↔ a.text = b.text) :=
    fun a b ha hb => h.equal_iff (h.holds ha) (h.holds hb)
  refine ⟨?_, equivalence_equal hiff⟩
  intro a b ha hb
  rw [Text.bytes_inj]
  refine ⟨hiff a b ha hb, fun hs => ?_⟩
  rw [hiff a b ha hb, h.eq_of_same (h.holds ha) (h.holds hb) hs]

theorem equal_across_caches :
    let s := run [.create {}, .create {}, .ask 0 (.text "ab"), .ask 1 (.text "ab")]
    let a : Str := ⟨"ab", .interned 9 1⟩
    let b : Str := ⟨"ab", .interned 10 2⟩
    s.Holds a ∧ s.Holds b ∧ a.equal b = true ∧ a.same b = false := by
  intro s a b
  have ha : s.Holds a := .inl (by decide)
  have hb : s.Holds b := .inl (by decide)
  exact ⟨ha, hb, ((equal_iff_bytes_eq _).1 a b ha hb).1.2 rfl, rfl⟩

end Caches

end KnightLang
