import KnightLang.Strings.Cache
import Mathlib.Data.Set.Insert

/-!
Interning. The set of all handles made so far grows; among them an instance is one handle, and a pool
holds each of its handles under the text that it has.
-/
namespace KnightLang

open Std (TreeMap)

def Supply.TagsLeft (s : Supply) : Prop := s.nextTag ≠ 0xffffffff

instance (s : Supply) : Decidable s.TagsLeft := inferInstanceAs (Decidable (_ ≠ _))

theorem Supply.toNat_nextTag_add_one {s : Supply} (h : s.TagsLeft) :
    (s.nextTag + 1).toNat = s.nextTag.toNat + 1 := by
  have hn : s.nextTag.toNat ≠ 4294967295 := fun he => h (UInt32.toNat_inj.1 he)
  have hl := s.nextTag.toNat_lt
  rw [UInt32.toNat_add]
  change (s.nextTag.toNat + 1) % 2 ^ 32 = _
  omega

structure Supply.Covers (s : Supply) (E : Set Str) : Prop where
  identity {a b : Str} : a ∈ E → b ∈ E → a.identity = b.identity → a = b
  tag_lt {a : Str} {tag : UInt32} : a ∈ E → a.tag? = some tag → tag.toNat < s.nextTag.toNat
  address_lt {a : Str} {n : Nat} : a ∈ E → a.label = .unique n → n < s.nextAddress

namespace Str

theorem identity_of_tag? {a : Str} {tag : UInt32} (h : a.tag? = some tag) :
    a.identity = .tag tag := by
  unfold tag? at h
  unfold identity
  split at h <;> simp_all

theorem tag?_eq_none_iff {a : Str} : a.tag? = none ↔ ∃ n, a.label = .unique n := by
  unfold tag?
  cases a.label <;> simp

theorem identity_of_unique {a : Str} {n : Nat} (h : a.label = .unique n) :
    a.identity = .address n := by simp [identity, h]

theorem tag?_of_interned {a : Str} {tag pool : UInt32} (h : a.label = .interned tag pool) :
    a.tag? = some tag := by simp [tag?, h]

end Str

namespace Supply.Covers

variable {s : Supply} {E : Set Str}

theorem mono {t : Supply} (h : s.Covers E) (htag : s.nextTag.toNat ≤ t.nextTag.toNat)
    (haddress : s.nextAddress ≤ t.nextAddress) : t.Covers E where
  identity := h.identity
  tag_lt ha ht := (h.tag_lt ha ht).trans_le htag
  address_lt ha hn := (h.address_lt ha hn).trans_le haddress

theorem insert {a : Str} (h : s.Covers E) (hnew : ∀ b ∈ E, b.identity ≠ a.identity)
    (htag : ∀ tag, a.tag? = some tag → tag.toNat < s.nextTag.toNat)
    (haddress : ∀ n, a.label = .unique n → n < s.nextAddress) : s.Covers (insert a E) where
  identity := by
    rintro b c (rfl | hb) (rfl | hc) he
    · rfl
    · exact absurd he.symm (hnew c hc)
    · exact absurd he (hnew b hb)
    · exact h.identity hb hc he
  tag_lt := by
    rintro b tag (rfl | hb) ht
    · exact htag tag ht
    · exact h.tag_lt hb ht
  address_lt := by
    rintro b n (rfl | hb) hn
    · exact haddress n hn
    · exact h.address_lt hb hn

theorem identity_ne_nextTag (h : s.Covers E) {b : Str} (hb : b ∈ E) :
    b.identity ≠ .tag s.nextTag := by
  intro he
  cases hl : b.label with
  | interned tag pool =>
    have ht := Str.tag?_of_interned hl
    have hlt := h.tag_lt hb ht
    rw [Str.identity_of_tag? ht, Identity.tag.injEq] at he
    rw [he] at hlt
    exact absurd hlt (Nat.lt_irrefl _)
  | unique n => simp [Str.identity, hl] at he

theorem identity_ne_nextAddress (h : s.Covers E) {b : Str} (hb : b ∈ E) :
    b.identity ≠ .address s.nextAddress := by
  intro he
  cases hl : b.label with
  | interned tag pool => simp [Str.identity, hl] at he
  | unique n =>
    have hlt := h.address_lt hb hl
    rw [Str.identity_of_unique hl, Identity.address.injEq] at he
    exact absurd hlt (by omega)

theorem insert_unique (h : s.Covers E) (text : String) :
    Supply.Covers { s with nextAddress := s.nextAddress + 1 }
      (Insert.insert ⟨text, .unique s.nextAddress⟩ E) := by
  refine (h.mono (t := { s with nextAddress := s.nextAddress + 1 }) le_rfl (Nat.le_succ _)).insert
    (fun b hb => h.identity_ne_nextAddress hb) (by simp [Str.tag?]) ?_
  rintro n hn
  obtain rfl : s.nextAddress = n := by simpa using hn
  exact Nat.lt_succ_self _

end Supply.Covers

namespace Pool

/-- The three outcomes of interning: the text is there, it gets the next tag, or, when no tag is left, a
handle of its own. -/
inductive Interns (p : Pool) (s : Supply) (text : String) : Str → Pool → Supply → Prop
  | found {a : Str} (h : p.strings[text]? = some a) : Interns p s text a p s
  | tagged (new : p.strings[text]? = none) (left : s.TagsLeft) :
      Interns p s text ⟨text, .interned s.nextTag p.number⟩
        { p with strings := p.strings.insert text ⟨text, .interned s.nextTag p.number⟩ }
        { s with nextTag := s.nextTag + 1 }
  | refused (new : p.strings[text]? = none) (spent : ¬ s.TagsLeft) :
      Interns p s text ⟨text, .unique s.nextAddress⟩ p
        { s with nextAddress := s.nextAddress + 1 }

theorem intern_interns (text : String) (p : Pool) (s : Supply) :
    Interns p s text (p.intern text s).1 (p.intern text s).2.1 (p.intern text s).2.2 := by
  unfold intern
  cases hp : p.strings[text]? with
  | some a => exact .found hp
  | none =>
    simp only [Supply.takeTag]
    by_cases hl : s.nextTag = 0xffffffff
    · rw [if_pos hl]
      exact .refused hp (fun h => h hl)
    · rw [if_neg hl]
      exact .tagged hp hl

structure Grows (p : Pool) (s : Supply) (q : Pool) (t : Supply) : Prop where
  number : q.number = p.number
  nextPool : t.nextPool = s.nextPool
  nextTag : s.nextTag.toNat ≤ t.nextTag.toNat
  nextAddress : s.nextAddress ≤ t.nextAddress
  tagsLeft : t.TagsLeft → s.TagsLeft
  strings {text : String} {a : Str} : p.strings[text]? = some a → q.strings[text]? = some a
  spent : ¬ s.TagsLeft → q = p

theorem Grows.refl (p : Pool) (s : Supply) : p.Grows s p s where
  number := rfl
  nextPool := rfl
  nextTag := le_rfl
  nextAddress := le_rfl
  tagsLeft := id
  strings := id
  spent _ := rfl

theorem Grows.trans {p q r : Pool} {s t u : Supply} (h : p.Grows s q t) (h' : q.Grows t r u) :
    p.Grows s r u where
  number := h'.number.trans h.number
  nextPool := h'.nextPool.trans h.nextPool
  nextTag := h.nextTag.trans h'.nextTag
  nextAddress := h.nextAddress.trans h'.nextAddress
  tagsLeft := h.tagsLeft ∘ h'.tagsLeft
  strings hp := h'.strings (h.strings hp)
  spent hs := (h'.spent (hs ∘ h.tagsLeft)).trans (h.spent hs)

def Holds (p : Pool) (E : Set Str) : Prop :=
  ∀ ⦃text : String⦄ ⦃a : Str⦄, p.strings[text]? = some a →
    a ∈ E ∧ a.text = text ∧ ∃ tag, a.label = .interned tag p.number

/-- A handle that was interned under a text, or refused because no tag was left. -/
structure Placed (p : Pool) (s : Supply) (E : Set Str) (text : String) (a : Str) : Prop where
  mem : a ∈ E
  text_eq : a.text = text
  pooled : a.tag?.isSome → p.strings[text]? = some a
  tagged : s.TagsLeft → a.tag?.isSome

theorem Placed.mono {p q : Pool} {s t : Supply} {E E' : Set Str} {text : String} {a : Str}
    (h : p.Placed s E text a) (hE : E ⊆ E') (hg : p.Grows s q t) : q.Placed t E' text a where
  mem := hE h.mem
  text_eq := h.text_eq
  pooled ha := hg.strings (h.pooled ha)
  tagged hl := h.tagged (hg.tagsLeft hl)

namespace Interns

variable {p q : Pool} {s t : Supply} {text : String} {a : Str} {E : Set Str}

theorem grows (h : Interns p s text a q t) : p.Grows s q t := by
  cases h with
  | found => exact .refl p s
  | tagged new left =>
    have hnext := Supply.toNat_nextTag_add_one left
    refine { Grows.refl p s with
      nextTag := ?_, tagsLeft := fun _ => left, strings := ?_, spent := fun hs => absurd left hs }
    · change _ ≤ (s.nextTag + 1).toNat
      omega
    · intro text' b hb
      rw [TreeMap.getElem?_insert, if_neg]
      · exact hb
      · rw [Std.compare_eq_iff_eq]
        rintro rfl
        simp [new] at hb
  | refused => exact { Grows.refl p s with nextAddress := Nat.le_succ _ }

theorem pooled (h : Interns p s text a q t) (ha : a.tag?.isSome) : q.strings[text]? = some a := by
  cases h with
  | found hp => exact hp
  | tagged => exact TreeMap.getElem?_insert_self
  | refused => simp [Str.tag?] at ha

theorem text_eq (hp : p.Holds E) (h : Interns p s text a q t) : a.text = text := by
  cases h with
  | found hf => exact (hp hf).2.1
  | tagged => rfl
  | refused => rfl

theorem isSome_tag? (hp : p.Holds E) (h : Interns p s text a q t) (hl : t.TagsLeft) :
    a.tag?.isSome := by
  cases h with
  | found hf =>
    obtain ⟨-, -, tag, ht⟩ := hp hf
    simp [Str.tag?_of_interned ht]
  | tagged => rfl
  | refused new spent => exact absurd hl spent

theorem label_of_untagged (hp : p.Holds E) (h : Interns p s text a q t) (ha : a.tag? = none) :
    a.label = .unique s.nextAddress := by
  cases h with
  | found hf =>
    obtain ⟨-, -, tag, ht⟩ := hp hf
    simp [Str.tag?_of_interned ht] at ha
  | tagged => simp [Str.tag?] at ha
  | refused => rfl

theorem covers (hs : s.Covers E) (hp : p.Holds E) (h : Interns p s text a q t) :
    t.Covers (insert a E) := by
  have hgrows := h.grows
  cases h with
  | found hf => rwa [Set.insert_eq_of_mem (hp hf).1]
  | tagged new left =>
    refine (hs.mono hgrows.nextTag le_rfl).insert (fun b hb => hs.identity_ne_nextTag hb) ?_
      (by simp)
    rintro tag ht
    obtain rfl : s.nextTag = tag := by simpa [Str.tag?] using ht
    have hnext := Supply.toNat_nextTag_add_one left
    change _ < (s.nextTag + 1).toNat
    omega
  | refused => exact hs.insert_unique text

theorem placed (hp : p.Holds E) (h : Interns p s text a q t) : q.Placed t (insert a E) text a where
  mem := Set.mem_insert a E
  text_eq := h.text_eq hp
  pooled := h.pooled
  tagged := h.isSome_tag? hp

theorem holds (hp : p.Holds E) (h : Interns p s text a q t) : q.Holds (insert a E) := by
  intro text' b hb
  cases h with
  | found hf => exact ⟨Set.mem_insert_of_mem _ (hp hb).1, (hp hb).2⟩
  | tagged new left =>
    rw [TreeMap.getElem?_insert] at hb
    split at hb
    · rename_i he
      rw [Std.compare_eq_iff_eq] at he
      obtain rfl := Option.some.inj hb
      exact ⟨Set.mem_insert _ _, he, _, rfl⟩
    · exact ⟨Set.mem_insert_of_mem _ (hp hb).1, (hp hb).2⟩
  | refused => exact ⟨Set.mem_insert_of_mem _ (hp hb).1, (hp hb).2⟩

theorem took (h : Interns p s text a q t) (hnew : p.strings[text]? = none) (hl : s.TagsLeft) :
    s.nextTag.toNat + 1 ≤ t.nextTag.toNat := by
  cases h with
  | found hp => simp [hp] at hnew
  | tagged => exact (Supply.toNat_nextTag_add_one hl).ge
  | refused _ spent => exact absurd hl spent

end Interns

structure Fills (p : Pool) (s : Supply) (E : Set Str) (q : Pool) (t : Supply) (E' : Set Str) :
    Prop where
  covers : t.Covers E'
  holds : q.Holds E'
  subset : E ⊆ E'
  grows : p.Grows s q t
  owned {a : Str} : a ∈ E' → a ∉ E → a.tag?.isSome → q.strings[a.text]? = some a

namespace Fills

variable {p q r : Pool} {s t u : Supply} {text : String} {a : Str} {E E' : Set Str}

theorem refl (hs : s.Covers E) (hp : p.Holds E) : p.Fills s E p s E where
  covers := hs
  holds := hp
  subset := Set.Subset.rfl
  grows := .refl p s
  owned ha hn := absurd ha hn

theorem intern (h : p.Fills s E q t E') (hi : Interns q t text a r u) :
    p.Fills s E r u (insert a E') where
  covers := hi.covers h.covers h.holds
  holds := hi.holds h.holds
  subset := h.subset.trans (Set.subset_insert _ _)
  grows := h.grows.trans hi.grows
  owned hb hn ht := by
    rcases hb with rfl | hb
    · rw [hi.text_eq h.holds]
      exact hi.pooled ht
    · exact hi.grows.strings (h.owned hb hn ht)

end Fills

end Pool

end KnightLang
