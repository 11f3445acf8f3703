import KnightLang.Proofs.Lockstep.Spending
import KnightLang.Proofs.Strings.History
import Mathlib.Algebra.GroupWithZero.Nat
import Mathlib.Algebra.Order.BigOperators.Group.List
import Mathlib.Algebra.Order.Group.Nat

namespace KnightLang

open List (Forall₂)
open Std (TreeMap)
open Cache (Key)

theorem Pool.Interns.counts {p q : Pool} {s t : Supply} {text : String} {a : Str}
    (h : p.Interns s text a q t) :
    t.nextTag.toNat + p.strings.size = s.nextTag.toNat + q.strings.size := by
  cases h with
  | found | refused => rfl
  | tagged new left =>
    have hn : text ∉ p.strings := by
      rw [TreeMap.mem_iff_isSome_getElem?, new]
      simp
    change (s.nextTag + 1).toNat + _ = _ + (p.strings.insert text _).size
    have hsize : (p.strings.insert text ⟨text, .interned s.nextTag p.number⟩).size =
        p.strings.size + 1 := by
      rw [TreeMap.size_insert, if_neg]
      simpa using hn
    rw [hsize, Supply.toNat_nextTag_add_one left]
    omega

theorem Pool.Interns.mem_cases {p q : Pool} {s t : Supply} {text other : String} {a : Str}
    (h : p.Interns s text a q t) (ho : other ∈ q.strings) : other ∈ p.strings ∨ other = text := by
  cases h with
  | found | refused => exact .inl ho
  | tagged new left =>
    rw [TreeMap.mem_insert, Std.compare_eq_iff_eq] at ho
    exact ho.symm.imp_right Eq.symm

namespace Interner

def Counts (i j : Interner) : Prop :=
  j.supply.nextTag.toNat + i.cache.pool.strings.size =
    i.supply.nextTag.toNat + j.cache.pool.strings.size

variable {i j k : Interner} {text : String} {a : Str}

theorem Counts.trans (h : i.Counts j) (h' : j.Counts k) : i.Counts k := by
  unfold Counts at *
  omega

theorem Makes.counts (h : Makes i text a j) : i.Counts j := by
  cases h with
  | interned short h => exact h.counts
  | long => rfl

theorem Makes.mem_cases {other : String} (h : Makes i text a j)
    (ho : other ∈ j.cache.pool.strings) : other ∈ i.cache.pool.strings ∨
      other = text ∧ text.utf8ByteSize ≤ i.cache.options.maxLength := by
  cases h with
  | interned short h => exact (h.mem_cases ho).imp_right fun he => ⟨he, short⟩
  | long => exact .inl ho

theorem make_cases (key? : Option Key) (text : String) (i : Interner) : (i.make key? text).2 = i ∨
    ∃ a j, Makes i text a j ∧ (i.make key? text).2.supply = j.supply ∧
      (i.make key? text).2.cache.pool = j.cache.pool ∧
      (i.make key? text).2.cache.options = j.cache.options := by
  have hm := string_makes text i
  simp only [make]
  split
  · exact .inl rfl
  · refine .inr ⟨_, _, hm, ?_⟩
    cases key? with
    | none => exact ⟨rfl, rfl, rfl⟩
    | some key => exact ⟨rfl, Cache.keep_pool .., Cache.keep_options ..⟩

theorem counts_make (key? : Option Key) (text : String) (i : Interner) :
    i.Counts (i.make key? text).2 := by
  rcases i.make_cases key? text with h | ⟨a, j, hm, hs, hp, -⟩
  · rw [h]
    rfl
  · unfold Counts
    rw [hs, hp]
    exact hm.counts

theorem options_make (key? : Option Key) (text : String) (i : Interner) :
    (i.make key? text).2.cache.options = i.cache.options := by
  rcases i.make_cases key? text with h | ⟨a, j, hm, -, -, ho⟩
  · rw [h]
  · rw [ho, hm.grows.options]

theorem mem_make_cases {key? : Option Key} {other : String}
    (ho : other ∈ (i.make key? text).2.cache.pool.strings) : other ∈ i.cache.pool.strings ∨
      other = text ∧ text.utf8ByteSize ≤ i.cache.options.maxLength := by
  rcases i.make_cases key? text with h | ⟨a, j, hm, -, hp, -⟩
  · rw [h] at ho
    exact .inl ho
  · rw [hp] at ho
    exact hm.mem_cases ho

end Interner

namespace Request

theorem answer_cases (r : Request Str) (i : Interner) : (r.answer i).2 = i ∨
    ∃ text, r.text? = some text ∧ (r.answer i).2 = (i.make r.key? text).2 := by
  cases r with
  | text t => exact .inr ⟨t, rfl, rfl⟩
  | ownedText t =>
    refine .inr ⟨t, rfl, ?_⟩
    simp only [answer, ask, Cache.ownedString_eq_string]
    rfl
  | special which => cases which <;> exact .inl rfl
  | part source start stop =>
    simp only [answer, ask, Cache.substring_eq_make]
    cases ht : Text.slice? source.text start stop with
    | none => exact .inl rfl
    | some text => exact .inr ⟨text, ht, rfl⟩
  | join left right =>
    refine .inr ⟨_, rfl, ?_⟩
    simp only [answer, ask, Functor.map, StateT.map, Cache.concat_eq_make]
    rfl
  | integer n =>
    refine .inr ⟨_, rfl, ?_⟩
    simp only [answer, ask, Functor.map, StateT.map, Cache.intString_eq_make]
    rfl

theorem counts_answer (r : Request Str) (i : Interner) : i.Counts (r.answer i).2 := by
  rcases r.answer_cases i with h | ⟨text, -, h⟩
  · rw [h]
    rfl
  · rw [h]
    exact i.counts_make r.key? text

theorem options_answer (r : Request Str) (i : Interner) :
    (r.answer i).2.cache.options = i.cache.options := by
  rcases r.answer_cases i with h | ⟨text, -, h⟩
  · rw [h]
  · rw [h]
    exact i.options_make r.key? text

theorem mem_answer_cases {r : Request Str} {i : Interner} {other : String}
    (ho : other ∈ (r.answer i).2.cache.pool.strings) : other ∈ i.cache.pool.strings ∨
      r.text? = some other ∧ other.utf8ByteSize ≤ i.cache.options.maxLength := by
  rcases r.answer_cases i with h | ⟨text, ht, h⟩
  · rw [h] at ho
    exact .inl ho
  · rw [h] at ho
    rcases Interner.mem_make_cases ho with hold | ⟨rfl, hshort⟩
    · exact .inl hold
    · exact .inr ⟨ht, hshort⟩

theorem Outcome.grows {i j : Interner} {E : Set Str} {r : Request Str} {a? : Option Str}
    (h : Outcome i E r a? j) : i.Grows j := by
  cases h with
  | none | special => exact .refl i
  | made _ _ hm _ => exact hm.grows

theorem Outcome.mem {i j : Interner} {E : Set Str} {r : Request Str} {a? : Option Str}
    (h : Outcome i E r a? j) (hi : i.Sound E) {text : String} (ht : r.text? = some text)
    (hshort : text.utf8ByteSize ≤ i.cache.options.maxLength) (hl : j.supply.TagsLeft) :
    text ∈ j.cache.pool.strings := by
  rw [TreeMap.mem_iff_isSome_getElem?]
  cases h with
  | none hn => simp [hn] at ht
  | @special which hw =>
    subst hw
    obtain rfl := Option.some.inj ht
    have hp := hi.cache.special which
    simp [hp.pooled (hp.tagged hl)]
  | made _ ht' hm _ =>
    obtain rfl := Option.some.inj (ht'.symm.trans ht)
    simp [hm.pooled ((hm.tagged_iff hl).2 hshort)]

end Request

namespace Cache

structure Below (c d : Cache) : Prop where
  options : c.options = d.options
  mem {text : String} : text ∈ c.pool.strings → text ∈ d.pool.strings

theorem Below.size_le {c d : Cache} (h : c.Below d) : c.pool.strings.size ≤ d.pool.strings.size := by
  rw [← TreeMap.length_keys, ← TreeMap.length_keys]
  have hsub : c.pool.strings.keys ⊆ d.pool.strings.keys := by
    intro text ht
    rw [TreeMap.mem_keys] at ht ⊢
    exact h.mem ht
  have hnodup : c.pool.strings.keys.Nodup := TreeMap.nodup_keys
  exact (List.subperm_of_subset hnodup hsub).length_le

theorem Below.grow {c : Cache} {i j : Interner} (h : c.Below i.cache) (hg : i.Grows j) :
    c.Below j.cache where
  options := h.options.trans hg.options.symm
  mem ht := by
    have hold := h.mem ht
    rw [TreeMap.mem_iff_isSome_getElem?] at hold ⊢
    obtain ⟨a, ha⟩ := Option.isSome_iff_exists.1 hold
    rw [hg.pool.strings ha]
    rfl

end Cache

namespace Cache.Below

variable {i j : Interner} {F : Set Str}

theorem answer (h : i.cache.Below j.cache) (hj : j.Sound F) {r r' : Request Str} (hr : r'.Within F)
    (htext : r.text? = r'.text?) (hl : (r'.answer j).2.supply.TagsLeft) :
    (r.answer i).2.cache.Below (r'.answer j).2.cache where
  options := by rw [r.options_answer, r'.options_answer, h.options]
  mem {text} ht := by
    have hout := Request.answer_outcome hj hr
    rcases Request.mem_answer_cases ht with hold | ⟨hr, hshort⟩
    · exact (h.grow hout.grows).mem hold
    · rw [htext] at hr
      rw [h.options] at hshort
      exact hout.mem hj hr hshort hl

theorem forM_intString (ns : List Int64) (h : i.cache.Below j.cache) (hj : j.Sound F)
    (hl : (ns.forM (fun n => discard (intString n : StateM Interner Str)) j).2.supply.TagsLeft) :
    (ns.forM (fun n => discard (intString n : StateM Interner Str)) i).2.cache.Below
      (ns.forM (fun n => discard (intString n : StateM Interner Str)) j).2.cache := by
  induction ns generalizing i j F with
  | nil => exact h
  | cons n ns ih =>
    -- the tags that are left at the end were left after the first integer
    let ask (i : Interner) := ((Request.integer n).answer i).2
    have hspend := Spends.le (x := ns.forM fun n => discard (intString n : StateM Interner Str)) (ask j)
    have hfirst : (ask j).supply.TagsLeft := hl.of_le hspend
    have hstep : (ask i).cache.Below (ask j).cache := h.answer hj trivial rfl hfirst
    obtain ⟨F', hev⟩ := intString_evolves hj n
    exact ih hstep hev.sound hl

theorem warm (h : i.cache.Below j.cache) (hj : j.Sound F)
    (hl : ((Cache.warm : StateM Interner Unit) j).2.supply.TagsLeft) :
    ((Cache.warm : StateM Interner Unit) i).2.cache.Below
      ((Cache.warm : StateM Interner Unit) j).2.cache := by
  rw [warm_eq] at hl
  rw [warm_eq, warm_eq, h.options]
  exact forM_intString _ h hj hl

end Cache.Below

namespace Cache

theorem counts_warm (i : Interner) : i.Counts ((warm : StateM Interner Unit) i).2 := by
  rw [warm_eq]
  induction range i.cache.options.least i.cache.options.greatest generalizing i with
  | nil => rfl
  | cons n ns ih => exact ((Request.integer n).counts_answer i).trans (ih _)

theorem counts_create (options : CacheOptions) (s : Supply) :
    (create options s).2.nextTag.toNat =
      s.nextTag.toNat + (create options s).1.pool.strings.size := by
  obtain ⟨a₁, p₁, s₁, a₂, p₂, s₂, a₃, p₃, s₃, a₄, p₄, s₄, h₁, h₂, h₃, h₄, hcreate⟩ :=
    create_interns options s
  rw [hcreate]
  have hnone : (⟨s.nextPool, ∅⟩ : Pool).strings.size = 0 := rfl
  have c₁ := h₁.counts
  have c₂ := h₂.counts
  have c₃ := h₃.counts
  have c₄ := h₄.counts
  dsimp only at c₁ hnone ⊢
  omega

theorem mem_create_cases {options : CacheOptions} {s : Supply} {text : String}
    (ht : text ∈ (create options s).1.pool.strings) : ∃ which : Special, text = which.word := by
  obtain ⟨a₁, p₁, s₁, a₂, p₂, s₂, a₃, p₃, s₃, a₄, p₄, s₄, h₁, h₂, h₃, h₄, hcreate⟩ :=
    create_interns options s
  rw [hcreate] at ht
  rcases h₄.mem_cases ht with ht | rfl
  · rcases h₃.mem_cases ht with ht | rfl
    · rcases h₂.mem_cases ht with ht | rfl
      · rcases h₁.mem_cases ht with ht | rfl
        · simp at ht
        · exact ⟨.empty, rfl⟩
      · exact ⟨.null, rfl⟩
    · exact ⟨.yes, rfl⟩
  · exact ⟨.no, rfl⟩

theorem below_create {options : CacheOptions} {s t : Supply} {F : Set Str} (ht : t.Covers F)
    (hl : (create options t).2.TagsLeft) : (create options s).1.Below (create options t).1 := by
  obtain ⟨F', hc⟩ := create_created options ht
  refine ⟨rfl, fun hm => ?_⟩
  obtain ⟨which, rfl⟩ := mem_create_cases hm
  have hp := hc.sound.special which
  rw [TreeMap.mem_iff_isSome_getElem?, hp.pooled (hp.tagged hl)]
  rfl

end Cache

namespace Caches

def interned (s : Caches) : Nat := (s.members.map fun c => c.pool.strings.size).sum

/-- Each tag that was taken is that of a text that is interned. -/
def Counted (s : Caches) : Prop := s.supply.nextTag.toNat = 1 + s.interned

theorem counted_empty : Counted {} := rfl

theorem sum_set {xs : List Nat} {k x : Nat} (h : xs[k]? = some x) (y : Nat) :
    (xs.set k y).sum + x = xs.sum + y := by
  induction xs generalizing k with
  | nil => simp at h
  | cons z zs ih =>
    cases k with
    | zero =>
      obtain rfl := Option.some.inj h
      simp only [List.set_cons_zero, List.sum_cons]
      omega
    | succ k =>
      have hs := ih h
      simp only [List.set_cons_succ, List.sum_cons]
      omega

theorem Counted.put {s : Caches} (h : s.Counted) {k : Nat} {c : Cache} (hc : s.members[k]? = some c)
    {j : Interner} (hj : Interner.Counts ⟨s.supply, c⟩ j) : (s.put k j).Counted := by
  have hk : (s.members.map fun c => c.pool.strings.size)[k]? = some c.pool.strings.size := by
    rw [List.getElem?_map, hc]
    rfl
  have hs := sum_set hk j.cache.pool.strings.size
  rw [← List.map_set] at hs
  unfold Counted interned Interner.Counts Caches.put at *
  dsimp only at *
  omega

theorem Counted.step {s : Caches} (h : s.Counted) (use : Use) : (use.step s).Counted := by
  cases use with
  | create options =>
    have hc := Cache.counts_create options s.supply
    simp only [Use.step]
    generalize Cache.create options s.supply = x at hc ⊢
    obtain ⟨c, t⟩ := x
    unfold Counted interned at *
    simp only [List.map_append, List.sum_append, List.map_singleton, List.sum_singleton] at hc ⊢
    omega
  | unique text => exact h
  | ask k request =>
    simp only [Use.step]
    split
    · rename_i c r hc hr
      exact h.put hc (r.counts_answer ⟨s.supply, c⟩)
    · exact h
  | warm k =>
    simp only [Use.step]
    split
    · rename_i c hc
      exact h.put hc (Cache.counts_warm ⟨s.supply, c⟩)
    · exact h

theorem counted_foldl {s : Caches} (h : s.Counted) (uses : List Use) :
    (uses.foldl Use.step s).Counted := by
  induction uses generalizing s with
  | nil => exact h
  | cons use uses ih => exact ih (h.step use)

theorem Counted.tagsLeft {s t : Caches} (hs : s.Counted) (ht : t.Counted)
    (h : Forall₂ Cache.Below s.members t.members) (hl : t.supply.TagsLeft) : s.supply.TagsLeft := by
  have hsum : s.interned ≤ t.interned := by
    apply List.Forall₂.sum_le_sum
    rw [List.forall₂_map_left_iff, List.forall₂_map_right_iff]
    exact h.imp fun c d hcd => hcd.size_le
  apply hl.of_le
  rw [hs, ht]
  omega

end Caches

end KnightLang
