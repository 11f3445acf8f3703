import KnightLang.Proofs.Strings.Alongside

namespace KnightLang

namespace Cache

def Remembers (i : Interner) (n : Int64) : Prop := (i.cache.memo? (.integer n)).isSome

variable {i : Interner} {m n : Int64}

theorem intString_of_remembers (h : Remembers i n) :
    ((intString n : StateM Interner Str) i).2 = i := by
  obtain ⟨a, ha⟩ := Option.isSome_iff_exists.1 h
  rw [intString_eq_make]
  simp only [Interner.make, Option.bind_some, ha]

theorem memo?_intString (key : Key) :
    ((intString n : StateM Interner Str) i).2.cache.memo? key =
      if key = .integer n then some ((intString n : StateM Interner Str) i).1
      else i.cache.memo? key := by
  rw [intString_eq_make]
  simp only [Interner.make, Option.bind_some]
  cases hr : i.cache.memo? (.integer n) with
  | some a =>
    dsimp only
    split
    · rename_i hk
      rw [hk, hr]
    · rfl
  | none =>
    have hm := (Interner.string_makes (Decimal.ofInt n.toInt) i).memo?
    generalize (string (Decimal.ofInt n.toInt) : StateM Interner Str) i = x at hm ⊢
    obtain ⟨a, j⟩ := x
    dsimp only at hm ⊢
    rw [memo?_keep, hm]

theorem remembers_intString (h : n = m ∨ Remembers i n) :
    Remembers ((intString m : StateM Interner Str) i).2 n := by
  unfold Remembers
  rw [memo?_intString]
  split
  · rfl
  · rename_i hk
    exact h.resolve_left fun he => hk (congrArg Key.integer he)

theorem remembers_forM (ns : List Int64) (h : n ∈ ns ∨ Remembers i n) :
    Remembers (ns.forM (fun n => discard (intString n : StateM Interner Str)) i).2 n := by
  induction ns generalizing i with
  | nil => exact h.resolve_left List.not_mem_nil
  | cons m ns ih =>
    apply ih
    rcases h with h | h
    · rcases List.mem_cons.1 h with rfl | h
      · exact .inr (remembers_intString (.inl rfl))
      · exact .inl h
    · exact .inr (remembers_intString (.inr h))

theorem forM_of_remembers {ns : List Int64} (h : ∀ n ∈ ns, Remembers i n) :
    (ns.forM (fun n => discard (intString n : StateM Interner Str)) i).2 = i := by
  induction ns with
  | nil => rfl
  | cons n ns ih =>
    rw [List.forall_mem_cons] at h
    have hn := intString_of_remembers h.1
    calc ((n :: ns).forM (fun n => discard (intString n : StateM Interner Str)) i).2
      _ = (ns.forM (fun n => discard (intString n : StateM Interner Str))
          ((intString n : StateM Interner Str) i).2).2 := rfl
      _ = i := by rw [hn, ih h.2]

theorem options_warm (i : Interner) :
    ((warm : StateM Interner Unit) i).2.cache.options = i.cache.options := by
  rw [warm_eq]
  induction range i.cache.options.least i.cache.options.greatest generalizing i with
  | nil => rfl
  | cons n ns ih => exact (ih _).trans ((Request.integer n).options_answer i)

theorem warm_warm (i : Interner) :
    ((warm : StateM Interner Unit) ((warm : StateM Interner Unit) i).2).2 =
      ((warm : StateM Interner Unit) i).2 := by
  rw [warm_eq ((warm : StateM Interner Unit) i).2, options_warm]
  apply forM_of_remembers
  intro n hn
  rw [warm_eq]
  exact remembers_forM _ (.inl hn)

end Cache

namespace Use

inductive Warmed : List Use → List Use → Prop
  | nil : Warmed [] []
  | keep (use : Use) {us vs : List Use} (h : Warmed us vs) : Warmed (use :: us) (use :: vs)
  | warm (k : Nat) {us vs : List Use} (h : Warmed us vs) : Warmed us (.warm k :: vs)

theorem step_warm_warm (s : Caches) (k : Nat) :
    (Use.warm k).step ((Use.warm k).step s) = (Use.warm k).step s := by
  cases hc : s.members[k]? with
  | none => rw [warm_of_none hc, warm_of_none hc]
  | some c =>
    rw [warm_of_some hc, warm_of_some (Caches.getElem?_put_self hc)]
    have hw := Cache.warm_warm ⟨s.supply, c⟩
    generalize ((Cache.warm : StateM Interner Unit) ⟨s.supply, c⟩).2 = i at hw ⊢
    change (s.put k i).put k ((Cache.warm : StateM Interner Unit) i).2 = s.put k i
    rw [hw]
    simp only [Caches.put, List.set_set]

end Use

namespace Caches

theorem Alongside.foldl {us vs : List Use} (hw : Use.Warmed us vs) {s t : Caches}
    {ps qs : List Provenance} {E F : Set Str} (h : s.Alongside t ps qs) (hs : s.Sound E)
    (ht : t.Sound F) (hcs : s.Counted) (hct : t.Counted)
    (hl : (vs.foldl Use.step t).supply.TagsLeft) :
    (us.foldl Use.step s).Alongside (vs.foldl Use.step t) (ps ++ s.provenances us)
      (qs ++ t.provenances vs) := by
  induction hw generalizing s t ps qs E F with
  | nil => simpa [Caches.provenances] using h
  | @keep use us vs hw ih =>
    obtain ⟨E', hes⟩ := hs.step use
    obtain ⟨F', het⟩ := ht.step use
    have hstep := h.step hs ht hcs hct use (het.sound.tagsLeft_of_foldl vs hl)
    simpa [Caches.provenances] using ih hstep hes.sound het.sound (hcs.step use) (hct.step use) hl
  | @warm k us vs hw ih =>
    obtain ⟨F', het⟩ := ht.step (.warm k)
    have hwarm := h.warm_right hs ht k
    simpa [Caches.provenances, Use.provenance?] using
      ih hwarm hs het.sound hcs (hct.step (.warm k)) hl

/-- Warming caches anywhere, while there are tags, changes no text that is handed out, nor which of
them are equal, nor which are one instance; and doing it twice is doing it once. -/
theorem warming_is_invisible :
    (∀ us vs : List Use, Use.Warmed us vs → (run vs).supply.TagsLeft →
      (run us).handles.map Str.text = (run vs).handles.map Str.text ∧
      ∀ (i j : Nat) (a b a' b' : Str), (run us).handles[i]? = some a →
        (run us).handles[j]? = some b → (run vs).handles[i]? = some a' →
        (run vs).handles[j]? = some b' → a.equal b = a'.equal b' ∧ a.same b = a'.same b') ∧
    ∀ (s : Caches) (k : Nat), (Use.warm k).step ((Use.warm k).step s) = (Use.warm k).step s := by
  refine ⟨fun us vs hw hl => ?_, Use.step_warm_warm⟩
  obtain ⟨E, hs⟩ := sound_run us
  obtain ⟨F, ht⟩ := sound_run vs
  have hcs : (run us).Counted := counted_foldl counted_empty us
  have hct : (run vs).Counted := counted_foldl counted_empty vs
  have h : (run us).Alongside (run vs) (provenances {} us) (provenances {} vs) :=
    alongside_empty.foldl hw sound_empty sound_empty counted_empty counted_empty hl
  have hls := hcs.tagsLeft hct h.members hl
  have hps : (run us).Traced (provenances {} us) := traced_empty.foldl sound_empty us hls
  have hqs : (run vs).Traced (provenances {} vs) := traced_empty.foldl sound_empty vs hl
  refine ⟨?_, fun i j a b a' b' ha hb ha' hb' => h.indistinguishable hs ht hps hqs ha hb ha' hb'⟩
  rw [← List.forall₂_eq_eq_eq, List.forall₂_map_left_iff, List.forall₂_map_right_iff]
  exact h.handles.imp fun a b hab => hab.1

theorem warming_is_invisible_limit :
    let options : CacheOptions := { maxLength := 1, least := 9, greatest := 10 }
    let us := [.create options, .ask 0 (.text "10"), .ask 0 (.integer 10), .ask 0 (.integer 10)]
    let vs := [.create options, .warm 0, .ask 0 (.text "10"), .ask 0 (.integer 10), .warm 0,
      .ask 0 (.integer 10)]
    Use.Warmed us vs ∧ (run vs).supply.TagsLeft ∧
      (run us).handles = [⟨"10", .unique 0⟩, ⟨"10", .unique 1⟩, ⟨"10", .unique 1⟩] ∧
      (run vs).handles[0]? = some ⟨"10", .unique 1⟩ ∧
      (run us).handles.map Str.text = (run vs).handles.map Str.text := by
  intro options us vs
  have hw : Use.Warmed us vs :=
    .keep _ (.warm 0 (.keep _ (.keep _ (.warm 0 (.keep _ .nil)))))
  have hl : (run vs).supply.TagsLeft := by decide
  exact ⟨hw, hl, by decide, by decide, (warming_is_invisible.1 us vs hw hl).1⟩

end Caches

end KnightLang
