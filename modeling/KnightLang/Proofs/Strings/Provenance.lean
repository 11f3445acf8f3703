import KnightLang.Proofs.Strings.Equality

namespace KnightLang

open Cache (Key)

/-- A text of a cache, something that a cache remembers, or a creation that nothing else shares. -/
inductive Provenance
  | text (cache : Nat) (text : String)
  | kept (cache : Nat) (key : Key)
  | own (creation : Nat)
  deriving DecidableEq, Repr

def Provenance.made (cache limit count : Nat) (text : String) (key? : Option Key) : Provenance :=
  if text.utf8ByteSize ≤ limit then .text cache text
  else
    match key? with
    | some key => .kept cache key
    | none => .own count

def Request.provenance (cache limit count : Nat) (text : String) : Request Str → Provenance
  | .special which => .text cache which.word
  | r => .made cache limit count text r.key?

theorem Request.provenance_of_ne {r : Request Str} (hr : ∀ which, r ≠ .special which)
    {cache limit count : Nat} {text : String} :
    r.provenance cache limit count text = .made cache limit count text r.key? := by
  cases r with
  | special which => exact absurd rfl (hr which)
  | _ => rfl

def Use.provenance? (s : Caches) : Use → Option Provenance
  | .unique _ => some (.own s.handles.length)
  | .ask k request =>
    match s.members[k]?, request.resolve s.handles with
    | some c, some r =>
      r.text?.map fun text => r.provenance k c.options.maxLength s.handles.length text
    | _, _ => none
  | _ => none

namespace Caches

def provenances (s : Caches) : List Use → List Provenance
  | [] => []
  | use :: uses => (use.provenance? s).toList ++ provenances (use.step s) uses

/-- How the handle at a place is what its provenance says. -/
inductive Explains (s : Caches) (n : Nat) (a : Str) : Provenance → Prop
  | text {k : Nat} {c : Cache} {text : String} (hc : s.members[k]? = some c)
      (h : c.pool.strings[text]? = some a) : Explains s n a (.text k text)
  | kept {k : Nat} {c : Cache} {key : Key} (hc : s.members[k]? = some c) (ht : a.tag? = none)
      (h : c.memo? key = some a) : Explains s n a (.kept k key)
  | own (ht : a.tag? = none)
      (hmemo : ∀ {k : Nat} {c : Cache} {key : Key}, s.members[k]? = some c →
        c.memo? key ≠ some a)
      (honly : ∀ {m : Nat}, s.handles[m]? = some a → m = n) : Explains s n a (.own n)

structure Traced (s : Caches) (ps : List Provenance) : Prop where
  length : ps.length = s.handles.length
  explains {n : Nat} {a : Str} {p : Provenance} : s.handles[n]? = some a → ps[n]? = some p →
    s.Explains n a p

theorem Explains.mono {s t : Caches} {E E' : Set Str} {n : Nat} {a : Str} {p : Provenance}
    (h : s.Explains n a p) (ha : a ∈ E) (he : s.Evolves E t E') {l : List Str}
    (hh : t.handles = s.handles ++ l)
    (hnew : ∀ b ∈ l, b ∈ E → b.tag? = none → ∃ (k : Nat) (c : Cache) (key : Key),
      s.members[k]? = some c ∧ c.memo? key = some b) : t.Explains n a p := by
  cases h with
  | text hc hp =>
    obtain ⟨d, hd, -, hpool, -⟩ := he.member hc
    exact .text hd (hpool hp)
  | kept hc ht hr =>
    obtain ⟨d, hd, -, -, hmemo⟩ := he.member hc
    exact .kept hd ht (hmemo hr)
  | own ht hmemo honly =>
    refine .own ht ?_ ?_
    · intro k d key hd hr
      obtain ⟨c, hc, hr'⟩ := he.memo hd hr ht ha
      exact hmemo hc hr'
    · intro m hm
      rw [hh] at hm
      by_cases hlt : m < s.handles.length
      · rw [List.getElem?_append_left hlt] at hm
        exact honly hm
      · rw [List.getElem?_append_right (Nat.not_lt.1 hlt)] at hm
        obtain ⟨k, c, key, hc, hr⟩ := hnew a (List.mem_of_getElem? hm) ha ht
        exact absurd hr (hmemo hc)

namespace Traced

variable {s t : Caches} {E E' : Set Str} {ps : List Provenance}

theorem evolve (h : s.Traced ps) (hs : s.Sound E) (he : s.Evolves E t E')
    (hh : t.handles = s.handles) : t.Traced ps where
  length := by rw [h.length, hh]
  explains ha hp := by
    rw [hh] at ha
    exact (h.explains ha hp).mono (hs.handles (List.mem_of_getElem? ha)) he (l := [])
      (by simpa using hh) nofun

theorem push (h : s.Traced ps) (hs : s.Sound E) (he : s.Evolves E t E') {b : Str} {p : Provenance}
    (hh : t.handles = s.handles ++ [b]) (hp : t.Explains s.handles.length b p)
    (hnew : b ∈ E → b.tag? = none → ∃ (k : Nat) (c : Cache) (key : Key),
      s.members[k]? = some c ∧ c.memo? key = some b) : t.Traced (ps ++ [p]) where
  length := by simp [h.length, hh]
  explains {n a q} ha hq := by
    rw [hh] at ha
    by_cases hn : n < s.handles.length
    · rw [List.getElem?_append_left hn] at ha
      rw [List.getElem?_append_left (h.length ▸ hn)] at hq
      refine (h.explains ha hq).mono (hs.handles (List.mem_of_getElem? ha)) he hh ?_
      intro c hc
      obtain rfl := List.mem_singleton.1 hc
      exact hnew
    · have hle := Nat.not_lt.1 hn
      rw [List.getElem?_append_right hle, List.getElem?_singleton] at ha
      rw [List.getElem?_append_right (h.length ▸ hle), List.getElem?_singleton, h.length] at hq
      split at ha
      · rename_i hz
        obtain rfl := Option.some.inj ha
        rw [if_pos hz] at hq
        obtain rfl := Option.some.inj hq
        obtain rfl : n = s.handles.length := by omega
        exact hp
      · simp at ha

theorem create (h : s.Traced ps) (hs : s.Sound E) (options : CacheOptions) :
    ((Use.create options).step s).Traced ps := by
  obtain ⟨E', he⟩ := hs.create options
  exact h.evolve hs he rfl

theorem warm (h : s.Traced ps) (hs : s.Sound E) (k : Nat) : ((Use.warm k).step s).Traced ps := by
  obtain ⟨E', he⟩ := hs.warm k
  refine h.evolve hs he ?_
  simp only [Use.step]
  split <;> rfl

theorem eq_length_of_notMem (hs : s.Sound E) {b : Str} (hb : b ∉ E) {m : Nat}
    (hm : (s.handles ++ [b])[m]? = some b) : m = s.handles.length := by
  have hlt := (List.getElem?_eq_some_iff.1 hm).1
  simp only [List.length_append, List.length_singleton] at hlt
  by_contra hne
  rw [List.getElem?_append_left (by omega)] at hm
  exact hb (hs.handles (List.mem_of_getElem? hm))

theorem unique (h : s.Traced ps) (hs : s.Sound E) (text : String) :
    ((Use.unique text).step s).Traced (ps ++ [.own s.handles.length]) := by
  have hb : (⟨text, .unique s.supply.nextAddress⟩ : Str) ∉ E := fun hE =>
    absurd (hs.covers.address_lt hE rfl) (Nat.lt_irrefl _)
  refine h.push hs (hs.unique text) rfl (.own rfl ?_ ?_) (fun hE => absurd hE hb)
  · intro k c key hc hr
    exact hb ((hs.caches hc).memo hr).1
  · exact fun hm => eq_length_of_notMem hs hb hm

theorem made (h : s.Traced ps) (hs : s.Sound E) {k : Nat} {c : Cache} (hc : s.members[k]? = some c)
    {key? : Option Key} {text : String} {a : Str} {j : Interner}
    (hm : Interner.Made ⟨s.supply, c⟩ key? text a j) (hj : j.Sound (insert a E))
    (hl : j.supply.TagsLeft) :
    Traced { s.put k j with handles := s.handles ++ [a] }
      (ps ++ [.made k c.options.maxLength s.handles.length text key?]) := by
  have hi := hs.interner hc
  have he := (hs.put_evolves hc (hm.evolves hi hj)).handOut (l := [a]) (by simp)
  have hk := getElem?_put_self (j := j) hc
  refine h.push hs he rfl ?_ ?_
  · unfold Provenance.made
    split
    · rename_i hshort
      exact .text hk (hm.pooled ((hm.tagged_iff hl).2 hshort))
    · rename_i hlong
      have ht : a.tag? = none := by simpa using mt (hm.tagged_iff hl).1 hlong
      cases key? with
      | some key => exact .kept hk ht (hm.kept rfl)
      | none =>
        have ha : a ∉ E := hm.notMem hi rfl ht
        refine .own ht ?_ (fun hn => eq_length_of_notMem hs ha hn)
        intro l d key hd hr
        rcases getElem?_put hc hd with ⟨-, rfl⟩ | ⟨-, hd⟩
        · have hold := (hm.memo hr).resolve_right (by simp)
          exact ha ((hs.caches hc).memo hold).1
        · exact ha ((hs.caches hd).memo hr).1
  · intro ha ht
    rcases hm.origin with hold | ⟨hnew, -⟩
    · obtain ⟨key, -, hr⟩ := Option.bind_eq_some_iff.1 hold
      exact ⟨k, c, key, hc, hr⟩
    · exact absurd ha (hm.notMem hi hnew ht)

theorem special (h : s.Traced ps) (hs : s.Sound E) {k : Nat} {c : Cache}
    (hc : s.members[k]? = some c) (which : Cache.Special) (hl : s.supply.TagsLeft) :
    Traced { s.put k ⟨s.supply, c⟩ with handles := s.handles ++ [c.special which] }
      (ps ++ [.text k which.word]) := by
  have hp := (hs.caches hc).special which
  have he := (hs.put_evolves hc (.refl (hs.interner hc))).handOut (l := [c.special which])
    (by simpa using hp.mem)
  refine h.push hs he rfl (.text (getElem?_put_self hc) (hp.pooled (hp.tagged hl))) ?_
  intro _ ht
  simpa [ht] using hp.tagged hl

theorem ask (h : s.Traced ps) (hs : s.Sound E) (k : Nat) (request : Request Nat)
    (hl : ((Use.ask k request).step s).supply.TagsLeft) :
    ((Use.ask k request).step s).Traced (ps ++ ((Use.ask k request).provenance? s).toList) := by
  simp only [Use.step, Use.provenance?] at hl ⊢
  split
  · rename_i c r hc hr
    simp only [hc, hr] at hl ⊢
    have hi := hs.interner hc
    have hout := Request.answer_outcome hi (hs.resolve_within hr)
    generalize r.answer ⟨s.supply, c⟩ = x at hout hl ⊢
    obtain ⟨a?, j⟩ := x
    cases hout with
    | none ht =>
      have he := (hs.put_evolves hc (.refl hi)).handOut (l := []) (by simp)
      simpa [ht, put] using h.evolve hs he (by simp [put])
    | @special which hw =>
      subst hw
      exact h.special hs hc which hl
    | made hw ht hm hj =>
      simp only [ht, Option.map_some, Request.provenance_of_ne hw]
      exact h.made hs hc hm hj hl
  · simpa using h

theorem step (h : s.Traced ps) (hs : s.Sound E) (use : Use) (hl : (use.step s).supply.TagsLeft) :
    (use.step s).Traced (ps ++ (use.provenance? s).toList) := by
  cases use with
  | create options => simpa [Use.provenance?] using h.create hs options
  | unique text => exact h.unique hs text
  | ask k request => exact h.ask hs k request hl
  | warm k => simpa [Use.provenance?] using h.warm hs k

theorem foldl (h : s.Traced ps) (hs : s.Sound E) (uses : List Use)
    (hl : (uses.foldl Use.step s).supply.TagsLeft) :
    (uses.foldl Use.step s).Traced (ps ++ s.provenances uses) := by
  induction uses generalizing s E ps with
  | nil => simpa [provenances] using h
  | cons use uses ih =>
    obtain ⟨E', he⟩ := hs.step use
    have hstep := h.step hs use (he.sound.tagsLeft_of_foldl uses hl)
    simpa [provenances] using ih hstep he.sound hl

end Traced

namespace Explains

variable {s : Caches} {E : Set Str} {i j : Nat} {a b : Str} {p q : Provenance}

theorem isSome_tag? (hs : s.Sound E) {k : Nat} {c : Cache} {text : String}
    (hc : s.members[k]? = some c) (h : c.pool.strings[text]? = some a) : a.tag?.isSome := by
  obtain ⟨-, -, tag, hl⟩ := (hs.caches hc).pool h
  simp [Str.tag?_of_interned hl]

theorem text_unique (hs : s.Sound E) {k l : Nat} {c d : Cache} {text text' : String}
    (hc : s.members[k]? = some c) (hd : s.members[l]? = some d)
    (h : c.pool.strings[text]? = some a) (h' : d.pool.strings[text']? = some a) :
    k = l ∧ text = text' := by
  obtain ⟨-, ht, tag, hl⟩ := (hs.caches hc).pool h
  obtain ⟨-, ht', tag', hl'⟩ := (hs.caches hd).pool h'
  have hn : c.pool.number = d.pool.number := (Label.interned.inj (hl.symm.trans hl')).2
  exact ⟨hs.eq_of_number hc hd h h' hn, ht.symm.trans ht'⟩

theorem provenance_unique (hs : s.Sound E) (h : s.Explains i a p) (h' : s.Explains j a q)
    (hj : s.handles[j]? = some a) : p = q := by
  cases h with
  | text hc ha =>
    have ht := isSome_tag? hs hc ha
    cases h' with
    | text hd hb =>
      obtain ⟨rfl, rfl⟩ := text_unique hs hc hd ha hb
      rfl
    | kept _ hn _ => simp [hn] at ht
    | own hn _ _ => simp [hn] at ht
  | kept hc ht ha =>
    cases h' with
    | text hd hb => simpa [ht] using isSome_tag? hs hd hb
    | kept hd _ hb =>
      obtain rfl := hs.alone hc hd ha hb ht
      obtain rfl := Option.some.inj (hc.symm.trans hd)
      rw [(hs.caches hc).alone ha hb ht]
    | own _ hmemo _ => exact absurd ha (hmemo hc)
  | own ht hmemo honly =>
    cases h' with
    | text hd hb => simpa [ht] using isSome_tag? hs hd hb
    | kept hd _ hb => exact absurd hb (hmemo hd)
    | own _ _ _ => rw [honly hj]

theorem handle_unique (h : s.Explains i a p) (h' : s.Explains j b p) (hi : s.handles[i]? = some a)
    (hj : s.handles[j]? = some b) : a = b := by
  cases h with
  | text hc ha =>
    cases h' with
    | text hd hb =>
      obtain rfl := Option.some.inj (hc.symm.trans hd)
      exact Option.some.inj (ha.symm.trans hb)
  | kept hc _ ha =>
    cases h' with
    | kept hd _ hb =>
      obtain rfl := Option.some.inj (hc.symm.trans hd)
      exact Option.some.inj (ha.symm.trans hb)
  | own =>
    cases h' with
    | own => exact Option.some.inj (hi.symm.trans hj)

end Explains

theorem Traced.same_iff {s : Caches} {E : Set Str} {ps : List Provenance} (h : s.Traced ps)
    (hs : s.Sound E) {i j : Nat} {a b : Str} (hi : s.handles[i]? = some a)
    (hj : s.handles[j]? = some b) : a.same b = true ↔ ps[i]? = ps[j]? := by
  have provenance {n : Nat} {a : Str} (hn : s.handles[n]? = some a) : ∃ p, ps[n]? = some p := by
    have hlt := (List.getElem?_eq_some_iff.1 hn).1
    exact ⟨_, List.getElem?_eq_getElem (h.length ▸ hlt)⟩
  obtain ⟨p, hp⟩ := provenance hi
  obtain ⟨q, hq⟩ := provenance hj
  rw [hp, hq, Option.some.injEq]
  constructor
  · intro hab
    obtain rfl := hs.eq_of_same (hs.handles (List.mem_of_getElem? hi))
      (hs.handles (List.mem_of_getElem? hj)) hab
    exact (h.explains hi hp).provenance_unique hs (h.explains hj hq) hj
  · rintro rfl
    obtain rfl := (h.explains hi hp).handle_unique (h.explains hj hq) hi hj
    simp [Str.same]

theorem traced_empty : Traced {} [] where
  length := rfl
  explains h := by simp at h

/-- While there are tags, whatever caches there are and whatever they were asked for, two handles are
one instance exactly when they have one provenance. -/
theorem same_iff_provenance_eq (uses : List Use) (hl : (run uses).supply.TagsLeft) :
    (provenances {} uses).length = (run uses).handles.length ∧
      ∀ (i j : Nat) (a b : Str), (run uses).handles[i]? = some a →
        (run uses).handles[j]? = some b →
        (a.same b = true ↔ (provenances {} uses)[i]? = (provenances {} uses)[j]?) := by
  obtain ⟨E, hs⟩ := sound_run uses
  have h : (run uses).Traced (provenances {} uses) := traced_empty.foldl sound_empty uses hl
  exact ⟨h.length, fun i j a b hi hj => h.same_iff hs hi hj⟩

theorem same_iff_provenance_eq_limit :
    let uses := [.create { maxLength := 3 }, .unique "cd", .ask 0 (.text "abc"),
      .ask 0 (.text "abcabc"), .ask 0 (.text "abcabc"), .ask 0 (.join 1 1), .ask 0 (.join 1 1),
      .ask 0 (.join 1 0), .ask 0 (.join 1 0)]
    let provenance (i : Nat) := (provenances {} uses)[i]?
    (run uses).supply.TagsLeft ∧ provenance 2 ≠ provenance 3 ∧ provenance 4 = provenance 5 ∧
      provenance 6 ≠ provenance 7 := by
  intro uses provenance
  have hl : (run uses).supply.TagsLeft := by decide
  have h := (same_iff_provenance_eq uses hl).2
  refine ⟨hl, fun he => ?_, ?_, fun he => ?_⟩
  · have hs := (h 2 3 ⟨"abcabc", .unique 1⟩ ⟨"abcabc", .unique 2⟩ (by decide) (by decide)).2 he
    exact absurd hs (by decide)
  · exact (h 4 5 ⟨"abcabc", .unique 3⟩ ⟨"abcabc", .unique 3⟩ (by decide) (by decide)).1 (by decide)
  · have hs := (h 6 7 ⟨"abccd", .unique 4⟩ ⟨"abccd", .unique 5⟩ (by decide) (by decide)).2 he
    exact absurd hs (by decide)

end Caches

end KnightLang
