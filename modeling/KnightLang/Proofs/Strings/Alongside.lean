import KnightLang.Proofs.Lockstep.Stepping
import KnightLang.Proofs.Lockstep.Twins
import KnightLang.Proofs.Strings.Counting
import KnightLang.Proofs.Strings.Provenance

namespace KnightLang

open Cache (Key)
open List (Forall₂)

namespace Provenance

inductive Matches (w : Pairing) : Provenance → Provenance → Prop
  | text (cache : Nat) (text : String) : Matches w (.text cache text) (.text cache text)
  | kept (cache : Nat) {key key' : Key} (h : key.Matches w key') :
      Matches w (.kept cache key) (.kept cache key')
  | own (creation : Nat) : Matches w (.own creation) (.own creation)

variable {w w' : Pairing} {p q : Provenance}

theorem Matches.mono (hw : w ≤ w') (h : p.Matches w q) : p.Matches w' q := by
  cases h with
  | text cache text => exact .text cache text
  | kept cache h => exact .kept cache (h.mono hw)
  | own creation => exact .own creation

theorem Matches.symm (h : p.Matches w q) : q.Matches (flip w) p := by
  cases h with
  | text cache text => exact .text cache text
  | kept cache h => exact .kept cache h.symm
  | own creation => exact .own creation

theorem matches_made (cache limit count : Nat) (text : String) {key? key?' : Option Key}
    (h : Option.Rel (Key.Matches w) key? key?') :
    (made cache limit count text key?).Matches w (made cache limit count text key?') := by
  unfold made
  split
  · exact .text cache text
  · cases h with
    | some h => exact .kept cache h
    | none => exact .own count

end Provenance

theorem Request.Matches.provenance {w : Pairing} {r r' : Request Str} (h : r.Matches w r')
    (htag : ∀ {a b : Str}, w a b → (a.tag?.isSome ↔ b.tag?.isSome)) (cache limit count : Nat)
    (text : String) : (r.provenance cache limit count text).Matches w
      (r'.provenance cache limit count text) := by
  by_cases hs : ∃ which, r = .special which
  · obtain ⟨which, rfl⟩ := hs
    obtain rfl := (h.special_iff which).1 rfl
    exact .text cache which.word
  · have hr : ∀ which, r ≠ .special which := fun which he => hs ⟨which, he⟩
    have hr' : ∀ which, r' ≠ .special which := fun which he => hr which ((h.special_iff which).2 he)
    rw [Request.provenance_of_ne hr, Request.provenance_of_ne hr']
    exact Provenance.matches_made cache limit count text (h.keys htag)

theorem Request.resolve_matches {w : Pairing} {as bs : List Str} (h : Forall₂ w as bs)
    (request : Request Nat) :
    Option.Rel (Request.Matches w) (request.resolve as) (request.resolve bs) := by
  cases request with
  | text t => exact .some (.text t)
  | ownedText t => exact .some (.ownedText t)
  | special which => exact .some (.special which)
  | part source start stop => exact rel_map (fun a b hab => .part hab start stop) (rel_getElem? h source)
  | join left right =>
    have hl := rel_getElem? h left
    have hr := rel_getElem? h right
    simp only [resolve]
    generalize as[left]? = a?, bs[left]? = b? at hl ⊢
    generalize as[right]? = a?', bs[right]? = b?' at hr ⊢
    cases hl with
    | none => exact .none
    | some hab =>
      cases hr with
      | none => exact .none
      | some hab' => exact .some (.join hab hab')
  | integer n => exact .some (.integer n)

theorem rel_cases {α β : Type} {R : α → β → Prop} {x : Option α} {y : Option β}
    (h : Option.Rel R x y) : x = none ∧ y = none ∨ ∃ a b, x = some a ∧ y = some b ∧ R a b := by
  cases h with
  | none => exact .inl ⟨rfl, rfl⟩
  | some h => exact .inr ⟨_, _, rfl, rfl, h⟩

namespace Use

variable {s : Caches} {k : Nat}

theorem ask_of_none (request : Request Nat)
    (h : s.members[k]? = none ∨ request.resolve s.handles = none) :
    (Use.ask k request).step s = s ∧ (Use.ask k request).provenance? s = none := by
  rcases h with h | h
  · simp only [step, provenance?, h, and_self]
  · cases hc : s.members[k]? <;> simp only [step, provenance?, hc, h, and_self]

theorem ask_of_some {request : Request Nat} {c : Cache} {r : Request Str}
    (hc : s.members[k]? = some c) (hr : request.resolve s.handles = some r) :
    (Use.ask k request).step s = { s.put k (r.answer ⟨s.supply, c⟩).2 with
      handles := s.handles ++ (r.answer ⟨s.supply, c⟩).1.toList } ∧
    (Use.ask k request).provenance? s =
      r.text?.map fun text => r.provenance k c.options.maxLength s.handles.length text := by
  constructor
  · simp only [step, hc, hr]
    rfl
  · simp only [provenance?, hc, hr]

theorem step_create (options : CacheOptions) (s : Caches) : (Use.create options).step s = { s with
    supply := (Cache.create options s.supply).2
    members := s.members ++ [(Cache.create options s.supply).1] } := by
  simp only [step]

theorem warm_of_some {c : Cache} (hc : s.members[k]? = some c) :
    (Use.warm k).step s = s.put k ((Cache.warm : StateM Interner Unit) ⟨s.supply, c⟩).2 := by
  simp only [step, hc]

theorem warm_of_none (hc : s.members[k]? = none) : (Use.warm k).step s = s := by
  simp only [step, hc]

theorem handles_warm (s : Caches) (k : Nat) : ((Use.warm k).step s).handles = s.handles := by
  simp only [step]
  split <;> rfl

end Use

namespace Caches

/-- Strings of one text in two histories, interned by caches in one place, or both without a tag. -/
def Counterparts (s t : Caches) : Pairing := fun a b => a.text = b.text ∧
  (a.tag? = none ∧ b.tag? = none ∨ ∃ (k : Nat) (c d : Cache), s.members[k]? = some c ∧
    t.members[k]? = some d ∧ c.pool.strings[a.text]? = some a ∧ d.pool.strings[b.text]? = some b)

namespace Counterparts

variable {s t s' t' : Caches} {E F E' F' : Set Str} {a b a' b' : Str}

theorem symm (h : s.Counterparts t a b) : t.Counterparts s b a := by
  obtain ⟨htext, ⟨ha, hb⟩ | ⟨k, c, d, hc, hd, ha, hb⟩⟩ := h
  · exact ⟨htext.symm, .inl ⟨hb, ha⟩⟩
  · exact ⟨htext.symm, .inr ⟨k, d, c, hd, hc, hb, ha⟩⟩

theorem flip_eq : flip (s.Counterparts t) = t.Counterparts s := by
  funext a b
  exact propext ⟨symm, symm⟩

theorem tagged_iff (hs : s.Sound E) (ht : t.Sound F) (h : s.Counterparts t a b) :
    a.tag?.isSome ↔ b.tag?.isSome := by
  obtain ⟨-, ⟨ha, hb⟩ | ⟨k, c, d, hc, hd, ha, hb⟩⟩ := h
  · rw [ha, hb]
  · exact iff_of_true (Explains.isSome_tag? hs hc ha) (Explains.isSome_tag? ht hd hb)

theorem mono (hs : s.Evolves E s' E') (ht : t.Evolves F t' F') :
    s.Counterparts t ≤ s'.Counterparts t' := by
  rintro a b ⟨htext, h | ⟨k, c, d, hc, hd, ha, hb⟩⟩
  · exact ⟨htext, .inl h⟩
  · obtain ⟨c', hc', -, hpool, -⟩ := hs.member hc
    obtain ⟨d', hd', -, hpool', -⟩ := ht.member hd
    exact ⟨htext, .inr ⟨k, c', d', hc', hd', hpool ha, hpool' hb⟩⟩

theorem tag_functional (hs : s.Sound E) {tag l l' : UInt32} (h : s.Counterparts t a b)
    (h' : s.Counterparts t a' b') (ha : a.tag? = some tag) (ha' : a'.tag? = some tag)
    (hb : b.tag? = some l) (hb' : b'.tag? = some l') : l = l' := by
  have place {a b : Str} (h : s.Counterparts t a b) (ha : a.tag?.isSome) :
      ∃ (k : Nat) (c d : Cache), s.members[k]? = some c ∧ t.members[k]? = some d ∧
        c.pool.strings[a.text]? = some a ∧ d.pool.strings[a.text]? = some b := by
    obtain ⟨htext, ⟨hn, -⟩ | ⟨k, c, d, hc, hd, hca, hdb⟩⟩ := h
    · simp [hn] at ha
    · exact ⟨k, c, d, hc, hd, hca, htext ▸ hdb⟩
  obtain ⟨k, c, d, hc, hd, hca, hdb⟩ := place h (by simp [ha])
  obtain ⟨k', c', d', hc', hd', hca', hdb'⟩ := place h' (by simp [ha'])
  obtain rfl := hs.eq_of_tag? ((hs.caches hc).pool hca).1 ((hs.caches hc').pool hca').1 ha ha'
  obtain ⟨rfl, -⟩ := Explains.text_unique hs hc hc' hca hca'
  obtain rfl := Option.some.inj (hd.symm.trans hd')
  obtain rfl := Option.some.inj (hdb.symm.trans hdb')
  exact Option.some.inj (hb.symm.trans hb')

theorem provenance_functional (hs : s.Sound E) {p q q' : Provenance}
    (h : p.Matches (s.Counterparts t) q) (h' : p.Matches (s.Counterparts t) q') : q = q' := by
  cases h with
  | text cache text =>
    cases h' with
    | text => rfl
  | kept cache h =>
    cases h' with
    | kept _ h' => rw [h.functional (tag_functional hs) h']
  | own creation =>
    cases h' with
    | own => rfl

theorem provenance_eq_iff (hs : s.Sound E) (ht : t.Sound F) {p q p' q' : Provenance}
    (h : p.Matches (s.Counterparts t) q) (h' : p'.Matches (s.Counterparts t) q') :
    p = p' ↔ q = q' := by
  constructor
  · rintro rfl
    exact provenance_functional hs h h'
  · rintro rfl
    have hsymm := h.symm
    have hsymm' := h'.symm
    rw [flip_eq] at hsymm hsymm'
    exact provenance_functional ht hsymm hsymm'

end Counterparts

/-- Of two histories, the second has interned what the first has, and their strings so far are
counterparts, with provenances that match. -/
structure Alongside (s t : Caches) (ps qs : List Provenance) : Prop where
  members : Forall₂ Cache.Below s.members t.members
  handles : Forall₂ (s.Counterparts t) s.handles t.handles
  provenances : Forall₂ (Provenance.Matches (s.Counterparts t)) ps qs

theorem alongside_empty : Alongside {} {} [] [] := ⟨.nil, .nil, .nil⟩

theorem forall₂_set {α β : Type} {R : α → β → Prop} {as : List α} {bs : List β} (h : Forall₂ R as bs)
    {a : α} {b : β} (hab : R a b) (k : Nat) : Forall₂ R (as.set k a) (bs.set k b) := by
  induction h generalizing k with
  | nil => exact .nil
  | cons h hs ih =>
    cases k with
    | zero => exact .cons hab hs
    | succ k => exact .cons h (ih k)

theorem forall₂_toList {α β : Type} {R : α → β → Prop} {x : Option α} {y : Option β}
    (h : Option.Rel R x y) : Forall₂ R x.toList y.toList := by
  cases h with
  | some h => exact .cons h .nil
  | none => exact .nil

theorem counterparts_of_outcomes {s t s' t' : Caches} {E F : Set Str} {k : Nat} {c d : Cache}
    {r r' : Request Str} {a? b? : Option Str} {i j : Interner} (hs : s.Sound E) (ht : t.Sound F)
    (hc : s.members[k]? = some c) (hd : t.members[k]? = some d) (ho : c.options = d.options)
    (hr : r.Matches (s.Counterparts t) r') (ha : Request.Outcome ⟨s.supply, c⟩ E r a? i)
    (hb : Request.Outcome ⟨t.supply, d⟩ F r' b? j) (hi : i.supply.TagsLeft) (hj : j.supply.TagsLeft)
    (hc' : s'.members[k]? = some i.cache) (hd' : t'.members[k]? = some j.cache) :
    Option.Rel (s'.Counterparts t') a? b? := by
  have htext := hr.text?_eq fun hab => hab.1
  cases ha with
  | none hn =>
    rw [htext] at hn
    cases hb with
    | none => exact .none
    | special hw =>
      subst hw
      simp [Request.text?] at hn
    | made _ hm => simp [hn] at hm
  | @special which hw =>
    obtain rfl := (hr.special_iff which).1 hw
    cases hb with
    | none hn => simp [Request.text?] at hn
    | @special which' hw' =>
      obtain rfl := Request.special.inj hw'
      have hp := (hs.caches hc).special which
      have hq := (ht.caches hd).special which
      refine .some ⟨hp.text_eq.trans hq.text_eq.symm, .inr ⟨k, _, _, hc', hd', ?_, ?_⟩⟩
      · rw [hp.text_eq]
        exact hp.pooled (hp.tagged hi)
      · rw [hq.text_eq]
        exact hq.pooled (hq.tagged hj)
    | made hw' => exact absurd rfl (hw' which)
  | @made text a i hw htext' hm hi' =>
    rw [htext] at htext'
    cases hb with
    | none hn => simp [hn] at htext'
    | @special which hw' => exact absurd ((hr.special_iff which).2 hw') (hw which)
    | @made text' b j _ htext'' hm' hj' =>
      obtain rfl : text = text' := Option.some.inj (htext'.symm.trans htext'')
      have hiff := hm.tagged_iff hi
      have hiff' := hm'.tagged_iff hj
      refine .some ⟨hm.text_eq.trans hm'.text_eq.symm, ?_⟩
      by_cases hshort : text.utf8ByteSize ≤ c.options.maxLength
      · refine .inr ⟨k, _, _, hc', hd', ?_, ?_⟩
        · rw [hm.text_eq]
          exact hm.pooled (hiff.2 hshort)
        · rw [hm'.text_eq]
          exact hm'.pooled (hiff'.2 (ho ▸ hshort))
      · left
        constructor
        · simpa using mt hiff.1 hshort
        · simpa using mt hiff'.1 (ho ▸ hshort)

namespace Alongside

variable {s t s' t' : Caches} {E F E' F' : Set Str} {ps qs : List Provenance}

theorem evolve (h : s.Alongside t ps qs) (hs : s.Evolves E s' E') (ht : t.Evolves F t' F')
    (hm : Forall₂ Cache.Below s'.members t'.members) (hhs : s'.handles = s.handles)
    (hht : t'.handles = t.handles) : s'.Alongside t' ps qs where
  members := hm
  handles := by
    rw [hhs, hht]
    exact h.handles.imp fun a b hab => Counterparts.mono hs ht a b hab
  provenances := h.provenances.imp fun p q hpq => hpq.mono (Counterparts.mono hs ht)

theorem handOut (h : s.Alongside t ps qs) (hs : s.Evolves E s' E') (ht : t.Evolves F t' F')
    (hm : Forall₂ Cache.Below s'.members t'.members) {a? b? : Option Str}
    (hhs : s'.handles = s.handles ++ a?.toList) (hht : t'.handles = t.handles ++ b?.toList)
    (hab : Option.Rel (s'.Counterparts t') a? b?) {p? q? : Option Provenance}
    (hpq : Option.Rel (Provenance.Matches (s'.Counterparts t')) p? q?) :
    s'.Alongside t' (ps ++ p?.toList) (qs ++ q?.toList) where
  members := hm
  handles := by
    rw [hhs, hht]
    exact List.rel_append (h.handles.imp fun a b hab => Counterparts.mono hs ht a b hab)
      (forall₂_toList hab)
  provenances := List.rel_append (h.provenances.imp fun p q hpq => hpq.mono (Counterparts.mono hs ht))
    (forall₂_toList hpq)

theorem warm_right (h : s.Alongside t ps qs) (hs : s.Sound E) (ht : t.Sound F) (k : Nat) :
    s.Alongside ((Use.warm k).step t) ps qs := by
  rcases rel_cases (rel_getElem? h.members k) with ⟨-, hd⟩ | ⟨c, d, hc, hd, hcd⟩
  · rwa [Use.warm_of_none hd]
  · obtain ⟨F', het⟩ := ht.warm k
    obtain ⟨F'', hev⟩ := Cache.warm_evolves (ht.interner hd)
    refine h.evolve (.refl hs) het ?_ rfl (Use.handles_warm t k)
    have hset : s.members.set k c = s.members := by
      obtain ⟨hk, rfl⟩ := List.getElem?_eq_some_iff.1 hc
      exact List.set_getElem_self hk
    rw [Use.warm_of_some hd, ← hset]
    exact forall₂_set h.members (hcd.grow hev.grows) k

theorem members_step (h : s.Alongside t ps qs) (ht : t.Sound F) (use : Use)
    (hl : (use.step t).supply.TagsLeft) :
    Forall₂ Cache.Below (use.step s).members (use.step t).members := by
  cases use with
  | create options =>
    rw [Use.step_create] at hl
    rw [Use.step_create, Use.step_create]
    dsimp only at hl ⊢
    exact List.rel_append h.members (.cons (Cache.below_create ht.covers hl) .nil)
  | unique text => exact h.members
  | ask k request =>
    rcases rel_cases (rel_getElem? h.members k) with ⟨hc, hd⟩ | ⟨c, d, hc, hd, hcd⟩
    · rw [(Use.ask_of_none request (.inl hc)).1, (Use.ask_of_none request (.inl hd)).1]
      exact h.members
    rcases rel_cases (Request.resolve_matches h.handles request) with
      ⟨hr, hr'⟩ | ⟨r, r', hr, hr', hrr⟩
    · rw [(Use.ask_of_none request (.inr hr)).1, (Use.ask_of_none request (.inr hr')).1]
      exact h.members
    · rw [(Use.ask_of_some hd hr').1] at hl
      rw [(Use.ask_of_some hc hr).1, (Use.ask_of_some hd hr').1]
      have htext := hrr.text?_eq fun hab => hab.1
      have hbelow : Cache.Below (Interner.mk s.supply c).cache (Interner.mk t.supply d).cache := hcd
      exact forall₂_set h.members
        (hbelow.answer (ht.interner hd) (ht.resolve_within hr') htext hl) k
  | warm k =>
    rcases rel_cases (rel_getElem? h.members k) with ⟨hc, hd⟩ | ⟨c, d, hc, hd, hcd⟩
    · rw [Use.warm_of_none hc, Use.warm_of_none hd]
      exact h.members
    · rw [Use.warm_of_some hd] at hl
      rw [Use.warm_of_some hc, Use.warm_of_some hd]
      have hbelow : Cache.Below (Interner.mk s.supply c).cache (Interner.mk t.supply d).cache := hcd
      exact forall₂_set h.members (hbelow.warm (ht.interner hd) hl) k

theorem ask (h : s.Alongside t ps qs) (hs : s.Sound E) (ht : t.Sound F) (k : Nat)
    (request : Request Nat) (hls : ((Use.ask k request).step s).supply.TagsLeft)
    (hlt : ((Use.ask k request).step t).supply.TagsLeft) :
    ((Use.ask k request).step s).Alongside ((Use.ask k request).step t)
      (ps ++ ((Use.ask k request).provenance? s).toList)
      (qs ++ ((Use.ask k request).provenance? t).toList) := by
  rcases rel_cases (rel_getElem? h.members k) with ⟨hc, hd⟩ | ⟨c, d, hc, hd, hcd⟩
  · obtain ⟨hstep, hp⟩ := Use.ask_of_none request (.inl hc)
    obtain ⟨hstep', hp'⟩ := Use.ask_of_none request (.inl hd)
    rw [hstep, hstep', hp, hp']
    simpa using h
  rcases rel_cases (Request.resolve_matches h.handles request) with
    ⟨hr, hr'⟩ | ⟨r, r', hr, hr', hrr⟩
  · obtain ⟨hstep, hp⟩ := Use.ask_of_none (k := k) request (.inr hr)
    obtain ⟨hstep', hp'⟩ := Use.ask_of_none (k := k) request (.inr hr')
    rw [hstep, hstep', hp, hp']
    simpa using h
  · obtain ⟨E', hes⟩ := hs.ask k request
    obtain ⟨F', het⟩ := ht.ask k request
    have hm := h.members_step ht (.ask k request) hlt
    obtain ⟨hstep, hp⟩ := Use.ask_of_some hc hr
    obtain ⟨hstep', hp'⟩ := Use.ask_of_some hd hr'
    have htag {a b : Str} (hab : s.Counterparts t a b) := hab.tagged_iff hs ht
    have htext := hrr.text?_eq fun hab => hab.1
    have hout := Request.answer_outcome (hs.interner hc) (hs.resolve_within hr)
    have hout' := Request.answer_outcome (ht.interner hd) (ht.resolve_within hr')
    rw [hstep] at hes hm hls
    rw [hstep'] at het hm hlt
    rw [hstep, hstep', hp, hp', ← htext, hcd.options, h.handles.length_eq]
    refine h.handOut hes het hm rfl rfl ?_ ?_
    · exact counterparts_of_outcomes hs ht hc hd hcd.options hrr hout hout' hls hlt
        (getElem?_put_self hc) (getElem?_put_self hd)
    · cases r.text? with
      | none => exact .none
      | some text => exact .some ((hrr.provenance htag _ _ _ text).mono (Counterparts.mono hes het))

theorem step (h : s.Alongside t ps qs) (hs : s.Sound E) (ht : t.Sound F) (hcs : s.Counted)
    (hct : t.Counted) (use : Use) (hl : (use.step t).supply.TagsLeft) :
    (use.step s).Alongside (use.step t) (ps ++ (use.provenance? s).toList)
      (qs ++ (use.provenance? t).toList) := by
  have hm := h.members_step ht use hl
  have hls := (hcs.step use).tagsLeft (hct.step use) hm hl
  obtain ⟨E', hes⟩ := hs.step use
  obtain ⟨F', het⟩ := ht.step use
  cases use with
  | create options =>
    have handles (u : Caches) : ((Use.create options).step u).handles = u.handles := by
      rw [Use.step_create]
    simpa [Use.provenance?] using h.evolve hes het hm (handles s) (handles t)
  | unique text =>
    have hlen := h.handles.length_eq
    have hpq : Option.Rel (Provenance.Matches (((Use.unique text).step s).Counterparts
        ((Use.unique text).step t))) (some (.own s.handles.length)) (some (.own t.handles.length)) := by
      rw [hlen]
      exact .some (.own _)
    have handles (u : Caches) : ((Use.unique text).step u).handles =
        u.handles ++ (some (⟨text, .unique u.supply.nextAddress⟩ : Str)).toList := rfl
    exact h.handOut hes het hm (handles s) (handles t) (.some ⟨rfl, .inl ⟨rfl, rfl⟩⟩) hpq
  | ask k request => exact h.ask hs ht k request hls hl
  | warm k =>
    simpa [Use.provenance?] using
      h.evolve hes het hm (Use.handles_warm s k) (Use.handles_warm t k)

end Alongside

theorem Alongside.indistinguishable {s t : Caches} {ps qs : List Provenance} {E F : Set Str}
    (h : s.Alongside t ps qs) (hs : s.Sound E) (ht : t.Sound F) (hps : s.Traced ps)
    (hqs : t.Traced qs) {i j : Nat} {a b a' b' : Str} (ha : s.handles[i]? = some a)
    (hb : s.handles[j]? = some b) (ha' : t.handles[i]? = some a') (hb' : t.handles[j]? = some b') :
    a.equal b = a'.equal b' ∧ a.same b = a'.same b' := by
  have counterparts {n : Nat} {a a' : Str} (ha : s.handles[n]? = some a)
      (ha' : t.handles[n]? = some a') : s.Counterparts t a a' := by
    have hrel := rel_getElem? h.handles n
    rw [ha, ha'] at hrel
    cases hrel with
    | some h => exact h
  have mem {u : Caches} {G : Set Str} (hu : u.Sound G) {n : Nat} {a : Str}
      (ha : u.handles[n]? = some a) : a ∈ G := hu.handles (List.mem_of_getElem? ha)
  constructor
  · rw [Bool.eq_iff_iff, hs.equal_iff (mem hs ha) (mem hs hb), ht.equal_iff (mem ht ha') (mem ht hb'),
      (counterparts ha ha').1, (counterparts hb hb').1]
  · rw [Bool.eq_iff_iff, hps.same_iff hs ha hb, hqs.same_iff ht ha' hb']
    have hi := rel_getElem? h.provenances i
    have hj := rel_getElem? h.provenances j
    generalize ps[i]? = p?, qs[i]? = q? at hi ⊢
    generalize ps[j]? = p?', qs[j]? = q?' at hj ⊢
    cases hi with
    | none =>
      cases hj with
      | none => exact Iff.rfl
      | some h' => simp
    | some h =>
      cases hj with
      | none => simp
      | some h' =>
        rw [Option.some.injEq, Option.some.injEq]
        exact Counterparts.provenance_eq_iff hs ht h h'

end Caches

end KnightLang
