import KnightLang.Proofs.Lockstep.Linking

namespace KnightLang

open Cache (Key)

inductive Cache.Key.Matches (w : Pairing) : Key → Key → Prop
  | part {a b : Str} {k l : UInt32} (h : w a b) (ha : a.tag? = some k) (hb : b.tag? = some l)
      (start stop : Nat) : Key.Matches w (.part k start stop) (.part l start stop)
  | join {a b a' b' : Str} {k l k' l' : UInt32} (h : w a b) (h' : w a' b') (ha : a.tag? = some k)
      (hb : b.tag? = some l) (ha' : a'.tag? = some k') (hb' : b'.tag? = some l') :
      Key.Matches w (.join k k') (.join l l')
  | integer (n : Int64) : Key.Matches w (.integer n) (.integer n)

theorem Cache.Key.Matches.mono {w w' : Pairing} (hw : w ≤ w') {k l : Key} (h : k.Matches w l) :
    k.Matches w' l := by
  cases h with
  | part h ha hb start stop => exact .part (hw _ _ h) ha hb start stop
  | join h h' ha hb ha' hb' => exact .join (hw _ _ h) (hw _ _ h') ha hb ha' hb'
  | integer n => exact .integer n

theorem Cache.Key.Matches.symm {w : Pairing} {k l : Key} (h : k.Matches w l) :
    l.Matches (flip w) k := by
  have turn {a b : Str} (h : w a b) : flip w b a := h
  cases h with
  | part h ha hb start stop => exact .part (turn h) hb ha start stop
  | join h h' ha hb ha' hb' => exact .join (turn h) (turn h') hb ha hb' ha'
  | integer n => exact .integer n

theorem Cache.Key.Matches.functional {w : Pairing}
    (htag : ∀ {a b a' b' : Str} {k l l' : UInt32}, w a b → w a' b' → a.tag? = some k →
      a'.tag? = some k → b.tag? = some l → b'.tag? = some l' → l = l') {k l l' : Key}
    (h : k.Matches w l) (h' : k.Matches w l') : l = l' := by
  cases h with
  | part hab ha hb start stop =>
    cases h' with
    | part hab' ha' hb' _ _ => rw [htag hab hab' ha ha' hb hb']
  | join hab hcd ha hb hc hd =>
    cases h' with
    | join hab' hcd' ha' hb' hc' hd' => rw [htag hab hab' ha ha' hb hb', htag hcd hcd' hc hc' hd hd']
  | integer n =>
    cases h' with
    | integer => rfl

def Pairing.add (w : Pairing) (u v : Str) : Pairing := fun a b => w a b ∨ a = u ∧ b = v

namespace Pairing

variable {w : Pairing} {u v : Str}

theorem le_add : w ≤ w.add u v := fun _ _ => .inl

theorem add_self : w.add u v u v := .inr ⟨rfl, rfl⟩

theorem flip_add : flip (w.add u v) = Pairing.add (flip w) v u := by
  funext b a
  simp only [flip, add, and_comm]

end Pairing

namespace Interner

structure Follows (w : Pairing) (i : Interner) (E : Set Str) (j : Interner) : Prop where
  mem {a b : Str} : w a b → a ∈ E
  pooled {a b : Str} : w a b → a.tag?.isSome → i.cache.pool.strings[a.text]? = some a
  functional {a b b' : Str} : w a b → w a b' → b = b'
  memo {a b : Str} {key : Key} : w a b → a.tag? = none → i.cache.memo? key = some a →
    ∃ key', key.Matches w key' ∧ j.cache.memo? key' = some b

/-- Sound caches that have each other's counterparts. -/
structure Twins (w : Pairing) (i : Interner) (E : Set Str) (j : Interner) (E' : Set Str) : Prop where
  left : i.Sound E
  right : j.Sound E'
  options : i.cache.options = j.cache.options
  text {a b : Str} : w a b → a.text = b.text
  tagged {a b : Str} : w a b → (a.tag?.isSome ↔ b.tag?.isSome)
  forward : i.Follows w E j
  backward : j.Follows (flip w) E' i

variable {w : Pairing} {i j i' j' : Interner} {E E' : Set Str}

theorem Twins.symm (h : Twins w i E j E') : Twins (flip w) j E' i E where
  left := h.right
  right := h.left
  options := h.options.symm
  text hab := (h.text hab).symm
  tagged hab := (h.tagged hab).symm
  forward := h.backward
  backward := h.forward

theorem twins_of_sound (hi : i.Sound E) (hj : j.Sound E')
    (ho : i.cache.options = j.cache.options) : Twins (fun _ _ => False) i E j E' where
  left := hi
  right := hj
  options := ho
  text := nofun
  tagged := nofun
  forward := ⟨nofun, nofun, nofun, nofun⟩
  backward := ⟨nofun, nofun, nofun, nofun⟩

namespace Follows

theorem tag_functional (h : i.Follows w E j) (hE : i.supply.Covers E) {a b a' b' : Str} {k l l' : UInt32}
    (hab : w a b) (hab' : w a' b') (ha : a.tag? = some k) (ha' : a'.tag? = some k)
    (hb : b.tag? = some l) (hb' : b'.tag? = some l') : l = l' := by
  have haa : a = a' := hE.identity (h.mem hab) (h.mem hab')
    (by rw [Str.identity_of_tag? ha, Str.identity_of_tag? ha'])
  subst haa
  obtain rfl := h.functional hab hab'
  exact Option.some.inj (hb.symm.trans hb')

theorem key_functional (h : i.Follows w E j) (hE : i.supply.Covers E) {k l l' : Key}
    (hl : k.Matches w l) (hl' : k.Matches w l') : l = l' :=
  hl.functional (h.tag_functional hE) hl'

end Follows

theorem Twins.eq_of_made (h : Twins w i E j E') {key? key?' : Option Key} {text : String} {u v b : Str}
    (hkey : Option.Rel (Key.Matches w) key? key?') (hm : Made i key? text u i')
    (hm' : Made j key?' text v j') (htag : u.tag?.isSome ↔ v.tag?.isSome) (hub : w u b) : b = v := by
  cases hu : u.tag? with
  | some tag =>
    have hb : b.tag?.isSome := (h.tagged hub).1 (by simp [hu])
    have hpool := hm'.grows.pool.strings (h.backward.pooled hub hb)
    rw [← h.text hub, hm.text_eq, hm'.pooled (htag.1 (by simp [hu]))] at hpool
    exact (Option.some.inj hpool).symm
  | none =>
    rcases hm.origin with hold | ⟨hnew, -⟩
    · cases hkey with
      | none => simp at hold
      | some hk =>
        obtain ⟨key'', hk'', hr⟩ := h.forward.memo hub hu hold
        obtain rfl := h.forward.key_functional h.left.covers hk hk''
        exact Option.some.inj ((hm'.grows.memo hr).symm.trans (hm'.kept rfl))
    · exact absurd (h.forward.mem hub) (hm.notMem h.left hnew hu)

theorem Twins.follows_made (h : Twins w i E j E') {key? key?' : Option Key} {text : String} {u v : Str}
    (hkey : Option.Rel (Key.Matches w) key? key?') (hm : Made i key? text u i')
    (hm' : Made j key?' text v j') (hi : i'.Sound (insert u E))
    (htag : u.tag?.isSome ↔ v.tag?.isSome) : i'.Follows (w.add u v) (insert u E) j' where
  mem hab := by
    rcases hab with hab | ⟨rfl, -⟩
    · exact .inr (h.forward.mem hab)
    · exact .inl rfl
  pooled hab ha := by
    rcases hab with hab | ⟨rfl, -⟩
    · exact hm.grows.pool.strings (h.forward.pooled hab ha)
    · rw [hm.text_eq]
      exact hm.pooled ha
  functional hab hab' := by
    rcases hab with hab | ⟨rfl, rfl⟩
    · rcases hab' with hab' | ⟨rfl, rfl⟩
      · exact h.forward.functional hab hab'
      · exact h.eq_of_made hkey hm hm' htag hab
    · rcases hab' with hab' | ⟨-, rfl⟩
      · exact (h.eq_of_made hkey hm hm' htag hab').symm
      · rfl
  memo {a b key} hab ha hr := by
    have kept (hk : key? = some key) : ∃ key', key.Matches (w.add u v) key' ∧
        j'.cache.memo? key' = some v := by
      subst hk
      cases hkey with
      | some hk => exact ⟨_, hk.mono Pairing.le_add, hm'.kept rfl⟩
    rcases hab with hab | ⟨rfl, rfl⟩
    · rcases hm.memo hr with hold | ⟨hk, rfl⟩
      · obtain ⟨key', hk', hr'⟩ := h.forward.memo hab ha hold
        exact ⟨key', hk'.mono Pairing.le_add, hm'.grows.memo hr'⟩
      · obtain rfl := h.eq_of_made hkey hm hm' htag hab
        exact kept hk
    · cases hk : key? with
      | some k =>
        obtain rfl := hi.cache.alone hr (hm.kept hk) ha
        exact kept hk
      | none =>
        subst hk
        have hold := (hm.memo hr).resolve_right (by simp)
        exact absurd (h.left.cache.memo hold).1 (hm.notMem h.left rfl ha)

theorem rel_symm {key? key?' : Option Key} (h : Option.Rel (Key.Matches w) key? key?') :
    Option.Rel (Key.Matches (flip w)) key?' key? := by
  cases h with
  | some h => exact .some h.symm
  | none => exact .none

theorem Twins.made (h : Twins w i E j E') {key? key?' : Option Key} {text : String} {u v : Str}
    (hkey : Option.Rel (Key.Matches w) key? key?') (hm : Made i key? text u i')
    (hm' : Made j key?' text v j') (hi : i'.Sound (insert u E)) (hj : j'.Sound (insert v E'))
    (hil : i'.supply.TagsLeft) (hjl : j'.supply.TagsLeft) :
    Twins (w.add u v) i' (insert u E) j' (insert v E') := by
  have htag : u.tag?.isSome ↔ v.tag?.isSome := by
    rw [hm.tagged_iff hil, hm'.tagged_iff hjl, h.options]
  refine ⟨hi, hj, ?_, ?_, ?_, h.follows_made hkey hm hm' hi htag, ?_⟩
  · rw [hm.grows.options, hm'.grows.options, h.options]
  · rintro a b (hab | ⟨rfl, rfl⟩)
    · exact h.text hab
    · rw [hm.text_eq, hm'.text_eq]
  · rintro a b (hab | ⟨rfl, rfl⟩)
    · exact h.tagged hab
    · exact htag
  · rw [Pairing.flip_add]
    exact h.symm.follows_made (rel_symm hkey) hm' hm hj htag.symm

theorem Twins.follows_special (h : Twins w i E j E') (which : Cache.Special)
    (hi : i.supply.TagsLeft) (hj : j.supply.TagsLeft) :
    i.Follows (w.add (i.cache.special which) (j.cache.special which)) E j := by
  have hu := h.left.cache.special which
  have hv := h.right.cache.special which
  have eq_special {b : Str} (hab : w (i.cache.special which) b) :
      b = j.cache.special which := by
    have hb := h.backward.pooled hab ((h.tagged hab).1 (hu.tagged hi))
    rw [← h.text hab, hu.text_eq, hv.pooled (hv.tagged hj)] at hb
    exact (Option.some.inj hb).symm
  refine ⟨?_, ?_, ?_, ?_⟩
  · rintro a b (hab | ⟨rfl, -⟩)
    · exact h.forward.mem hab
    · exact hu.mem
  · rintro a b (hab | ⟨rfl, -⟩) ha
    · exact h.forward.pooled hab ha
    · rw [hu.text_eq]
      exact hu.pooled ha
  · rintro a b b' (hab | ⟨rfl, rfl⟩) (hab' | ⟨he, rfl⟩)
    · exact h.forward.functional hab hab'
    · exact eq_special (he ▸ hab)
    · exact (eq_special hab').symm
    · rfl
  · rintro a b key (hab | ⟨rfl, -⟩) ha hr
    · obtain ⟨key', hk, hr'⟩ := h.forward.memo hab ha hr
      exact ⟨key', hk.mono Pairing.le_add, hr'⟩
    · simpa [ha] using hu.tagged hi

theorem Twins.special (h : Twins w i E j E') (which : Cache.Special)
    (hi : i.supply.TagsLeft) (hj : j.supply.TagsLeft) :
    Twins (w.add (i.cache.special which) (j.cache.special which)) i E j E' := by
  have hu := h.left.cache.special which
  have hv := h.right.cache.special which
  refine ⟨h.left, h.right, h.options, ?_, ?_, h.follows_special which hi hj, ?_⟩
  · rintro a b (hab | ⟨rfl, rfl⟩)
    · exact h.text hab
    · rw [hu.text_eq, hv.text_eq]
  · rintro a b (hab | ⟨rfl, rfl⟩)
    · exact h.tagged hab
    · simp only [hu.tagged hi, hv.tagged hj]
  · rw [Pairing.flip_add]
    exact h.symm.follows_special which hj hi

theorem Sound.equal_of_pooled (h : i.Sound E) {a a' : Str}
    (ha : i.cache.pool.strings[a.text]? = some a) (ha' : i.cache.pool.strings[a'.text]? = some a') :
    a.equal a' = true ↔ a = a' := by
  obtain ⟨hE, -, tag, hl⟩ := h.cache.pool ha
  obtain ⟨hE', -, tag', hl'⟩ := h.cache.pool ha'
  simp only [Str.equal, hl, hl']
  by_cases ht : tag = tag'
  · subst ht
    simp only [if_true, true_iff]
    exact h.covers.identity hE hE' (by simp [Str.identity, hl, hl'])
  · simp only [ht, if_false, if_true, Bool.false_eq_true, false_iff]
    rintro rfl
    rw [hl] at hl'
    exact ht (Label.interned.inj hl').1

theorem equal_of_untagged {a a' : Str} (h : a.tag? = none ∨ a'.tag? = none) :
    a.equal a' = decide (a.text = a'.text) := by
  simp only [Str.tag?_eq_none_iff] at h
  rcases h with ⟨n, hn⟩ | ⟨n, hn⟩
  · simp [Str.equal, hn]
  · simp only [Str.equal, hn]
    cases a.label <;> rfl

theorem Twins.faithful (h : Twins w i E j E') : w.Faithful where
  text := h.text
  identity {a b a' b'} hab hab' := by
    constructor
    · intro he
      obtain rfl := h.left.covers.identity (h.forward.mem hab) (h.forward.mem hab') he
      rw [h.forward.functional hab hab']
    · intro he
      obtain rfl := h.right.covers.identity (h.backward.mem hab) (h.backward.mem hab') he
      rw [h.backward.functional hab hab']
  equal {a b a' b'} hab hab' := by
    by_cases ht : a.tag?.isSome ∧ a'.tag?.isSome
    · obtain ⟨ha, ha'⟩ := ht
      rw [Bool.eq_iff_iff,
        h.left.equal_of_pooled (h.forward.pooled hab ha) (h.forward.pooled hab' ha'),
        h.right.equal_of_pooled (h.backward.pooled hab ((h.tagged hab).1 ha))
          (h.backward.pooled hab' ((h.tagged hab').1 ha'))]
      constructor
      · rintro rfl
        exact h.forward.functional hab hab'
      · rintro rfl
        exact h.backward.functional hab hab'
    · have untagged {a a' : Str} (ht : ¬ (a.tag?.isSome ∧ a'.tag?.isSome)) :
          a.tag? = none ∨ a'.tag? = none := by
        rwa [not_and_or, Option.not_isSome_iff_eq_none, Option.not_isSome_iff_eq_none] at ht
      have ht' := ht
      rw [h.tagged hab, h.tagged hab'] at ht'
      rw [equal_of_untagged (untagged ht), equal_of_untagged (untagged ht'), h.text hab, h.text hab']

end Interner

namespace Request.Matches

variable {w : Pairing} {r r' : Request Str}

theorem text?_eq (h : r.Matches w r') (hw : ∀ {a b : Str}, w a b → a.text = b.text) :
    r.text? = r'.text? := by
  cases h with
  | part h start stop => simp only [Request.text?, hw h]
  | join h h' => simp only [Request.text?, hw h, hw h']
  | _ => rfl

theorem within {E : Set Str} (h : r.Matches w r') (hE : ∀ {a b : Str}, w a b → a ∈ E) :
    r.Within E := by
  cases h with
  | part h start stop => exact hE h
  | join h h' => exact ⟨hE h, hE h'⟩
  | _ => trivial

theorem symm (h : r.Matches w r') : r'.Matches (flip w) r := by
  have turn {a b : Str} (h : w a b) : flip w b a := h
  cases h with
  | text t => exact .text t
  | ownedText t => exact .ownedText t
  | special which => exact .special which
  | part h start stop => exact .part (turn h) start stop
  | join h h' => exact .join (turn h) (turn h')
  | integer n => exact .integer n

theorem special_iff (h : r.Matches w r') (which : Cache.Special) :
    r = .special which ↔ r' = .special which := by
  cases h <;> simp

theorem keys (h : r.Matches w r')
    (htag : ∀ {a b : Str}, w a b → (a.tag?.isSome ↔ b.tag?.isSome)) :
    Option.Rel (Key.Matches w) r.key? r'.key? := by
  have tags {a b : Str} (hab : w a b) : (∃ k l, a.tag? = some k ∧ b.tag? = some l) ∨
      a.tag? = none ∧ b.tag? = none := by
    have hiff := htag hab
    cases ha : a.tag? <;> cases hb : b.tag? <;> simp [ha, hb] at hiff ⊢
  cases h with
  | @part a b hab start stop =>
    rcases tags hab with ⟨k, l, ha, hb⟩ | ⟨ha, hb⟩
    · simp only [Request.key?, Cache.partKey?, ha, hb, Option.map_some]
      exact .some (.part hab ha hb start stop)
    · simp only [Request.key?, Cache.partKey?, ha, hb]
      exact .none
  | @join a b a' b' hab hab' =>
    rcases tags hab with ⟨k, l, ha, hb⟩ | ⟨ha, hb⟩
    · rcases tags hab' with ⟨k', l', ha', hb'⟩ | ⟨ha', hb'⟩
      · simp only [Request.key?, Cache.joinKey?, ha, hb, ha', hb']
        exact .some (.join hab hab' ha hb ha' hb')
      · simp only [Request.key?, Cache.joinKey?, ha, hb, ha', hb']
        exact .none
    · simp only [Request.key?, Cache.joinKey?, ha, hb]
      exact .none
  | integer n => exact .some (.integer n)
  | _ => exact .none

end Request.Matches

theorem Interner.Twins.answer {w : Pairing} {i j : Interner} {E E' : Set Str} (h : Twins w i E j E')
    {r r' : Request Str} (hr : r.Matches w r') (hi : (r.answer i).2.supply.TagsLeft)
    (hj : (r'.answer j).2.supply.TagsLeft) :
    ∃ w' F F', w ≤ w' ∧ Twins w' (r.answer i).2 F (r'.answer j).2 F' ∧
      Options Strings w' (r.answer i).1 (r'.answer j).1 := by
  have htext := hr.text?_eq h.text
  have hkey := hr.keys h.tagged
  have hout := Request.answer_outcome h.left (hr.within h.forward.mem)
  have hout' := Request.answer_outcome h.right (hr.symm.within h.backward.mem)
  generalize r.answer i = x at hi hout ⊢
  generalize r'.answer j = y at hj hout' ⊢
  obtain ⟨a?, i'⟩ := x
  obtain ⟨b?, j'⟩ := y
  dsimp only at hi hj hout hout' ⊢
  cases hout with
  | none hn =>
    rw [htext] at hn
    cases hout' with
    | none => exact ⟨w, E, E', le_rfl, h, .none⟩
    | special hs' =>
      subst hs'
      simp [Request.text?] at hn
    | made _ ht' _ _ => simp [hn] at ht'
  | @special which hs =>
    have hs' := (hr.special_iff which).1 hs
    subst hs'
    cases hout' with
    | none hn' => simp [Request.text?] at hn'
    | special hs' =>
      obtain rfl := Request.special.inj hs'
      exact ⟨_, E, E', Pairing.le_add, h.special which hi hj, .some Pairing.add_self⟩
    | made hs' _ _ _ => exact absurd rfl (hs' which)
  | @made text a i' hs ht hm hmi =>
    rw [htext] at ht
    cases hout' with
    | none hn' => simp [hn'] at ht
    | @special which hs' => exact absurd ((hr.special_iff which).2 hs') (hs which)
    | @made text' b j' _ ht' hm' hmj =>
      obtain rfl : text = text' := Option.some.inj (ht.symm.trans ht')
      exact ⟨_, _, _, Pairing.le_add, h.made hkey hm hm' hmi hmj hi hj, .some Pairing.add_self⟩

def Link.twins : Link where
  strict := True
  like w i j := ∃ E E', Interner.Twins w i E j E'

theorem Link.lawful_twins : Link.twins.Lawful where
  faithful := by
    rintro w i j ⟨E, E', h⟩
    exact h.faithful
  options := by
    rintro w i j ⟨E, E', h⟩
    exact h.options
  answer {w r r'} d hr := by
    rintro w₁ i j hw ⟨E, E', h⟩ hi hj
    obtain ⟨w₂, F, F', hw₂, hF, ho⟩ := h.answer (hr.mono hw) (hi trivial) (hj trivial)
    exact ⟨w₂, hw₂, ⟨F, F', hF⟩, ho⟩

end KnightLang
