import KnightLang.Proofs.Strings.Interning
import KnightLang.Proofs.Strings.Memo

namespace KnightLang

namespace Cache

def Key.Denotes (E : Set Str) : Key → String → Prop
  | .part tag start stop, text =>
    ∃ a ∈ E, a.tag? = some tag ∧ Text.slice? a.text start stop = some text
  | .join l r, text =>
    ∃ a ∈ E, ∃ b ∈ E, a.tag? = some l ∧ b.tag? = some r ∧ text = a.text ++ b.text
  | .integer n, text => text = Decimal.ofInt n.toInt

theorem Key.Denotes.mono {E E' : Set Str} (hE : E ⊆ E') {key : Key} {text : String}
    (h : key.Denotes E text) : key.Denotes E' text := by
  cases key with
  | part tag start stop =>
    obtain ⟨a, ha, h⟩ := h
    exact ⟨a, hE ha, h⟩
  | join l r =>
    obtain ⟨a, ha, b, hb, h⟩ := h
    exact ⟨a, hE ha, b, hE hb, h⟩
  | integer n => exact h

theorem Key.Denotes.unique {s : Supply} {E : Set Str} (hE : s.Covers E) {key : Key}
    {text text' : String} (h : key.Denotes E text) (h' : key.Denotes E text') : text = text' := by
  have eq_of_tag {a b : Str} {tag : UInt32} (ha : a ∈ E) (hb : b ∈ E) (hat : a.tag? = some tag)
      (hbt : b.tag? = some tag) : a = b :=
    hE.identity ha hb (by rw [Str.identity_of_tag? hat, Str.identity_of_tag? hbt])
  cases key with
  | part tag start stop =>
    obtain ⟨a, ha, hat, hs⟩ := h
    obtain ⟨b, hb, hbt, hs'⟩ := h'
    obtain rfl := eq_of_tag ha hb hat hbt
    exact Option.some.inj (hs.symm.trans hs')
  | join l r =>
    obtain ⟨a, ha, b, hb, hat, hbt, rfl⟩ := h
    obtain ⟨a', ha', b', hb', hat', hbt', rfl⟩ := h'
    obtain rfl := eq_of_tag ha ha' hat hat'
    obtain rfl := eq_of_tag hb hb' hbt hbt'
    rfl
  | integer n => exact h.trans (Eq.symm h')

/-- Everything that a cache holds is a handle made before, with the text of its place; what it
remembers without a tag has one place only. -/
structure Sound (c : Cache) (s : Supply) (E : Set Str) : Prop where
  pool : c.pool.Holds E
  memo {key : Key} {a : Str} : c.memo? key = some a → a ∈ E ∧ key.Denotes E a.text
  pooled {key : Key} {a : Str} : c.memo? key = some a → a.tag?.isSome →
    c.pool.strings[a.text]? = some a ∧ a.text.utf8ByteSize ≤ c.options.maxLength
  long {key : Key} {a : Str} : s.TagsLeft → c.memo? key = some a → a.tag? = none →
    c.options.maxLength < a.text.utf8ByteSize
  alone {key key' : Key} {a : Str} : c.memo? key = some a → c.memo? key' = some a →
    a.tag? = none → key = key'
  special (which : Special) : c.pool.Placed s E which.word (c.special which)

theorem Sound.mono {c : Cache} {s t : Supply} {E E' : Set Str} (h : c.Sound s E) (hE : E ⊆ E')
    (ht : t.TagsLeft → s.TagsLeft) : c.Sound t E' where
  pool _ _ hp := ⟨hE (h.pool hp).1, (h.pool hp).2⟩
  memo hr := ⟨hE (h.memo hr).1, (h.memo hr).2.mono hE⟩
  pooled := h.pooled
  long hl := h.long (ht hl)
  alone := h.alone
  special which := { h.special which with
    mem := hE (h.special which).mem
    tagged := fun hl => (h.special which).tagged (ht hl) }

end Cache

namespace Interner

open Cache (Key)

structure Sound (i : Interner) (E : Set Str) : Prop where
  covers : i.supply.Covers E
  cache : i.cache.Sound i.supply E

structure Grows (i j : Interner) : Prop where
  pool : i.cache.pool.Grows i.supply j.cache.pool j.supply
  options : j.cache.options = i.cache.options
  special (which : Cache.Special) : j.cache.special which = i.cache.special which
  memo {key : Key} {a : Str} : i.cache.memo? key = some a → j.cache.memo? key = some a

theorem Grows.refl (i : Interner) : i.Grows i where
  pool := .refl _ _
  options := rfl
  special _ := rfl
  memo := id

theorem Grows.trans {i j k : Interner} (h : i.Grows j) (h' : j.Grows k) : i.Grows k where
  pool := h.pool.trans h'.pool
  options := h'.options.trans h.options
  special which := (h'.special which).trans (h.special which)
  memo hr := h'.memo (h.memo hr)

inductive Makes (i : Interner) (text : String) : Str → Interner → Prop
  | interned {a : Str} {q : Pool} {t : Supply} (short : text.utf8ByteSize ≤ i.cache.options.maxLength)
      (h : i.cache.pool.Interns i.supply text a q t) :
      Makes i text a ⟨t, { i.cache with pool := q }⟩
  | long (long : i.cache.options.maxLength < text.utf8ByteSize) :
      Makes i text ⟨text, .unique i.supply.nextAddress⟩
        ⟨{ i.supply with nextAddress := i.supply.nextAddress + 1 }, i.cache⟩

theorem string_makes (text : String) (i : Interner) :
    Makes i text ((Cache.string text : StateM Interner Str) i).1
      ((Cache.string text : StateM Interner Str) i).2 := by
  obtain ⟨supply, cache⟩ := i
  by_cases hlong : cache.options.maxLength < text.utf8ByteSize
  · simp only [Cache.string, bind, StateT.bind, getThe, MonadStateOf.get, StateT.get, pure, hlong,
      if_true]
    exact .long hlong
  · simp only [Cache.string, bind, StateT.bind, getThe, MonadStateOf.get, StateT.get, pure, hlong,
      if_false]
    exact .interned (Nat.not_lt.1 hlong) (cache.pool.intern_interns text supply)

namespace Makes

variable {i j : Interner} {text : String} {a : Str} {E : Set Str}

theorem grows (hm : Makes i text a j) : i.Grows j := by
  cases hm with
  | interned short h => exact { Grows.refl i with pool := h.grows, special := fun w => by cases w <;> rfl }
  | long => exact { Grows.refl i with pool := { Pool.Grows.refl _ _ with nextAddress := Nat.le_succ _ } }

theorem text_eq (h : i.Sound E) (hm : Makes i text a j) : a.text = text := by
  cases hm with
  | interned short hi => exact hi.text_eq h.cache.pool
  | long => rfl

theorem memo? (hm : Makes i text a j) : j.cache.memo? = i.cache.memo? := by
  cases hm <;> rfl

theorem pooled (hm : Makes i text a j) (ha : a.tag?.isSome) :
    j.cache.pool.strings[text]? = some a ∧ text.utf8ByteSize ≤ i.cache.options.maxLength := by
  cases hm with
  | interned short hi => exact ⟨hi.pooled ha, short⟩
  | long => simp [Str.tag?] at ha

theorem isSome_tag? (h : i.Sound E) (hm : Makes i text a j) (hl : j.supply.TagsLeft)
    (hs : text.utf8ByteSize ≤ i.cache.options.maxLength) : a.tag?.isSome := by
  cases hm with
  | interned short hi => exact hi.isSome_tag? h.cache.pool hl
  | long hlong => omega

theorem label_of_untagged (h : i.Sound E) (hm : Makes i text a j) (ha : a.tag? = none) :
    a.label = .unique i.supply.nextAddress := by
  cases hm with
  | interned short hi => exact hi.label_of_untagged h.cache.pool ha
  | long => rfl

theorem sound (h : i.Sound E) (hm : Makes i text a j) : j.Sound (insert a E) := by
  have hc := h.cache.mono (Set.subset_insert a E) hm.grows.pool.tagsLeft
  cases hm with
  | interned short hi =>
    refine ⟨hi.covers h.covers h.cache.pool, ?_⟩
    exact { hc with
      pool := hi.holds h.cache.pool
      pooled := fun hb hbt => ⟨hi.grows.strings (hc.pooled hb hbt).1, (hc.pooled hb hbt).2⟩
      special := fun which => (h.cache.special which).mono (Set.subset_insert a E) hi.grows }
  | long => exact ⟨h.covers.insert_unique text, hc⟩

end Makes

structure Made (i : Interner) (key? : Option Key) (text : String) (a : Str) (j : Interner) :
    Prop where
  text_eq : a.text = text
  grows : i.Grows j
  pooled : a.tag?.isSome → j.cache.pool.strings[text]? = some a
  tagged_iff : j.supply.TagsLeft →
    (a.tag?.isSome ↔ text.utf8ByteSize ≤ i.cache.options.maxLength)
  kept {key : Key} : key? = some key → j.cache.memo? key = some a
  memo {key : Key} {b : Str} : j.cache.memo? key = some b →
    i.cache.memo? key = some b ∨ key? = some key ∧ b = a
  origin : key?.bind i.cache.memo? = some a ∨
    key?.bind i.cache.memo? = none ∧
      (a.tag? = none → a.label = .unique i.supply.nextAddress)

theorem Makes.made {i j : Interner} {text : String} {a : Str} {E : Set Str} (h : i.Sound E)
    (hm : Makes i text a j) : Made i none text a j where
  text_eq := hm.text_eq h
  grows := hm.grows
  pooled ha := (hm.pooled ha).1
  tagged_iff hl := ⟨fun ha => (hm.pooled ha).2, hm.isSome_tag? h hl⟩
  kept hk := by simp at hk
  memo hr := .inl (by rwa [hm.memo?] at hr)
  origin := .inr ⟨rfl, hm.label_of_untagged h⟩

theorem Made.keep {i j : Interner} {key : Key} {text : String} {a : Str}
    (hm : Made i none text a j) (hr : i.cache.memo? key = none) (hj : j.cache.memo? key = none) :
    Made i (some key) text a { j with cache := j.cache.keep key a } where
  text_eq := hm.text_eq
  grows := hm.grows.trans
    { Grows.refl j with
      options := by simp
      special := by simp
      pool := by simpa using Pool.Grows.refl _ _
      memo := by
        intro key' b hb
        rw [Cache.memo?_keep, if_neg]
        · exact hb
        · rintro rfl
          simp [hj] at hb }
  pooled ha := by simpa using hm.pooled ha
  tagged_iff := hm.tagged_iff
  kept hk := by
    obtain rfl := Option.some.inj hk
    simp
  memo {key' b} hb := by
    rcases Cache.memo?_keep_cases hb with ⟨rfl, rfl⟩ | hb
    · exact .inr ⟨rfl, rfl⟩
    · exact .inl ((hm.memo hb).resolve_right (by simp))
  origin := .inr ⟨by simpa using hr, (hm.origin.resolve_left (by simp)).2⟩

theorem Made.notMem {i j : Interner} {key? : Option Key} {text : String} {a : Str} {E : Set Str}
    (h : i.Sound E) (hm : Made i key? text a j) (hr : key?.bind i.cache.memo? = none)
    (ha : a.tag? = none) : a ∉ E := by
  intro hE
  have hl := (hm.origin.resolve_left (by simp [hr])).2 ha
  exact absurd (h.covers.address_lt hE hl) (Nat.lt_irrefl _)

theorem Makes.sound_keep {i j : Interner} {key : Key} {text : String} {a : Str} {E : Set Str}
    (h : i.Sound E) (hm : Makes i text a j) (hkey : key.Denotes E text) :
    Sound { j with cache := j.cache.keep key a } (insert a E) := by
  have hj := hm.sound h
  have hmade := hm.made h
  have htext := hm.text_eq h
  have hfresh (ha : a.tag? = none) {key' : Key} (hk : j.cache.memo? key' = some a) : False := by
    rw [hm.memo?] at hk
    exact hmade.notMem h rfl ha (h.cache.memo hk).1
  refine ⟨hj.covers, ?_⟩
  refine { hj.cache with
    pool := ?_, memo := ?_, pooled := ?_, long := ?_, alone := ?_, special := ?_ }
  · intro text' b hb
    simp only [Cache.keep_pool] at hb ⊢
    exact hj.cache.pool hb
  · intro key' b hb
    rcases Cache.memo?_keep_cases hb with ⟨rfl, rfl⟩ | hb
    · rw [htext]
      exact ⟨Set.mem_insert _ _, hkey.mono (Set.subset_insert _ _)⟩
    · exact hj.cache.memo hb
  · intro key' b hb hbt
    simp only [Cache.keep_pool, Cache.keep_options]
    rcases Cache.memo?_keep_cases hb with ⟨-, rfl⟩ | hb
    · rw [htext, hm.grows.options]
      exact hm.pooled hbt
    · exact hj.cache.pooled hb hbt
  · intro key' b hl hb hbt
    simp only [Cache.keep_options]
    rcases Cache.memo?_keep_cases hb with ⟨-, rfl⟩ | hb
    · rw [htext, hm.grows.options]
      by_contra hs
      exact absurd (hm.isSome_tag? h hl (Nat.not_lt.1 hs)) (by simp [hbt])
    · exact hj.cache.long hl hb hbt
  · intro key' key'' b hb hb' hbt
    rcases Cache.memo?_keep_cases hb with ⟨rfl, rfl⟩ | hold
    · rcases Cache.memo?_keep_cases hb' with ⟨rfl, -⟩ | hold'
      · rfl
      · exact (hfresh hbt hold').elim
    · rcases Cache.memo?_keep_cases hb' with ⟨-, rfl⟩ | hold'
      · exact (hfresh hbt hold).elim
      · exact hj.cache.alone hold hold' hbt
  · simpa using hj.cache.special

theorem Sound.make {i : Interner} {E : Set Str} (h : i.Sound E) {key? : Option Key} {text : String}
    (hkey : ∀ key, key? = some key → key.Denotes E text) :
    Made i key? text (i.make key? text).1 (i.make key? text).2 ∧
      (i.make key? text).2.Sound (insert (i.make key? text).1 E) := by
  have hm := string_makes text i
  cases hr : key?.bind i.cache.memo? with
  | some a =>
    obtain ⟨key, hk, hmemo⟩ := Option.bind_eq_some_iff.1 hr
    obtain ⟨haE, hdenotes⟩ := h.cache.memo hmemo
    have htext : a.text = text := hdenotes.unique h.covers (hkey key hk)
    simp only [Interner.make, hr]
    refine ⟨?_, by rwa [Set.insert_eq_of_mem haE]⟩
    exact {
      text_eq := htext
      grows := .refl i
      pooled := fun ha => htext ▸ (h.cache.pooled hmemo ha).1
      tagged_iff := fun hl => by
        constructor
        · exact fun ha => htext ▸ (h.cache.pooled hmemo ha).2
        · intro hs
          by_contra ha
          have hlong := h.cache.long hl hmemo (by simpa using ha)
          rw [htext] at hlong
          omega
      kept := fun hk' => by
        obtain rfl := Option.some.inj (hk.symm.trans hk')
        exact hmemo
      memo := .inl
      origin := .inl hr }
  | none =>
    simp only [Interner.make, hr]
    cases key? with
    | none => exact ⟨hm.made h, hm.sound h⟩
    | some key =>
      have hkr : i.cache.memo? key = none := by simpa using hr
      have hjr := hkr
      rw [← hm.memo?] at hjr
      exact ⟨(hm.made h).keep hkr hjr, hm.sound_keep h (hkey key rfl)⟩

structure Evolves (i : Interner) (E : Set Str) (j : Interner) (E' : Set Str) : Prop where
  grows : i.Grows j
  sound : j.Sound E'
  subset : E ⊆ E'
  owned {a : Str} : a ∈ E' → a ∉ E → a.tag?.isSome → j.cache.pool.strings[a.text]? = some a
  memo {key : Key} {a : Str} : j.cache.memo? key = some a → a.tag? = none → a ∈ E →
    i.cache.memo? key = some a

theorem Evolves.refl {i : Interner} {E : Set Str} (h : i.Sound E) : i.Evolves E i E where
  grows := .refl i
  sound := h
  subset := Set.Subset.rfl
  owned ha hn := absurd ha hn
  memo hr _ _ := hr

theorem Evolves.trans {i j k : Interner} {E E' E'' : Set Str} (h : i.Evolves E j E')
    (h' : j.Evolves E' k E'') : i.Evolves E k E'' where
  grows := h.grows.trans h'.grows
  sound := h'.sound
  subset := h.subset.trans h'.subset
  owned {a} ha hn ht := by
    by_cases ha' : a ∈ E'
    · exact h'.grows.pool.strings (h.owned ha' hn ht)
    · exact h'.owned ha ha' ht
  memo hr ht ha := h.memo (h'.memo hr ht (h.subset ha)) ht ha

theorem Made.evolves {i j : Interner} {E : Set Str} {key? : Option Key} {text : String} {a : Str}
    (h : i.Sound E) (hm : Made i key? text a j) (hj : j.Sound (insert a E)) :
    i.Evolves E j (insert a E) where
  grows := hm.grows
  sound := hj
  subset := Set.subset_insert a E
  owned {b} hb hn ht := by
    obtain rfl := hb.resolve_right hn
    rw [hm.text_eq]
    exact hm.pooled ht
  memo {key b} hr ht hb := by
    rcases hm.memo hr with hold | ⟨hk, rfl⟩
    · exact hold
    · rcases hm.origin with hold | ⟨hnew, -⟩
      · rwa [hk, Option.bind_some] at hold
      · exact absurd hb (hm.notMem h hnew ht)

end Interner

namespace Cache

variable {i : Interner} {E : Set Str}

theorem denotes_partKey? {s : Str} {start stop : Nat} {text : String} (hs : s ∈ E)
    (ht : Text.slice? s.text start stop = some text) (key : Key)
    (hk : partKey? s start stop = some key) : key.Denotes E text := by
  obtain ⟨tag, htag, rfl⟩ := Option.map_eq_some_iff.1 hk
  exact ⟨s, hs, htag, ht⟩

theorem denotes_joinKey? {left right : Str} (hl : left ∈ E) (hr : right ∈ E) (key : Key)
    (hk : joinKey? left right = some key) : key.Denotes E (left.text ++ right.text) := by
  unfold joinKey? at hk
  split at hk
  · rename_i l r htl htr
    obtain rfl := Option.some.inj hk
    exact ⟨left, hl, right, hr, htl, htr, rfl⟩
  · simp at hk

theorem denotes_integer (n : Int64) (key : Key) (hk : some (Key.integer n) = some key) :
    key.Denotes E (Decimal.ofInt n.toInt) := by
  obtain rfl := Option.some.inj hk
  rfl

theorem intString_evolves (h : i.Sound E) (n : Int64) :
    ∃ E', i.Evolves E ((intString n : StateM Interner Str) i).2 E' := by
  obtain ⟨hm, hj⟩ := h.make (denotes_integer n)
  rw [intString_eq_make]
  exact ⟨_, hm.evolves h hj⟩

theorem warm_evolves (h : i.Sound E) :
    ∃ E', i.Evolves E ((warm : StateM Interner Unit) i).2 E' := by
  change ∃ E', i.Evolves E ((List.forM (range i.cache.options.least i.cache.options.greatest)
    fun n => discard (intString n : StateM Interner Str)) i).2 E'
  induction range i.cache.options.least i.cache.options.greatest generalizing i E with
  | nil => exact ⟨E, .refl h⟩
  | cons n ns ih =>
    obtain ⟨E', h'⟩ := intString_evolves h n
    obtain ⟨E'', h''⟩ := ih h'.sound
    exact ⟨E'', h'.trans h''⟩

structure Created (options : CacheOptions) (s : Supply) (E : Set Str) (c : Cache) (t : Supply)
    (E' : Set Str) : Prop where
  covers : t.Covers E'
  sound : c.Sound t E'
  subset : E ⊆ E'
  owned {a : Str} : a ∈ E' → a ∉ E → a.tag?.isSome → c.pool.strings[a.text]? = some a
  memo (key : Key) : c.memo? key = none
  options_eq : c.options = options
  number : c.pool.number = s.nextPool
  nextPool : t.nextPool = s.nextPool + 1
  nextTag : s.nextTag.toNat ≤ t.nextTag.toNat
  tagsLeft : t.TagsLeft → s.TagsLeft
  took : s.TagsLeft → s.nextTag.toNat + 1 ≤ t.nextTag.toNat
  spent {text : String} : ¬ s.TagsLeft → c.pool.strings[text]? = none

theorem memo?_new (options : CacheOptions) (pool : Pool) (empty null yes no : Str) (key : Key) :
    memo? { options, pool, empty, null, yes, no } key = none := by
  cases key with
  | part tag start stop => simp only [memo?]; split <;> simp
  | join l r => simp [memo?]
  | integer n => simp [memo?]

theorem sound_new {options : CacheOptions} {pool : Pool} {empty null yes no : Str} {s : Supply}
    {E : Set Str} (hp : pool.Holds E)
    (hs : ∀ which, pool.Placed s E which.word
      (special { options, pool, empty, null, yes, no } which)) :
    Sound { options, pool, empty, null, yes, no } s E where
  pool := hp
  memo h := by simp [memo?_new] at h
  pooled h := by simp [memo?_new] at h
  long _ h := by simp [memo?_new] at h
  alone h := by simp [memo?_new] at h
  special := hs

theorem create_interns (options : CacheOptions) (s : Supply) :
    ∃ a₁ p₁ s₁ a₂ p₂ s₂ a₃ p₃ s₃ a₄ p₄ s₄,
      Pool.Interns ⟨s.nextPool, ∅⟩ { s with nextPool := s.nextPool + 1 } "" a₁ p₁ s₁ ∧
      p₁.Interns s₁ "null" a₂ p₂ s₂ ∧ p₂.Interns s₂ "true" a₃ p₃ s₃ ∧
      p₃.Interns s₃ "false" a₄ p₄ s₄ ∧ create options s =
        ({ options, pool := p₄, empty := a₁, null := a₂, yes := a₃, no := a₄ }, s₄) := by
  rcases hi₁ : Pool.intern "" ⟨s.nextPool, ∅⟩ { s with nextPool := s.nextPool + 1 } with ⟨a₁, p₁, s₁⟩
  rcases hi₂ : p₁.intern "null" s₁ with ⟨a₂, p₂, s₂⟩
  rcases hi₃ : p₂.intern "true" s₂ with ⟨a₃, p₃, s₃⟩
  rcases hi₄ : p₃.intern "false" s₃ with ⟨a₄, p₄, s₄⟩
  refine ⟨a₁, p₁, s₁, a₂, p₂, s₂, a₃, p₃, s₃, a₄, p₄, s₄, ?_, ?_, ?_, ?_, ?_⟩
  · simpa only [hi₁] using Pool.intern_interns "" ⟨s.nextPool, ∅⟩ { s with nextPool := s.nextPool + 1 }
  · simpa only [hi₂] using p₁.intern_interns "null" s₁
  · simpa only [hi₃] using p₂.intern_interns "true" s₂
  · simpa only [hi₄] using p₃.intern_interns "false" s₃
  · simp only [create, Supply.takePool]
    rw [hi₁]
    simp only [hi₂, hi₃, hi₄]

theorem create_created (options : CacheOptions) {s : Supply} {E : Set Str} (hs : s.Covers E) :
    ∃ E', Created options s E (create options s).1 (create options s).2 E' := by
  let p₀ : Pool := ⟨s.nextPool, ∅⟩
  let s₀ : Supply := { s with nextPool := s.nextPool + 1 }
  have f₀ : p₀.Fills s₀ E p₀ s₀ E :=
    .refl (hs.mono le_rfl le_rfl) fun text a h => by simp [p₀] at h
  obtain ⟨a₁, p₁, s₁, a₂, p₂, s₂, a₃, p₃, s₃, a₄, p₄, s₄, h₁, h₂, h₃, h₄, hcreate⟩ :=
    create_interns options s
  have f₁ := f₀.intern h₁
  have f₂ := f₁.intern h₂
  have f₃ := f₂.intern h₃
  have f₄ := f₃.intern h₄
  have g₃ := h₃.grows.trans h₄.grows
  have g₂ := h₂.grows.trans g₃
  rw [hcreate]
  refine ⟨_, f₄.covers, sound_new f₄.holds fun which => ?_, f₄.subset, f₄.owned,
    memo?_new options p₄ a₁ a₂ a₃ a₄, rfl, f₄.grows.number, f₄.grows.nextPool, f₄.grows.nextTag,
    f₄.grows.tagsLeft, fun hl => ?_, fun hl => ?_⟩
  · cases which with
    | empty => exact (h₁.placed f₀.holds).mono (fun b hb => .inr (.inr (.inr hb))) g₂
    | null => exact (h₂.placed f₁.holds).mono (fun b hb => .inr (.inr hb)) g₃
    | yes => exact (h₃.placed f₂.holds).mono (fun b hb => .inr hb) h₄.grows
    | no => exact h₄.placed f₃.holds
  · have htook := h₁.took (by simp) hl
    exact htook.trans g₂.nextTag
  · change p₄.strings[_]? = none
    rw [f₄.grows.spent hl]
    simp [p₀]

end Cache

end KnightLang
