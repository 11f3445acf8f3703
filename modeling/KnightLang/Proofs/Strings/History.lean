import KnightLang.Proofs.Strings.Making

/-!
Histories of several caches that draw on one supply: any caches are made with any options, and each is
asked for handles, with operands that came from any of them. Main statement: whatever happened, every
cache is sound, each tag was given by one pool for one text, and pools that hold anything differ in
their numbers, even where the counters of tags and pools have run out or started again.
-/
namespace KnightLang

open Std (TreeMap)
open Cache (Key Special)

/-- What a cache can be asked for; the operands are strings or the places of strings. -/
inductive Request (α : Type)
  | text (text : String)
  | ownedText (text : String)
  | special (which : Special)
  | part (source : α) (start stop : Nat)
  | join (left right : α)
  | integer (n : Int64)

namespace Request

def resolve (handles : List Str) : Request Nat → Option (Request Str)
  | .text t => some (.text t)
  | .ownedText t => some (.ownedText t)
  | .special which => some (.special which)
  | .part source start stop => handles[source]?.map (.part · start stop)
  | .join left right =>
    match handles[left]?, handles[right]? with
    | some l, some r => some (.join l r)
    | _, _ => none
  | .integer n => some (.integer n)

def ask {m : Type → Type} [Monad m] [MonadStateOf Interner m] [Guarded m] :
    Request Str → m (Option Str)
  | .text t => some <$> Cache.string t
  | .ownedText t => some <$> Cache.ownedString t
  | .special .empty => some <$> Cache.emptyString
  | .special .null => some <$> Cache.nullString
  | .special .yes => some <$> Cache.boolString true
  | .special .no => some <$> Cache.boolString false
  | .part source start stop => Cache.substring source start stop
  | .join left right => some <$> Cache.concat left right
  | .integer n => some <$> Cache.intString n

def answer (r : Request Str) : StateM Interner (Option Str) := r.ask

def Within (E : Set Str) : Request Str → Prop
  | .part source _ _ => source ∈ E
  | .join left right => left ∈ E ∧ right ∈ E
  | _ => True

def text? : Request Str → Option String
  | .text t | .ownedText t => some t
  | .special which => some which.word
  | .part source start stop => Text.slice? source.text start stop
  | .join left right => some (left.text ++ right.text)
  | .integer n => some (Decimal.ofInt n.toInt)

def key? : Request Str → Option Key
  | .part source start stop => Cache.partKey? source start stop
  | .join left right => Cache.joinKey? left right
  | .integer n => some (.integer n)
  | _ => none

inductive Outcome (i : Interner) (E : Set Str) (r : Request Str) : Option Str → Interner → Prop
  | none (h : r.text? = none) : Outcome i E r none i
  | special {which : Special} (h : r = .special which) :
      Outcome i E r (some (i.cache.special which)) i
  | made {text : String} {a : Str} {j : Interner} (h : ∀ which, r ≠ .special which)
      (htext : r.text? = some text) (hm : i.Made r.key? text a j) (hj : j.Sound (insert a E)) :
      Outcome i E r (some a) j

theorem denotes {E : Set Str} {r : Request Str} (hr : r.Within E) {text : String}
    (ht : r.text? = some text) (key : Key) (hk : r.key? = some key) : key.Denotes E text := by
  cases r with
  | part source start stop => exact Cache.denotes_partKey? hr ht key hk
  | join left right =>
    obtain rfl := Option.some.inj ht
    exact Cache.denotes_joinKey? hr.1 hr.2 key hk
  | integer n =>
    obtain rfl := Option.some.inj ht
    exact Cache.denotes_integer n key hk
  | _ => simp [key?] at hk

theorem answer_outcome {i : Interner} {E : Set Str} (h : i.Sound E) {r : Request Str}
    (hr : r.Within E) : Outcome i E r (r.answer i).1 (r.answer i).2 := by
  have made {text : String} (hs : ∀ which, r ≠ .special which) (ht : r.text? = some text) :
      Outcome i E r (some (i.make r.key? text).1) (i.make r.key? text).2 :=
    have hm := h.make (denotes hr ht)
    .made hs ht hm.1 hm.2
  cases r with
  | text t => exact made nofun rfl
  | ownedText t =>
    simp only [answer, ask, Cache.ownedString_eq_string]
    exact made nofun rfl
  | special which =>
    cases which with
    | empty => exact .special (i := i) rfl
    | null => exact .special (i := i) rfl
    | yes => exact .special (i := i) rfl
    | no => exact .special (i := i) rfl
  | part source start stop =>
    simp only [answer, ask, Cache.substring_eq_make]
    cases ht : Text.slice? source.text start stop with
    | none => exact .none ht
    | some text => exact made nofun ht
  | join left right =>
    simp only [answer, ask, Functor.map, StateT.map, Cache.concat_eq_make]
    exact made nofun rfl
  | integer n =>
    simp only [answer, ask, Functor.map, StateT.map, Cache.intString_eq_make]
    exact made nofun rfl

end Request

/-- Caches that draw on one supply, and the handles that were made so far, the first one first. -/
structure Caches where
  supply : Supply := {}
  members : List Cache := []
  handles : List Str := []

namespace Caches

def put (s : Caches) (k : Nat) (i : Interner) : Caches :=
  { s with supply := i.supply, members := s.members.set k i.cache }

end Caches

inductive Use
  | create (options : CacheOptions)
  | unique (text : String)
  | ask (cache : Nat) (request : Request Nat)
  | warm (cache : Nat)

/-- What becomes of the caches. Asking a cache that does not exist, or for a string that was not made,
changes nothing. -/
def Use.step (s : Caches) : Use → Caches
  | .create options =>
    let (c, supply) := Cache.create options s.supply
    { s with supply, members := s.members ++ [c] }
  | .unique text =>
    let (a, supply) := s.supply.unique text
    { s with supply, handles := s.handles ++ [a] }
  | .ask k request =>
    match s.members[k]?, request.resolve s.handles with
    | some c, some r =>
      let (a?, i) := r.answer ⟨s.supply, c⟩
      { s.put k i with handles := s.handles ++ a?.toList }
    | _, _ => s
  | .warm k =>
    match s.members[k]? with
    | some c => s.put k ((Cache.warm : StateM Interner Unit) ⟨s.supply, c⟩).2
    | none => s

namespace Caches

def run (uses : List Use) : Caches := uses.foldl Use.step {}

def Holds (s : Caches) (a : Str) : Prop :=
  a ∈ s.handles ∨ ∃ c ∈ s.members, (∃ text : String, c.pool.strings[text]? = some a) ∨
    (∃ key, c.memo? key = some a) ∨ ∃ which, c.special which = a

structure Sound (s : Caches) (E : Set Str) : Prop where
  covers : s.supply.Covers E
  handles {a : Str} : a ∈ s.handles → a ∈ E
  caches {k : Nat} {c : Cache} : s.members[k]? = some c → c.Sound s.supply E
  owned {a : Str} : a ∈ E → a.tag?.isSome →
    ∃ (k : Nat) (c : Cache), s.members[k]? = some c ∧ c.pool.strings[a.text]? = some a
  alone {k l : Nat} {c d : Cache} {key key' : Key} {a : Str} : s.members[k]? = some c →
    s.members[l]? = some d → c.memo? key = some a → d.memo? key' = some a → a.tag? = none →
    k = l
  number {k : Nat} {c : Cache} : s.members[k]? = some c →
    c.pool.number.toNat = (k + 1) % UInt32.size
  nextPool : s.supply.nextPool.toNat = (s.members.length + 1) % UInt32.size
  room {k : Nat} {c : Cache} {text : String} {a : Str} : s.members[k]? = some c →
    c.pool.strings[text]? = some a → k + 2 ≤ s.supply.nextTag.toNat
  left : s.supply.TagsLeft → s.members.length + 1 ≤ s.supply.nextTag.toNat

theorem sound_empty : Sound {} ∅ where
  covers := ⟨nofun, nofun, nofun⟩
  handles := nofun
  caches h := by simp at h
  owned := nofun
  alone h := by simp at h
  number h := by simp at h
  nextPool := rfl
  room h := by simp at h
  left _ := by decide

structure Evolves (s : Caches) (E : Set Str) (t : Caches) (E' : Set Str) : Prop where
  sound : t.Sound E'
  subset : E ⊆ E'
  tagsLeft : t.supply.TagsLeft → s.supply.TagsLeft
  member {k : Nat} {c : Cache} : s.members[k]? = some c → ∃ d, t.members[k]? = some d ∧
    d.options = c.options ∧
    (∀ {text : String} {a : Str}, c.pool.strings[text]? = some a → d.pool.strings[text]? = some a) ∧
    ∀ {key : Key} {a : Str}, c.memo? key = some a → d.memo? key = some a
  memo {k : Nat} {d : Cache} {key : Key} {a : Str} : t.members[k]? = some d →
    d.memo? key = some a → a.tag? = none → a ∈ E →
    ∃ c, s.members[k]? = some c ∧ c.memo? key = some a

theorem Evolves.refl {s : Caches} {E : Set Str} (h : s.Sound E) : s.Evolves E s E where
  sound := h
  subset := Set.Subset.rfl
  tagsLeft := id
  member hc := ⟨_, hc, rfl, id, id⟩
  memo hd hr _ _ := ⟨_, hd, hr⟩

theorem Evolves.handOut {s t : Caches} {E E' : Set Str} (h : s.Evolves E t E') {l : List Str}
    (has : ∀ a ∈ l, a ∈ E') : s.Evolves E { t with handles := t.handles ++ l } E' :=
  { h with
    sound := { h.sound with
      handles := fun ha => by
        rcases List.mem_append.1 ha with ha | ha
        · exact h.sound.handles ha
        · exact has _ ha } }

theorem getElem?_put {s : Caches} {k : Nat} {c d : Cache} {j : Interner}
    (hc : s.members[k]? = some c) {l : Nat} (hd : (s.put k j).members[l]? = some d) :
    l = k ∧ d = j.cache ∨ l ≠ k ∧ s.members[l]? = some d := by
  have hk : k < s.members.length := (List.getElem?_eq_some_iff.1 hc).1
  simp only [Caches.put, List.getElem?_set, hk, if_true] at hd
  split at hd
  · rename_i hkl
    exact .inl ⟨hkl.symm, (Option.some.inj hd).symm⟩
  · rename_i hkl
    exact .inr ⟨Ne.symm hkl, hd⟩

theorem getElem?_put_self {s : Caches} {k : Nat} {c : Cache} {j : Interner}
    (hc : s.members[k]? = some c) : (s.put k j).members[k]? = some j.cache := by
  simp [Caches.put, (List.getElem?_eq_some_iff.1 hc).1]

theorem getElem?_put_ne {s : Caches} {k l : Nat} {j : Interner} (hl : l ≠ k) :
    (s.put k j).members[l]? = s.members[l]? := by
  rw [Caches.put, List.getElem?_set, if_neg (Ne.symm hl)]

theorem getElem?_append_one {α : Type} {cs : List α} {c d : α} {l : Nat}
    (h : (cs ++ [c])[l]? = some d) : l = cs.length ∧ d = c ∨ cs[l]? = some d := by
  rcases Nat.lt_trichotomy l cs.length with hl | rfl | hl
  · rw [List.getElem?_append_left hl] at h
    exact .inr h
  · rw [List.getElem?_concat_length] at h
    exact .inl ⟨rfl, (Option.some.inj h).symm⟩
  · have hlen : (cs ++ [c]).length ≤ l := by
      simp only [List.length_append, List.length_singleton]
      omega
    simp [List.getElem?_eq_none hlen] at h

theorem getElem?_append_of_some {cs ds : List Cache} {d : Cache} {l : Nat} (h : cs[l]? = some d) :
    (cs ++ ds)[l]? = some d := by
  rwa [List.getElem?_append_left (List.getElem?_eq_some_iff.1 h).1]

namespace Sound

variable {s : Caches} {E : Set Str}

theorem interner (h : s.Sound E) {k : Nat} {c : Cache} (hc : s.members[k]? = some c) :
    Interner.Sound ⟨s.supply, c⟩ E := ⟨h.covers, h.caches hc⟩

theorem put_alone (h : s.Sound E) {k : Nat} {c : Cache} (hc : s.members[k]? = some c) {j : Interner}
    {E' : Set Str} (hj : Interner.Evolves ⟨s.supply, c⟩ E j E') {l m : Nat} {c' d : Cache}
    {key key' : Key} {a : Str} (hl : (s.put k j).members[l]? = some c')
    (hm : (s.put k j).members[m]? = some d) (hr : c'.memo? key = some a)
    (hr' : d.memo? key' = some a) (ht : a.tag? = none) : l = m := by
  have old {l : Nat} {d : Cache} {key key' : Key} (hne : l ≠ k) (hd : s.members[l]? = some d)
      (hr : j.cache.memo? key = some a) (hr' : d.memo? key' = some a) : False :=
    hne (h.alone hd hc hr' (hj.memo hr ht ((h.caches hd).memo hr').1) ht)
  rcases getElem?_put hc hl with ⟨rfl, rfl⟩ | ⟨hne, hold⟩
  · rcases getElem?_put hc hm with ⟨rfl, rfl⟩ | ⟨hne', hold'⟩
    · rfl
    · exact (old hne' hold' hr hr').elim
  · rcases getElem?_put hc hm with ⟨rfl, rfl⟩ | ⟨hne', hold'⟩
    · exact (old hne hold hr' hr).elim
    · exact h.alone hold hold' hr hr' ht

theorem put (h : s.Sound E) {k : Nat} {c : Cache} (hc : s.members[k]? = some c) {j : Interner}
    {E' : Set Str} (hj : Interner.Evolves ⟨s.supply, c⟩ E j E') : (s.put k j).Sound E' := by
  have hk : k < s.members.length := (List.getElem?_eq_some_iff.1 hc).1
  have member {l : Nat} {d : Cache} := getElem?_put (d := d) (j := j) (l := l) hc
  refine ⟨hj.sound.covers, fun ha => hj.subset (h.handles ha), ?_, ?_, ?_, ?_, ?_, ?_, ?_⟩
  · intro l d hd
    rcases member hd with ⟨rfl, rfl⟩ | ⟨-, hd⟩
    · exact hj.sound.cache
    · exact (h.caches hd).mono hj.subset hj.grows.pool.tagsLeft
  · intro a ha ht
    by_cases haE : a ∈ E
    · obtain ⟨l, d, hd, hp⟩ := h.owned haE ht
      by_cases hl : l = k
      · subst hl
        obtain rfl := Option.some.inj (hc.symm.trans hd)
        exact ⟨l, j.cache, getElem?_put_self hc, hj.grows.pool.strings hp⟩
      · exact ⟨l, d, by rwa [getElem?_put_ne hl], hp⟩
    · exact ⟨k, j.cache, getElem?_put_self hc, hj.owned ha haE ht⟩
  · exact fun hc' hd hr hr' ht => h.put_alone hc hj hc' hd hr hr' ht
  · intro l d hd
    rcases member hd with ⟨rfl, rfl⟩ | ⟨-, hd⟩
    · rw [hj.grows.pool.number]
      exact h.number hc
    · exact h.number hd
  · rw [Caches.put, hj.grows.pool.nextPool, List.length_set]
    exact h.nextPool
  · intro l d text a hd hp
    have hnext : s.supply.nextTag.toNat ≤ (s.put k j).supply.nextTag.toNat := hj.grows.pool.nextTag
    rcases member hd with ⟨rfl, rfl⟩ | ⟨-, hd⟩
    · by_cases hleft : s.supply.TagsLeft
      · have := h.left hleft
        omega
      · rw [hj.grows.pool.spent hleft] at hp
        have := h.room hc hp
        omega
    · have := h.room hd hp
      omega
  · intro hl
    have hnext : s.supply.nextTag.toNat ≤ (s.put k j).supply.nextTag.toNat := hj.grows.pool.nextTag
    have := h.left (hj.grows.pool.tagsLeft hl)
    simp only [Caches.put, List.length_set] at *
    omega

theorem put_evolves (h : s.Sound E) {k : Nat} {c : Cache} (hc : s.members[k]? = some c)
    {j : Interner} {E' : Set Str} (hj : Interner.Evolves ⟨s.supply, c⟩ E j E') :
    s.Evolves E (s.put k j) E' where
  sound := h.put hc hj
  subset := hj.subset
  tagsLeft := hj.grows.pool.tagsLeft
  member {l d} hd := by
    by_cases hl : l = k
    · subst hl
      obtain rfl := Option.some.inj (hc.symm.trans hd)
      exact ⟨j.cache, getElem?_put_self hc, hj.grows.options,
        fun hp => hj.grows.pool.strings hp, hj.grows.memo⟩
    · exact ⟨d, by rwa [getElem?_put_ne hl], rfl, id, id⟩
  memo {l d key a} hd hr ht ha := by
    rcases getElem?_put hc hd with ⟨rfl, rfl⟩ | ⟨-, hd⟩
    · exact ⟨c, hc, hj.memo hr ht ha⟩
    · exact ⟨d, hd, hr⟩

theorem append_sound (h : s.Sound E) {options : CacheOptions} {c : Cache} {t : Supply} {E' : Set Str}
    (hc : Cache.Created options s.supply E c t E') :
    Sound { s with supply := t, members := s.members ++ [c] } E' := by
  refine ⟨hc.covers, fun ha => hc.subset (h.handles ha), ?_, ?_, ?_, ?_, ?_, ?_, ?_⟩
  · intro l d hd
    rcases getElem?_append_one hd with ⟨-, rfl⟩ | hd
    · exact hc.sound
    · exact (h.caches hd).mono hc.subset hc.tagsLeft
  · intro a ha ht
    by_cases haE : a ∈ E
    · obtain ⟨l, d, hd, hp⟩ := h.owned haE ht
      exact ⟨l, d, getElem?_append_of_some hd, hp⟩
    · exact ⟨s.members.length, c, by simp, hc.owned ha haE ht⟩
  · intro l m c' d key key' a hc' hd hr hr' ht
    rcases getElem?_append_one hc' with ⟨-, rfl⟩ | hold
    · simp [hc.memo] at hr
    · rcases getElem?_append_one hd with ⟨-, rfl⟩ | hold'
      · simp [hc.memo] at hr'
      · exact h.alone hold hold' hr hr' ht
  · intro l d hd
    rcases getElem?_append_one hd with ⟨rfl, rfl⟩ | hd
    · rw [hc.number]
      exact h.nextPool
    · exact h.number hd
  · rw [hc.nextPool, List.length_append, UInt32.toNat_add, h.nextPool]
    simp
  · intro l d text a hd hp
    have hnext := hc.nextTag
    rcases getElem?_append_one hd with ⟨rfl, rfl⟩ | hd
    · by_cases hleft : s.supply.TagsLeft
      · have hroom := h.left hleft
        have htook := hc.took hleft
        change _ ≤ t.nextTag.toNat
        omega
      · simp [hc.spent hleft] at hp
    · have := h.room hd hp
      change _ ≤ t.nextTag.toNat
      omega
  · intro hl
    have hroom := h.left (hc.tagsLeft hl)
    have htook := hc.took (hc.tagsLeft hl)
    simp only [List.length_append, List.length_singleton]
    omega

theorem create (h : s.Sound E) (options : CacheOptions) :
    ∃ E', s.Evolves E ((Use.create options).step s) E' := by
  obtain ⟨E', hc⟩ := Cache.create_created options h.covers
  simp only [Use.step]
  generalize Cache.create options s.supply = x at hc ⊢
  obtain ⟨c, t⟩ := x
  refine ⟨E', h.append_sound hc, hc.subset, hc.tagsLeft,
    fun hd => ⟨_, getElem?_append_of_some hd, rfl, id, id⟩, ?_⟩
  intro l d key a hd hr _ _
  rcases getElem?_append_one hd with ⟨-, rfl⟩ | hd
  · simp [hc.memo] at hr
  · exact ⟨d, hd, hr⟩

theorem unique (h : s.Sound E) (text : String) :
    s.Evolves E ((Use.unique text).step s) (insert ⟨text, .unique s.supply.nextAddress⟩ E) := by
  refine Evolves.handOut (t := { s with supply := _ }) ?_ (by simp)
  refine { Evolves.refl h with
    sound := { h with
      covers := h.covers.insert_unique text
      handles := fun ha => .inr (h.handles ha)
      caches := fun hc => (h.caches hc).mono (Set.subset_insert _ _) id
      owned := fun ha ht => by
        rcases ha with rfl | ha
        · simp [Str.tag?] at ht
        · exact h.owned ha ht }
    subset := Set.subset_insert _ _
    memo := fun hd hr _ _ => ⟨_, hd, hr⟩ }

theorem resolve_within (h : s.Sound E) {request : Request Nat} {r : Request Str}
    (hr : request.resolve s.handles = some r) : r.Within E := by
  have mem {n : Nat} {a : Str} (ha : s.handles[n]? = some a) : a ∈ E :=
    h.handles (List.mem_of_getElem? ha)
  cases request with
  | part source start stop =>
    obtain ⟨a, ha, rfl⟩ := Option.map_eq_some_iff.1 hr
    exact mem ha
  | join left right =>
    simp only [Request.resolve] at hr
    split at hr
    · rename_i l r' hl hr'
      obtain rfl := Option.some.inj hr
      exact ⟨mem hl, mem hr'⟩
    · simp at hr
  | _ =>
    obtain rfl := Option.some.inj hr
    trivial

theorem ask (h : s.Sound E) (k : Nat) (request : Request Nat) :
    ∃ E', s.Evolves E ((Use.ask k request).step s) E' := by
  simp only [Use.step]
  split
  · rename_i c r hc hr
    have hi := h.interner hc
    have hout := Request.answer_outcome hi (h.resolve_within hr)
    generalize r.answer ⟨s.supply, c⟩ = x at hout ⊢
    obtain ⟨a?, j⟩ := x
    cases hout with
    | none => exact ⟨E, (h.put_evolves hc (.refl hi)).handOut (by simp)⟩
    | special =>
      refine ⟨E, (h.put_evolves hc (.refl hi)).handOut ?_⟩
      simpa using ((h.caches hc).special _).mem
    | made _ _ hm hj => exact ⟨_, (h.put_evolves hc (hm.evolves hi hj)).handOut (by simp)⟩
  · exact ⟨E, .refl h⟩

theorem warm (h : s.Sound E) (k : Nat) : ∃ E', s.Evolves E ((Use.warm k).step s) E' := by
  simp only [Use.step]
  split
  · rename_i c hc
    obtain ⟨E', hj⟩ := Cache.warm_evolves (h.interner hc)
    exact ⟨E', h.put_evolves hc hj⟩
  · exact ⟨E, .refl h⟩

theorem step (h : s.Sound E) (use : Use) : ∃ E', s.Evolves E (use.step s) E' := by
  cases use with
  | create options => exact h.create options
  | unique text => exact ⟨_, h.unique text⟩
  | ask k request => exact h.ask k request
  | warm k => exact h.warm k

theorem foldl (h : s.Sound E) (uses : List Use) : ∃ E', (uses.foldl Use.step s).Sound E' := by
  induction uses generalizing s E with
  | nil => exact ⟨E, h⟩
  | cons use uses ih =>
    obtain ⟨E', hs⟩ := h.step use
    exact ih hs.sound

theorem tagsLeft_of_foldl (h : s.Sound E) (uses : List Use)
    (hl : (uses.foldl Use.step s).supply.TagsLeft) : s.supply.TagsLeft := by
  induction uses generalizing s E with
  | nil => exact hl
  | cons use uses ih =>
    obtain ⟨E', hs⟩ := h.step use
    exact hs.tagsLeft (ih hs.sound hl)

theorem holds (h : s.Sound E) {a : Str} (ha : s.Holds a) : a ∈ E := by
  rcases ha with ha | ⟨c, hc, ha⟩
  · exact h.handles ha
  · obtain ⟨k, hk⟩ := List.mem_iff_getElem?.1 hc
    have hs := h.caches hk
    rcases ha with ⟨text, ha⟩ | ⟨key, ha⟩ | ⟨which, rfl⟩
    · exact (hs.pool ha).1
    · exact (hs.memo ha).1
    · exact (hs.special which).mem

theorem eq_of_number (h : s.Sound E) {k l : Nat} {c d : Cache} {text text' : String} {a b : Str}
    (hc : s.members[k]? = some c) (hd : s.members[l]? = some d) (ha : c.pool.strings[text]? = some a)
    (hb : d.pool.strings[text']? = some b) (hn : c.pool.number = d.pool.number) : k = l := by
  have hk := h.room hc ha
  have hl := h.room hd hb
  have hlt := s.supply.nextTag.toNat_lt
  have hkn := h.number hc
  have hln := h.number hd
  rw [hn] at hkn
  simp only [UInt32.size] at hkn hln
  omega

end Sound

theorem sound_run (uses : List Use) : ∃ E, (run uses).Sound E := sound_empty.foldl uses

end Caches

end KnightLang
