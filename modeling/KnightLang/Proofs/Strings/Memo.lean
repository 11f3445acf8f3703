import KnightLang.Strings.Cache

/-!
What a cache remembers. The packed keys of its tables are injective, so that the tables together are
one map from what was asked for to the handle that was the answer, and every operation that makes a
handle looks there first.
-/
namespace KnightLang

open Std (TreeMap)

namespace Cache

theorem concatKey_toNat (l r : UInt32) :
    (concatKey l r).toNat = l.toNat * UInt32.size + r.toNat := by
  have hr : r.toNat < 2 ^ 32 := r.toNat_lt
  have hl : l.toNat <<< 32 < 2 ^ 64 := by
    have := l.toNat_lt
    rw [Nat.shiftLeft_eq]; omega
  simp only [concatKey, UInt64.toNat_or, UInt64.toNat_shiftLeft, UInt32.toNat_toUInt64]
  rw [show (32 : UInt64).toNat % 64 = 32 from rfl, Nat.mod_eq_of_lt hl,
    ← Nat.shiftLeft_add_eq_or_of_lt hr, Nat.shiftLeft_eq]

theorem concatKey_inj {l r l' r' : UInt32} :
    concatKey l r = concatKey l' r' ↔ l = l' ∧ r = r' := by
  constructor
  · intro h
    have h := congrArg UInt64.toNat h
    rw [concatKey_toNat, concatKey_toNat, UInt32.size] at h
    have hr := r.toNat_lt
    have hr' := r'.toNat_lt
    exact ⟨UInt32.toNat_inj.1 (by omega), UInt32.toNat_inj.1 (by omega)⟩
  · rintro ⟨rfl, rfl⟩; rfl

theorem toNat_of_substringKey? {tag : UInt32} {start stop : Nat} {k : UInt64}
    (h : substringKey? tag start stop = some k) :
    start < 65536 ∧ stop < 65536 ∧ k.toNat = (tag.toNat * 65536 + start) * 65536 + stop := by
  unfold substringKey? at h
  split at h
  · rename_i hb
    obtain rfl := Option.some.inj h
    obtain ⟨ha, hb⟩ := hb
    have ht : tag.toNat <<< 32 < 2 ^ 64 := by
      have := tag.toNat_lt
      rw [Nat.shiftLeft_eq]; omega
    have hs : start <<< 16 < 2 ^ 32 := by rw [Nat.shiftLeft_eq]; omega
    refine ⟨ha, hb, ?_⟩
    simp only [UInt64.toNat_or, UInt64.toNat_shiftLeft, UInt32.toNat_toUInt64, Nat.toUInt64,
      UInt64.toNat_ofNat']
    rw [show (32 : UInt64).toNat % 64 = 32 from rfl, show (16 : UInt64).toNat % 64 = 16 from rfl,
      Nat.mod_eq_of_lt (show start < 2 ^ 64 by omega), Nat.mod_eq_of_lt (show stop < 2 ^ 64 by omega),
      Nat.mod_eq_of_lt ht, Nat.mod_eq_of_lt (show start <<< 16 < 2 ^ 64 by omega),
      ← Nat.shiftLeft_add_eq_or_of_lt hs, Nat.shiftLeft_eq, Nat.shiftLeft_eq,
      show tag.toNat * 2 ^ 32 + start * 2 ^ 16 = (tag.toNat * 65536 + start) <<< 16 by
        rw [Nat.shiftLeft_eq]; omega,
      ← Nat.shiftLeft_add_eq_or_of_lt hb, Nat.shiftLeft_eq]
  · simp at h

theorem substringKey?_inj {tag tag' : UInt32} {start stop start' stop' : Nat} {k : UInt64}
    (h : substringKey? tag start stop = some k) (h' : substringKey? tag' start' stop' = some k) :
    tag = tag' ∧ start = start' ∧ stop = stop' := by
  obtain ⟨ha, hb, hk⟩ := toNat_of_substringKey? h
  obtain ⟨ha', hb', hk'⟩ := toNat_of_substringKey? h'
  exact ⟨UInt32.toNat_inj.1 (by omega), by omega, by omega⟩

/-- What is remembered: the part of a string between two offsets, a string after another, each given
by its tag, and the decimal form of an integer. -/
inductive Key
  | part (tag : UInt32) (start stop : Nat)
  | join (left right : UInt32)
  | integer (n : Int64)
  deriving DecidableEq, Repr

def memo? (c : Cache) : Key → Option Str
  | .part tag start stop =>
    match substringKey? tag start stop with
    | some key => c.substrings[key]?
    | none => c.longSubstrings[tag]? >>= (·[(start, stop)]?)
  | .join l r => c.concats[concatKey l r]?
  | .integer n => c.integers[n]?

def keep (key : Key) (str : Str) (c : Cache) : Cache :=
  match key with
  | .part tag start stop =>
    match substringKey? tag start stop with
    | some key => { c with substrings := c.substrings.insert key str }
    | none => { c with
        longSubstrings := c.longSubstrings.insert tag
          ((c.longSubstrings.getD tag ∅).insert (start, stop) str) }
  | .join l r => { c with concats := c.concats.insert (concatKey l r) str }
  | .integer n => { c with integers := c.integers.insert n str }

theorem memo?_keep_part (c : Cache) (tag tag' : UInt32) (start stop start' stop' : Nat)
    (str : Str) :
    (c.keep (.part tag start stop) str).memo? (.part tag' start' stop') =
      if Key.part tag' start' stop' = .part tag start stop then some str
      else c.memo? (.part tag' start' stop') := by
  simp only [memo?, keep, Key.part.injEq]
  cases hk : substringKey? tag start stop with
  | some k =>
    cases hk' : substringKey? tag' start' stop' with
    | some k' =>
      simp only [TreeMap.getElem?_insert, Std.compare_eq_iff_eq]
      by_cases h : k = k'
      · subst h
        obtain ⟨rfl, rfl, rfl⟩ := substringKey?_inj hk hk'
        simp
      · rw [if_neg h, if_neg]
        rintro ⟨rfl, rfl, rfl⟩
        exact h (Option.some.inj (hk.symm.trans hk'))
    | none =>
      rw [if_neg]
      rintro ⟨rfl, rfl, rfl⟩
      simp [hk'] at hk
  | none =>
    cases hk' : substringKey? tag' start' stop' with
    | some k' =>
      rw [if_neg]
      rintro ⟨rfl, rfl, rfl⟩
      simp [hk'] at hk
    | none =>
      simp only [TreeMap.getElem?_insert, Std.compare_eq_iff_eq, TreeMap.getD_eq_getD_getElem?]
      by_cases ht : tag = tag'
      · subst ht
        simp only [if_true, Option.bind_eq_bind, Option.bind_some, TreeMap.getElem?_insert,
          Std.compare_eq_iff_eq, Prod.mk.injEq, true_and]
        by_cases hs : start = start' ∧ stop = stop'
        · obtain ⟨rfl, rfl⟩ := hs
          simp
        · rw [if_neg hs, if_neg (fun h => hs ⟨h.1.symm, h.2.symm⟩)]
          cases c.longSubstrings[tag]? <;> simp
      · rw [if_neg ht, if_neg (fun h => ht h.1.symm)]

@[simp] theorem memo?_keep (c : Cache) (key key' : Key) (str : Str) :
    (c.keep key str).memo? key' = if key' = key then some str else c.memo? key' := by
  cases key with
  | part tag start stop =>
    cases key' with
    | part tag' start' stop' => exact memo?_keep_part c _ _ _ _ _ _ str
    | join l r => simp only [keep]; split <;> simp [memo?]
    | integer n => simp only [keep]; split <;> simp [memo?]
  | join l r =>
    cases key' with
    | part tag' start' stop' => simp [memo?, keep]
    | join l' r' =>
      simp only [memo?, keep, TreeMap.getElem?_insert, Std.compare_eq_iff_eq, concatKey_inj,
        Key.join.injEq, eq_comm (a := l'), eq_comm (a := r')]
    | integer n => simp [memo?, keep]
  | integer n =>
    cases key' with
    | part tag' start' stop' => simp [memo?, keep]
    | join l' r' => simp [memo?, keep]
    | integer n' =>
      simp only [memo?, keep, TreeMap.getElem?_insert, Std.compare_eq_iff_eq,
        Key.integer.injEq, eq_comm (a := n')]

theorem memo?_keep_cases {c : Cache} {key key' : Key} {a b : Str}
    (h : (c.keep key a).memo? key' = some b) :
    key' = key ∧ b = a ∨ c.memo? key' = some b := by
  rw [memo?_keep] at h
  by_cases hk : key' = key
  · rw [if_pos hk] at h
    exact .inl ⟨hk, (Option.some.inj h).symm⟩
  · rw [if_neg hk] at h
    exact .inr h

@[simp] theorem keep_pool (c : Cache) (key : Key) (str : Str) : (c.keep key str).pool = c.pool := by
  cases key <;> simp only [keep]; split <;> rfl

@[simp] theorem keep_options (c : Cache) (key : Key) (str : Str) :
    (c.keep key str).options = c.options := by
  cases key <;> simp only [keep]; split <;> rfl

inductive Special
  | empty | null | yes | no
  deriving DecidableEq, Repr

def Special.word : Special → String
  | empty => ""
  | null => "null"
  | yes => "true"
  | no => "false"

def special (c : Cache) : Special → Str
  | .empty => c.empty
  | .null => c.null
  | .yes => c.yes
  | .no => c.no

@[simp] theorem keep_special (c : Cache) (key : Key) (str : Str) (which : Special) :
    (c.keep key str).special which = c.special which := by
  cases key with
  | part tag start stop => simp only [keep]; split <;> cases which <;> rfl
  | join l r => cases which <;> rfl
  | integer n => cases which <;> rfl

end Cache

namespace Interner

open Cache (Key)

/-- The handle that is remembered under a key, or else one that is made of a text and, where there is
a key, remembered from now on. -/
def make (key? : Option Key) (text : String) (i : Interner) : Str × Interner :=
  match key?.bind i.cache.memo? with
  | some str => (str, i)
  | none =>
    let (str, j) := (Cache.string text : StateM Interner Str) i
    (str, match key? with
      | some key => { j with cache := j.cache.keep key str }
      | none => j)

end Interner

namespace Cache

def partKey? (s : Str) (start stop : Nat) : Option Key := s.tag?.map (Key.part · start stop)

def joinKey? (left right : Str) : Option Key :=
  match left.tag?, right.tag? with
  | some l, some r => some (.join l r)
  | _, _ => none

theorem string_eq_make (text : String) (i : Interner) :
    (string text : StateM Interner Str) i = i.make none text := rfl

theorem ownedString_eq_string (text : String) :
    (ownedString text : StateM Interner Str) = string text := by
  funext i
  by_cases h : i.cache.options.maxLength < text.utf8ByteSize
  · simp only [ownedString, string, bind, StateT.bind, getThe, MonadStateOf.get, StateT.get, pure, h,
      gt_iff_lt, if_true]
  · simp only [ownedString, bind, StateT.bind, getThe, MonadStateOf.get, StateT.get, pure, h,
      if_false]

theorem remembered_eq (key : Key) (find : Cache → Option Str) (save : Str → Cache → Cache)
    (text : String) (i : Interner) (hfind : find i.cache = i.cache.memo? key)
    (hsave : ∀ str c, save str c = c.keep key str) :
    (remembered find save (string text) : StateM Interner Str) i = i.make (some key) text := by
  simp only [remembered, Interner.make, bind, StateT.bind, getThe, MonadStateOf.get, StateT.get,
    pure, hfind, Option.bind_some]
  cases i.cache.memo? key with
  | some str => rfl
  | none =>
    simp only [modifyThe, MonadStateOf.modifyGet, hsave]
    rfl

theorem intString_eq_make (n : Int64) (i : Interner) :
    (intString n : StateM Interner Str) i =
      i.make (some (.integer n)) (Decimal.ofInt n.toInt) :=
  remembered_eq (.integer n) (·.integers[n]?)
    (fun str c => { c with integers := c.integers.insert n str }) _ i rfl (fun _ _ => rfl)

theorem concat_eq_make (left right : Str) (i : Interner) :
    (concat left right : StateM Interner Str) i =
      i.make (joinKey? left right) (left.text ++ right.text) := by
  cases hl : left.tag? with
  | none => simp only [concat, joinKey?, hl]; rfl
  | some l =>
    cases hr : right.tag? with
    | none => simp only [concat, joinKey?, hl, hr]; rfl
    | some r =>
      simp only [concat, joinKey?, hl, hr]
      exact remembered_eq (.join l r) (·.concats[concatKey l r]?)
        (fun str c => { c with concats := c.concats.insert (concatKey l r) str }) _ i rfl
        (fun _ _ => rfl)

theorem substring_eq_make (s : Str) (start stop : Nat) (i : Interner) :
    (substring s start stop : StateM Interner (Option Str)) i =
      match Text.slice? s.text start stop with
      | none => (none, i)
      | some text =>
        (some (i.make (partKey? s start stop) text).1, (i.make (partKey? s start stop) text).2) := by
  simp only [substring]
  cases Text.slice? s.text start stop with
  | none => rfl
  | some text =>
    simp only [partKey?]
    cases s.tag? with
    | none => rfl
    | some tag =>
      simp only [Option.map_some]
      rw [← remembered_eq (.part tag start stop) (fun c => c.memo? (.part tag start stop))
        (fun str c => c.keep (.part tag start stop) str) text i rfl (fun _ _ => rfl)]
      simp only [memo?, keep]
      cases substringKey? tag start stop with
      | some key => rfl
      | none => rfl

end Cache

end KnightLang
