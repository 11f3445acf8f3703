import KnightLang.Proofs.Strings.Equality

namespace KnightLang

namespace Text

theorem slice?_eq_none_iff {s : String} {i j : Nat} :
    slice? s i j = none ↔ j < i ∨ s.utf8ByteSize < j ∨ ¬ String.Pos.Raw.IsValid s ⟨i⟩ ∨
      ¬ String.Pos.Raw.IsValid s ⟨j⟩ := by
  constructor
  · intro h
    by_contra hn
    simp only [not_or, not_not, Nat.not_lt] at hn
    obtain ⟨hij, -, hi, hj⟩ := hn
    have hp := (pos?_eq_some_iff (p := s.pos ⟨i⟩ hi)).2 rfl
    have hq := (pos?_eq_some_iff (p := s.pos ⟨j⟩ hj)).2 rfl
    simp [slice?, hp, hq, hij] at h
  · intro h
    by_contra hn
    obtain ⟨t, ht⟩ := Option.ne_none_iff_exists'.1 hn
    obtain ⟨head, tail, rfl, rfl, rfl⟩ := eq_append_of_slice? ht
    rcases h with h | h | h | h
    · omega
    · simp only [String.utf8ByteSize_append] at h
      omega
    · exact h (String.Pos.Raw.isValid_iff_exists_append.2
        ⟨head, t ++ tail, String.append_assoc, rfl⟩)
    · exact h (String.Pos.Raw.isValid_iff_exists_append.2
        ⟨head ++ t, tail, rfl, by simp [String.Pos.Raw.ext_iff, String.utf8ByteSize_append]⟩)

@[simp] theorem bytes_append (s t : String) : bytes (s ++ t) = bytes s ++ bytes t := by
  simp [bytes]

theorem length_bytes (s : String) : (bytes s).length = s.utf8ByteSize := by
  simp [bytes, ← String.size_toByteArray]

theorem bytes_of_slice? {s t : String} {i j : Nat} (h : slice? s i j = some t) :
    bytes t = ((bytes s).drop i).take (j - i) := by
  obtain ⟨head, tail, rfl, rfl, rfl⟩ := eq_append_of_slice? h
  rw [bytes_append, bytes_append, ← length_bytes, ← length_bytes, List.append_assoc,
    List.drop_left, Nat.add_sub_cancel_left, List.take_left]

end Text

theorem Decimal.ofInt_eq_toString (n : Int) : Decimal.ofInt n = toString n := by
  cases n with
  | ofNat n => rfl
  | negSucc n => rfl

namespace Interner.Sound

variable {i : Interner} {E : Set Str}

theorem text_string (h : i.Sound E) (text : String) :
    ((Cache.string text : StateM Interner Str) i).1.text = text := by
  have hkey : ∀ key : Cache.Key, none = some key → key.Denotes E text := nofun
  rw [Cache.string_eq_make]
  exact (h.make hkey).1.text_eq

theorem text_intString (h : i.Sound E) (n : Int64) :
    ((Cache.intString n : StateM Interner Str) i).1.text = toString n.toInt := by
  rw [Cache.intString_eq_make, (h.make (Cache.denotes_integer n)).1.text_eq,
    Decimal.ofInt_eq_toString]

theorem text_concat (h : i.Sound E) {left right : Str} (hl : left ∈ E) (hr : right ∈ E) :
    ((Cache.concat left right : StateM Interner Str) i).1.text = left.text ++ right.text := by
  rw [Cache.concat_eq_make]
  exact (h.make (Cache.denotes_joinKey? hl hr)).1.text_eq

theorem text_substring (h : i.Sound E) {s : Str} (hs : s ∈ E) (start stop : Nat) :
    ((Cache.substring s start stop : StateM Interner (Option Str)) i).1.map Str.text =
      Text.slice? s.text start stop := by
  rw [Cache.substring_eq_make]
  cases ht : Text.slice? s.text start stop with
  | none => rfl
  | some text =>
    simp only [Option.map_some]
    rw [(h.make (Cache.denotes_partKey? hs ht)).1.text_eq]

end Interner.Sound

namespace Caches

/-- Answers have the texts that were asked for, and there is none exactly when the bounds of a part are
out of order, beyond the end or inside a character. -/
theorem text_answers (uses : List Use) {k : Nat} {c : Cache} (hc : (run uses).members[k]? = some c) :
    (∀ text, ((Cache.string text : StateM Interner Str) ⟨(run uses).supply, c⟩).1.text = text) ∧
    (∀ text, ((Cache.ownedString text : StateM Interner Str) ⟨(run uses).supply, c⟩).1.text = text) ∧
    (∀ n, ((Cache.intString n : StateM Interner Str) ⟨(run uses).supply, c⟩).1.text =
      toString n.toInt) ∧
    (∀ l r, (run uses).Holds l → (run uses).Holds r →
      Text.bytes ((Cache.concat l r : StateM Interner Str) ⟨(run uses).supply, c⟩).1.text =
        Text.bytes l.text ++ Text.bytes r.text) ∧
    ∀ s start stop, (run uses).Holds s →
      (((Cache.substring s start stop : StateM Interner _) ⟨(run uses).supply, c⟩).1 = none ↔
        stop < start ∨ s.length < stop ∨ ¬ String.Pos.Raw.IsValid s.text ⟨start⟩ ∨
          ¬ String.Pos.Raw.IsValid s.text ⟨stop⟩) ∧
      ∀ a, ((Cache.substring s start stop : StateM Interner _) ⟨(run uses).supply, c⟩).1 = some a →
        Text.bytes a.text = ((Text.bytes s.text).drop start).take (stop - start) := by
  obtain ⟨E, h⟩ := sound_run uses
  have hi := h.interner hc
  refine ⟨hi.text_string, ?_, hi.text_intString, ?_, ?_⟩
  · intro text
    rw [Cache.ownedString_eq_string]
    exact hi.text_string text
  · intro l r hl hr
    rw [hi.text_concat (h.holds hl) (h.holds hr), Text.bytes_append]
  · intro s start stop hs
    have ht := hi.text_substring (h.holds hs) start stop
    constructor
    · rw [Str.length, ← Text.slice?_eq_none_iff, ← ht, Option.map_eq_none_iff]
    · intro a ha
      rw [ha, Option.map_some] at ht
      exact Text.bytes_of_slice? ht.symm

theorem text_answers_split :
    let s := run [.create {}, .create {}, .ask 0 (.text "hé")]
    let a : Str := ⟨"hé", .interned 9 1⟩
    s.Holds a ∧ ∃ c, s.members[1]? = some c ∧
      ((Cache.substring a 0 2 : StateM Interner (Option Str)) ⟨s.supply, c⟩).1 = none := by
  intro s a
  have ha : s.Holds a := .inl (by decide)
  obtain ⟨c, hc⟩ : ∃ c, s.members[1]? = some c := ⟨_, rfl⟩
  refine ⟨ha, c, hc, ((text_answers _ hc).2.2.2.2 a 0 2 ha).1.2 ?_⟩
  exact .inr (.inr (.inr (by decide)))

end Caches

end KnightLang
