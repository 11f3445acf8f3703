import KnightLang.Eval.Splice
import KnightLang.Proofs.Execution.Keeping
import KnightLang.Proofs.Strings.Content

namespace KnightLang

namespace Text

/-- The `count` bytes from `start` on lie within a text, and neither end splits a character. -/
structure HasRange (text : String) (start count : Int64) : Prop where
  start_nonneg : 0 ≤ start
  count_nonneg : 0 ≤ count
  stop_le : start.toInt.toNat + count.toInt.toNat ≤ text.utf8ByteSize
  valid_start : String.Pos.Raw.IsValid text ⟨start.toInt.toNat⟩
  valid_stop : String.Pos.Raw.IsValid text ⟨start.toInt.toNat + count.toInt.toNat⟩

def splice (bs : List UInt8) (start count : Nat) (replacement : List UInt8) : List UInt8 :=
  bs.take start ++ replacement ++ bs.drop (start + count)

theorem splice_append (head mid tail r : String) :
    splice (bytes (head ++ mid ++ tail)) head.utf8ByteSize mid.utf8ByteSize (bytes r) =
      bytes (head ++ r ++ tail) := by
  have hhead : (bytes head).length = head.utf8ByteSize := length_bytes head
  have hmid : (bytes mid).length = mid.utf8ByteSize := length_bytes mid
  rw [splice, ← hhead, ← hmid, ← List.length_append, ← bytes_append]
  rw [bytes_append (head ++ mid), List.drop_left, bytes_append head mid, List.append_assoc (bytes head),
    List.take_left, bytes_append, bytes_append]

theorem slice?_head_eq_none_iff {s : String} {i : Nat} :
    slice? s 0 i = none ↔ ¬ String.Pos.Raw.IsValid s ⟨i⟩ := by
  rw [slice?_eq_none_iff]
  constructor
  · rintro (h | h | h | h)
    · omega
    · exact fun hv => absurd (by simpa [String.Pos.Raw.le_iff] using hv.le_rawEndPos) (Nat.not_le.2 h)
    · exact absurd String.Pos.Raw.isValid_zero h
    · exact h
  · intro h
    exact .inr (.inr (.inr h))

theorem exists_slice?_head {s : String} {i : Nat} (h : String.Pos.Raw.IsValid s ⟨i⟩) :
    ∃ t, slice? s 0 i = some t :=
  Option.ne_none_iff_exists'.1 fun hn => slice?_head_eq_none_iff.1 hn h

theorem slice?_tail_eq_none_iff {s : String} {i : Nat} :
    slice? s i s.utf8ByteSize = none ↔ ¬ String.Pos.Raw.IsValid s ⟨i⟩ := by
  have hend : String.Pos.Raw.IsValid s ⟨s.utf8ByteSize⟩ := String.Pos.Raw.isValid_rawEndPos
  rw [slice?_eq_none_iff]
  constructor
  · rintro (h | h | h | h)
    · exact fun hv => absurd (by simpa [String.Pos.Raw.le_iff] using hv.le_rawEndPos) (Nat.not_le.2 h)
    · omega
    · exact h
    · exact absurd hend h
  · intro h
    exact .inr (.inr (.inl h))

theorem slice?_head (head tail : String) :
    slice? (head ++ tail) 0 head.utf8ByteSize = some head :=
  slice?_eq_some_iff.2 ⟨"", tail, by simp, rfl, by simp⟩

theorem slice?_tail (head tail : String) :
    slice? (head ++ tail) head.utf8ByteSize (head ++ tail).utf8ByteSize = some tail :=
  slice?_eq_some_iff.2 ⟨head, "", by simp, rfl, (String.utf8ByteSize_append ..).symm⟩

theorem HasRange.exists_slice? {text : String} {start count : Int64}
    (h : HasRange text start count) :
    ∃ part, slice? text start.toInt.toNat (start.toInt.toNat + count.toInt.toNat) = some part := by
  have hstop := h.stop_le
  apply Option.ne_none_iff_exists'.1
  rw [Ne, slice?_eq_none_iff]
  rintro (hn | hn | hn | hn)
  · omega
  · omega
  · exact hn h.valid_start
  · exact hn h.valid_stop

theorem HasRange.exists_append {text : String} {start count : Int64} (h : HasRange text start count) :
    ∃ head mid tail, text = head ++ mid ++ tail ∧ head.utf8ByteSize = start.toInt.toNat ∧
      mid.utf8ByteSize = count.toInt.toNat := by
  obtain ⟨mid, hmid⟩ := h.exists_slice?
  obtain ⟨head, tail, htext, hhead, hlast⟩ := eq_append_of_slice? hmid
  exact ⟨head, mid, tail, htext, hhead, by omega⟩

end Text

namespace Value

def text? : Value → Option String
  | null => some "null"
  | bool b => some (if b then "true" else "false")
  | int n => some (Decimal.ofInt n.toInt)
  | str a => some a.text
  | block _ => none

def Within (E : Set Str) : Value → Prop
  | str a => a ∈ E
  | _ => True

theorem Within.mono {E E' : Set Str} (hE : E ⊆ E') {v : Value} (h : v.Within E) : v.Within E' := by
  cases v with
  | str a => exact hE h
  | _ => trivial

end Value

namespace Action

def Gives (x : Action Str) (s : State) (E : Set Str) (text : String) : Prop :=
  ∃ a t E', x.run s = (.ok a, t) ∧ a.text = text ∧ a ∈ E' ∧ E ⊆ E' ∧
    t.workspace.strings.Sound E'

def OutOfBounds {α : Type} (x : Action α) (s : State) (length : Nat) : Prop :=
  ∃ start count t, x.run s = (.error (.error (.outOfBounds start count length)), t)

variable {s : State} {E : Set Str} {text : String} {length : Nat}

theorem Gives.bind {x : Action Str} {f : Str → Action Str} {text' : String} (h : x.Gives s E text)
    (hf : ∀ a t E', a.text = text → a ∈ E' → E ⊆ E' → t.workspace.strings.Sound E' →
      (f a).Gives t E' text') : (x >>= f).Gives s E text' := by
  obtain ⟨a, t, E', hx, htext, ha, hE, ht⟩ := h
  obtain ⟨b, u, E'', hb, htext', hbE, hE', hu⟩ := hf a t E' htext ha hE ht
  exact ⟨b, u, E'', (run_bind_of_ok hx).trans hb, htext', hbE, hE.trans hE', hu⟩

theorem Gives.outOfBounds_bind {α : Type} {x : Action Str} {f : Str → Action α} (h : x.Gives s E text)
    (hf : ∀ a t E', a.text = text → a ∈ E' → E ⊆ E' → t.workspace.strings.Sound E' →
      (f a).OutOfBounds t length) : (x >>= f).OutOfBounds s length := by
  obtain ⟨a, t, E', hx, htext, ha, hE, ht⟩ := h
  obtain ⟨start, count, u, hu⟩ := hf a t E' htext ha hE ht
  exact ⟨start, count, u, (run_bind_of_ok hx).trans hu⟩

theorem OutOfBounds.bind {α β : Type} {x : Action α} {f : α → Action β} (h : x.OutOfBounds s length) :
    (x >>= f).OutOfBounds s length := by
  obtain ⟨start, count, t, ht⟩ := h
  exact ⟨start, count, t, run_bind_of_error ht⟩

theorem run_onStrings {α : Type} {x : StateM Interner α} {b : α} {i : Interner}
    (h : x s.workspace.strings = (b, i)) :
    (onStrings x).run s = (.ok b, ⟨{ s.workspace with strings := i }, s.console⟩) := by
  have hrun : (onStrings x).run s = (.ok (x s.workspace.strings).1,
    ⟨{ s.workspace with strings := (x s.workspace.strings).2 }, s.console⟩) := rfl
  rw [hrun, h]

section

variable (h : s.workspace.strings.Sound E)
include h

theorem gives_pure {a : Str} (ha : a ∈ E) : (pure a : Action Str).Gives s E a.text :=
  ⟨a, s, E, rfl, rfl, ha, Set.Subset.rfl, h⟩

theorem gives_made {x : StateM Interner Str} {key? : Option Cache.Key}
    (hx : x s.workspace.strings = s.workspace.strings.make key? text)
    (hkey : ∀ key, key? = some key → key.Denotes E text) : (onStrings x).Gives s E text := by
  obtain ⟨hm, hj⟩ := h.make hkey
  rw [← hx] at hm hj
  exact ⟨_, ⟨⟨(x s.workspace.strings).2, _, _⟩, _⟩, _, rfl, hm.text_eq, Set.mem_insert _ _,
    Set.subset_insert _ _, hj⟩

theorem gives_concat {a b : Str} (ha : a ∈ E) (hb : b ∈ E) :
    (onStrings (Cache.concat a b)).Gives s E (a.text ++ b.text) :=
  gives_made h (Cache.concat_eq_make a b _) (Cache.denotes_joinKey? ha hb)

theorem gives_special (which : Cache.Special) :
    (onStrings (fun i => (i.cache.special which, i))).Gives s E which.word := by
  have hp := h.cache.special which
  exact ⟨_, s, E, rfl, hp.text_eq, hp.mem, Set.Subset.rfl, h⟩

theorem gives_toStr {v : Value} (hv : v.text? = some text) (hE : v.Within E) :
    (toStr v).Gives s E text := by
  cases v with
  | null =>
    obtain rfl := Option.some.inj hv
    exact gives_special h .null
  | bool b =>
    obtain rfl := Option.some.inj hv
    cases b with
    | true => exact gives_special h .yes
    | false => exact gives_special h .no
  | int n =>
    obtain rfl := Option.some.inj hv
    exact gives_made h (Cache.intString_eq_make n _) (Cache.denotes_integer n)
  | str a =>
    obtain rfl := Option.some.inj hv
    exact gives_pure h hE
  | block body => cases hv

theorem gives_slice {a : Str} (ha : a ∈ E) {start stop : Nat}
    (ht : Text.slice? a.text start stop = some text) : (slice a start stop).Gives s E text := by
  obtain ⟨hm, hj⟩ := h.make (Cache.denotes_partKey? ha ht)
  have hsub := Cache.substring_eq_make a start stop s.workspace.strings
  rw [ht] at hsub
  exact ⟨_, _, _, run_bind_of_ok (run_onStrings hsub), hm.text_eq, Set.mem_insert _ _,
    Set.subset_insert _ _, hj⟩

end

theorem run_slice_of_none {a : Str} {start stop : Nat} (ht : Text.slice? a.text start stop = none) :
    ∃ t, (slice a start stop).run s =
      (.error (.error (.outOfBounds (.ofNat start) (.ofNat (stop - start)) a.length)), t) := by
  have hsub := Cache.substring_eq_make a start stop s.workspace.strings
  rw [ht] at hsub
  exact ⟨_, run_bind_of_ok (run_onStrings hsub)⟩

theorem outOfBounds_slice {a : Str} {start stop : Nat} (ht : Text.slice? a.text start stop = none) :
    (slice a start stop).OutOfBounds s a.length := by
  obtain ⟨t, hrun⟩ := run_slice_of_none ht
  exact ⟨_, _, t, hrun⟩

theorem outOfBounds_head {a : Str} {first : Nat} (h : ¬ String.Pos.Raw.IsValid a.text ⟨first⟩) :
    (slice a 0 first).OutOfBounds s a.length :=
  outOfBounds_slice (Text.slice?_head_eq_none_iff.2 h)

theorem outOfBounds_tail {a : Str} {last : Nat} (h : ¬ String.Pos.Raw.IsValid a.text ⟨last⟩) :
    (slice a last a.length).OutOfBounds s a.length :=
  outOfBounds_slice (Text.slice?_tail_eq_none_iff.2 h)

section

variable (h : s.workspace.strings.Sound E) {a : Str} (ha : a ∈ E) {head mid tail : String}
  {first last : Nat}
include h ha

theorem gives_head (htext : a.text = head ++ tail) (hfirst : head.utf8ByteSize = first) :
    (slice a 0 first).Gives s E head := by
  subst hfirst
  exact gives_slice h ha (htext ▸ Text.slice?_head head tail)

theorem gives_tail (htext : a.text = head ++ tail) (hlast : head.utf8ByteSize = last) :
    (slice a last a.length).Gives s E tail := by
  subst hlast
  rw [Str.length, htext]
  exact gives_slice h ha (htext ▸ Text.slice?_tail head tail)

theorem gives_delete (htext : a.text = head ++ mid ++ tail) (hfirst : head.utf8ByteSize = first)
    (hlast : first + mid.utf8ByteSize = last) : (delete a first last).Gives s E (head ++ tail) := by
  have hlength : a.length = last + tail.utf8ByteSize := by
    rw [Str.length, htext, String.utf8ByteSize_append, String.utf8ByteSize_append]
    omega
  have htail : (slice a last a.length).Gives s E tail :=
    gives_tail h ha htext (by rw [String.utf8ByteSize_append]; omega)
  have hhead : (slice a 0 first).Gives s E head :=
    gives_head h ha (htext.trans (String.append_assoc ..)) hfirst
  unfold delete
  by_cases h0 : first = 0
  · obtain rfl : head = "" := String.utf8ByteSize_eq_zero_iff.1 (hfirst.trans h0)
    rw [if_pos h0, String.empty_append]
    by_cases hl : last = a.length
    · obtain rfl : tail = "" := String.utf8ByteSize_eq_zero_iff.1 (by omega)
      rw [if_pos hl]
      exact gives_special h .empty
    · rw [if_neg hl]
      exact htail
  · rw [if_neg h0]
    by_cases hm : first = last
    · obtain rfl : mid = "" := String.utf8ByteSize_eq_zero_iff.1 (by omega)
      rw [if_pos hm, ← String.append_empty (s := head), ← htext]
      exact gives_pure h ha
    · rw [if_neg hm]
      by_cases hl : last = a.length
      · obtain rfl : tail = "" := String.utf8ByteSize_eq_zero_iff.1 (by omega)
        rw [if_pos hl, String.append_empty]
        exact hhead
      · rw [if_neg hl]
        refine hhead.bind fun b t E' hb hbE hE ht => ?_
        refine (gives_tail ht (hE ha) htext (by rw [String.utf8ByteSize_append]; omega)).bind
          fun c u E'' hc hcE hE' hu => ?_
        rw [← hb, ← hc]
        exact gives_concat hu (hE' hbE) hcE

theorem gives_replace {b : Str} (hb : b ∈ E) (htext : a.text = head ++ mid ++ tail)
    (hfirst : head.utf8ByteSize = first) (hlast : first + mid.utf8ByteSize = last) :
    (replace a first last b).Gives s E (head ++ b.text ++ tail) := by
  unfold replace
  refine (gives_head h ha (htext.trans (String.append_assoc ..)) hfirst).bind
    fun c t E₁ hc hcE hE₁ ht => ?_
  refine (gives_concat ht hcE (hE₁ hb)).bind fun d u E₂ hd hdE hE₂ hu => ?_
  refine (gives_tail hu (hE₂ (hE₁ ha)) htext (by rw [String.utf8ByteSize_append]; omega)).bind
    fun e v E₃ he heE hE₃ hv => ?_
  rw [← hc, ← hd, ← he]
  exact gives_concat hv (hE₃ hdE) heE

theorem outOfBounds_delete (hlt : first < last)
    (hn : ¬ (String.Pos.Raw.IsValid a.text ⟨first⟩ ∧ String.Pos.Raw.IsValid a.text ⟨last⟩)) :
    (delete a first last).OutOfBounds s a.length := by
  unfold delete
  by_cases h0 : first = 0
  · have hvalid : ¬ String.Pos.Raw.IsValid a.text ⟨last⟩ := by
      intro hv
      exact hn ⟨h0 ▸ String.Pos.Raw.isValid_zero, hv⟩
    have hl : last ≠ a.length := by
      rintro rfl
      exact hvalid String.Pos.Raw.isValid_rawEndPos
    rw [if_pos h0, if_neg hl]
    exact outOfBounds_tail hvalid
  · rw [if_neg h0, if_neg hlt.ne]
    by_cases hfirst : String.Pos.Raw.IsValid a.text ⟨first⟩
    · have hvalid : ¬ String.Pos.Raw.IsValid a.text ⟨last⟩ := fun hv => hn ⟨hfirst, hv⟩
      have hl : last ≠ a.length := by
        rintro rfl
        exact hvalid String.Pos.Raw.isValid_rawEndPos
      obtain ⟨head, hhead⟩ := Text.exists_slice?_head hfirst
      rw [if_neg hl]
      refine (gives_slice h ha hhead).outOfBounds_bind fun b t E' hb hbE hE ht => ?_
      exact (outOfBounds_tail hvalid).bind
    · by_cases hl : last = a.length
      · rw [if_pos hl]
        exact outOfBounds_head hfirst
      · rw [if_neg hl]
        exact (outOfBounds_head hfirst).bind

theorem outOfBounds_replace {b : Str} (hb : b ∈ E)
    (hn : ¬ (String.Pos.Raw.IsValid a.text ⟨first⟩ ∧ String.Pos.Raw.IsValid a.text ⟨last⟩)) :
    (replace a first last b).OutOfBounds s a.length := by
  unfold replace
  by_cases hfirst : String.Pos.Raw.IsValid a.text ⟨first⟩
  · have hvalid : ¬ String.Pos.Raw.IsValid a.text ⟨last⟩ := fun hv => hn ⟨hfirst, hv⟩
    obtain ⟨head, hhead⟩ := Text.exists_slice?_head hfirst
    refine (gives_slice h ha hhead).outOfBounds_bind fun c t E₁ hc hcE hE₁ ht => ?_
    refine (gives_concat ht hcE (hE₁ hb)).outOfBounds_bind fun d u E₂ hd hdE hE₂ hu => ?_
    exact (outOfBounds_tail hvalid).bind
  · exact (outOfBounds_head hfirst).bind

end

theorem run_range_of_fits {start count : Int64} (h0 : 0 ≤ start) (hc : 0 ≤ count)
    (hle : start.toInt.toNat + count.toInt.toNat ≤ length) :
    (range start count length).run s =
      (.ok (start.toInt.toNat, start.toInt.toNat + count.toInt.toNat), s) := by
  have hsign : ¬ (start < 0 ∨ count < 0) := not_or.2 ⟨Int64.not_lt.2 h0, Int64.not_lt.2 hc⟩
  have hends : byteRange start count length =
      .ok (start.toInt.toNat, start.toInt.toNat + count.toInt.toNat) := by
    rw [byteRange, if_neg hsign]
    exact if_pos hle
  rw [range, hends]
  rfl

theorem run_range_of_not_fits {start count : Int64}
    (h : ¬ (0 ≤ start ∧ 0 ≤ count ∧ start.toInt.toNat + count.toInt.toNat ≤ length)) :
    (range start count length).run s = (.error (.error (.outOfBounds start count length)), s) := by
  have hends : byteRange start count length = .error (.outOfBounds start count length) := by
    rw [byteRange]
    by_cases hsign : start < 0 ∨ count < 0
    · exact if_pos hsign
    · obtain ⟨h0, hc⟩ := not_or.1 hsign
      rw [if_neg hsign]
      exact if_neg fun hle => h ⟨Int64.not_lt.1 h0, Int64.not_lt.1 hc, hle⟩
  rw [range, hends]
  rfl

theorem outOfBounds_range {start count : Int64}
    (h : ¬ (0 ≤ start ∧ 0 ≤ count ∧ start.toInt.toNat + count.toInt.toNat ≤ length)) :
    (range start count length).OutOfBounds s length :=
  ⟨start, count, s, run_range_of_not_fits h⟩

theorem run_toInt {v : Value} {n : Int64} (h : v.toInt = .ok n) : (toInt v).run s = (.ok n, s) := by
  rw [toInt, h]
  rfl

def exchange (a : Str) (first last : Nat) (b : Str) : Action Str :=
  if b.isEmpty then delete a first last else replace a first last b

section

variable (h : s.workspace.strings.Sound E) {a b : Str} (ha : a ∈ E) (hb : b ∈ E) {first last : Nat}
include h ha hb

theorem gives_exchange {head mid tail : String} (htext : a.text = head ++ mid ++ tail)
    (hfirst : head.utf8ByteSize = first) (hlast : first + mid.utf8ByteSize = last) :
    (exchange a first last b).Gives s E (head ++ b.text ++ tail) := by
  unfold exchange
  by_cases hempty : b.isEmpty
  · have hbtext : b.text = "" := String.isEmpty_iff.1 hempty
    rw [if_pos hempty, hbtext, String.append_empty]
    exact gives_delete h ha htext hfirst hlast
  · rw [if_neg hempty]
    exact gives_replace h ha hb htext hfirst hlast

theorem outOfBounds_exchange (hlt : b.text = "" → first < last)
    (hn : ¬ (String.Pos.Raw.IsValid a.text ⟨first⟩ ∧ String.Pos.Raw.IsValid a.text ⟨last⟩)) :
    (exchange a first last b).OutOfBounds s a.length := by
  unfold exchange
  by_cases hempty : b.isEmpty
  · rw [if_pos hempty]
    exact outOfBounds_delete h ha (hlt (String.isEmpty_iff.1 hempty)) hn
  · rw [if_neg hempty]
    exact outOfBounds_replace h ha hb hn

end

def exchangeRange (v : Value) (start count : Int64) (b : Str) : Action Value := do
  let a ← toStr v
  let ends ← range start count a.length
  return .str (← exchange a ends.1 ends.2 b)

section

variable {v start count replacement : Value} {r : String} {i n : Int64}
  (hi : start.toInt = .ok i) (hn : count.toInt = .ok n)
  (h : s.workspace.strings.Sound E) (hr : replacement.text? = some r) (hrE : replacement.Within E)
include hi hn h hr hrE

theorem run_substitute : ∃ b t E', b.text = r ∧ b ∈ E' ∧ E ⊆ E' ∧ t.workspace.strings.Sound E' ∧
    (substitute v start count replacement).run s =
      (if n = 0 ∧ r = "" then return v else exchangeRange v i n b : Action Value).run t := by
  obtain ⟨b, t, E', hb, htext, hbE, hE, ht⟩ := gives_toStr h hr hrE
  refine ⟨b, t, E', htext, hbE, hE, ht, ?_⟩
  have hempty : b.isEmpty ↔ r = "" := by rw [Str.isEmpty, String.isEmpty_iff, htext]
  rw [substitute, run_bind_of_ok (run_toInt hi), run_bind_of_ok (run_toInt hn), run_bind_of_ok hb]
  by_cases hr : r = ""
  · simp only [hempty.2 hr, hr, exchangeRange, exchange, if_true]
  · simp only [mt hempty.1 hr, hr, exchangeRange, exchange, Bool.false_eq_true, and_false, if_false]

end

section

variable {v : Value} (hv : v.text? = some text) (hE : v.Within E) (h : s.workspace.strings.Sound E)
  {b : Str} (hb : b ∈ E) {i n : Int64}
include hv hE h hb

theorem run_exchangeRange (hrange : Text.HasRange text i n) : ∃ a t,
    (exchangeRange v i n b).run s = (.ok (.str a), t) ∧
      Text.bytes a.text =
        Text.splice (Text.bytes text) i.toInt.toNat n.toInt.toNat (Text.bytes b.text) := by
  obtain ⟨a, t, E', ha, rfl, haE, hE', ht⟩ := gives_toStr h hv hE
  obtain ⟨head, mid, tail, htext, hhead, hmid⟩ := hrange.exists_append
  have hends : (range i n a.length).run t =
      (.ok (i.toInt.toNat, i.toInt.toNat + n.toInt.toNat), t) :=
    run_range_of_fits hrange.start_nonneg hrange.count_nonneg hrange.stop_le
  obtain ⟨d, u, E'', hd, hdtext, -⟩ := gives_exchange ht haE (hE' hb) htext hhead (by rw [hmid])
  refine ⟨d, u, ?_, ?_⟩
  · rw [exchangeRange, run_bind_of_ok ha, run_bind_of_ok hends]
    exact run_bind_of_ok hd
  · rw [hdtext, htext, ← hhead, ← hmid, Text.splice_append]

theorem outOfBounds_exchangeRange (hne : ¬ (n = 0 ∧ b.text = ""))
    (hrange : ¬ Text.HasRange text i n) :
    (exchangeRange v i n b).OutOfBounds s text.utf8ByteSize := by
  refine (gives_toStr h hv hE).outOfBounds_bind fun a t E' ha haE hE' ht => ?_
  subst ha
  by_cases hfits : 0 ≤ i ∧ 0 ≤ n ∧ i.toInt.toNat + n.toInt.toNat ≤ a.length
  · obtain ⟨h0, hc, hle⟩ := hfits
    have hends : (range i n a.length).run t =
        (.ok (i.toInt.toNat, i.toInt.toNat + n.toInt.toNat), t) := run_range_of_fits h0 hc hle
    have hlt : b.text = "" → i.toInt.toNat < i.toInt.toNat + n.toInt.toNat := by
      intro hempty
      have hn0 : n.toInt ≠ 0 := fun hn0 => hne ⟨Int64.toInt_inj.1 hn0, hempty⟩
      have hc0 : 0 ≤ n.toInt := Int64.le_iff_toInt_le.1 hc
      omega
    have hsplit : (exchange a i.toInt.toNat (i.toInt.toNat + n.toInt.toNat) b).OutOfBounds t
        a.length :=
      outOfBounds_exchange ht haE (hE' hb) hlt
        fun hvalid => hrange ⟨h0, hc, hle, hvalid.1, hvalid.2⟩
    obtain ⟨start, count, u, hu⟩ := hsplit.bind (f := fun d => (return .str d : Action Value))
    exact ⟨start, count, u, (run_bind_of_ok hends).trans hu⟩
  · exact (outOfBounds_range hfits).bind

end

end Action

namespace Caches

theorem Sound.within {s : Caches} {E : Set Str} (h : s.Sound E) {v : Value} (hv : s.HasValue v) :
    v.Within E := by
  cases v with
  | str a => exact h.holds hv
  | _ => trivial

/-- In every state that several caches can reach, on every value that has a text: what comes out has
the text with the replacement in the place of the range, and it is a string, unless nothing was put in
the place of nothing; and a range that is not there is refused, unless nothing is put in its place and
it is empty. -/
theorem substitute_splices (uses : List Use) {k : Nat} {c : Cache}
    (hc : (run uses).members[k]? = some c) {s : State}
    (hs : s.workspace.strings = ⟨(run uses).supply, c⟩) {v start count replacement : Value}
    {text r : String} {i n : Int64} (hv : v.text? = some text) (hheld : (run uses).HasValue v)
    (hi : start.toInt = .ok i) (hn : count.toInt = .ok n) (hr : replacement.text? = some r)
    (hheld' : (run uses).HasValue replacement) :
    (Text.HasRange text i n → ∃ w t result,
      (Action.substitute v start count replacement).run s = (.ok w, t) ∧ w.text? = some result ∧
        Text.bytes result =
          Text.splice (Text.bytes text) i.toInt.toNat n.toInt.toNat (Text.bytes r) ∧
        if n = 0 ∧ r = "" then w = v else w.kind = .string) ∧
    (¬ Text.HasRange text i n → ¬ (n = 0 ∧ r = "") → ∃ a b t,
      (Action.substitute v start count replacement).run s =
        (.error (.error (.outOfBounds a b text.utf8ByteSize)), t)) := by
  obtain ⟨E, h⟩ := sound_run uses
  have hsound : s.workspace.strings.Sound E := hs ▸ h.interner hc
  obtain ⟨b, t, E', rfl, hb, hE, ht, hrun⟩ :=
    Action.run_substitute hi hn hsound hr (h.within hheld')
  have hvE : v.Within E' := (h.within hheld).mono hE
  rw [hrun]
  by_cases hno : n = 0 ∧ b.text = ""
  · simp only [if_pos hno]
    refine ⟨fun hrange => ⟨v, t, text, rfl, hv, ?_, rfl⟩, fun _ hne => absurd hno hne⟩
    obtain ⟨rfl, hempty⟩ := hno
    have hbytes : Text.bytes "" = [] := rfl
    rw [hempty, hbytes, Text.splice, List.append_nil]
    exact (List.take_append_drop _ _).symm
  · simp only [if_neg hno]
    refine ⟨fun hrange => ?_, fun hrange _ => Action.outOfBounds_exchangeRange hv hvE ht hb hno hrange⟩
    obtain ⟨a, u, ha, hbytes⟩ := Action.run_exchangeRange hv hvE ht hb hrange
    exact ⟨.str a, u, a.text, ha, rfl, hbytes, rfl⟩

theorem substitute_splices_accent :
    let s := run [.create {}, .ask 0 (.text "hé!"), .ask 0 (.text "a")]
    let v : Str := ⟨"hé!", .interned 5 1⟩
    let r : Str := ⟨"a", .interned 6 1⟩
    ∃ c, s.members[0]? = some c ∧ s.Holds v ∧ s.Holds r ∧
      let start : State := ⟨⟨⟨s.supply, c⟩, .empty, 0⟩, {}⟩
      (∃ w t, (Action.substitute (.str v) (.int 1) (.int 2) (.str r)).run start = (.ok w, t) ∧
        w.text? = some "ha!" ∧ w.kind = .string) ∧
      ∃ a b t, (Action.substitute (.str v) (.int 1) (.int 1) (.str r)).run start =
        (.error (.error (.outOfBounds a b 4)), t) := by
  intro s v r
  have hv : s.HasValue (.str v) := .inl (by decide)
  have hr : s.HasValue (.str r) := .inl (by decide)
  obtain ⟨c, hc⟩ : ∃ c, s.members[0]? = some c := ⟨_, rfl⟩
  refine ⟨c, hc, hv, hr, ?_⟩
  intro start
  have whole : Text.HasRange v.text 1 2 :=
    ⟨by decide, by decide, by decide, by decide, by decide⟩
  have hint (n : Int64) : (Value.int n).toInt = .ok n := rfl
  have half : ¬ Text.HasRange v.text 1 1 := fun h => absurd h.valid_stop (by decide)
  constructor
  · obtain ⟨w, t, result, hrun, hresult, hbytes, hkind⟩ :=
      (substitute_splices _ hc (s := start) rfl rfl hv (hint 1) (hint 2) rfl hr).1 whole
    obtain rfl : result = "ha!" := Text.bytes_inj.1 (hbytes.trans (by decide))
    exact ⟨w, t, hrun, hresult, hkind⟩
  · exact (substitute_splices _ hc (s := start) rfl rfl hv (hint 1) (hint 1) rfl hr).2 half (by decide)

/-- An integer stays an integer where nothing is put in the place of nothing, though the range is there. -/
theorem substitute_keeps_integer :
    let s := run [.create {}]
    ∃ c, s.members[0]? = some c ∧ s.Holds c.empty ∧ c.empty.text = "" ∧
      (Value.int 5).text? = some "5" ∧ Text.HasRange "5" 0 0 ∧
      ∃ w t, (Action.substitute (.int 5) (.int 0) (.int 0) (.str c.empty)).run
        ⟨⟨⟨s.supply, c⟩, .empty, 0⟩, {}⟩ = (.ok w, t) ∧ w.kind = .int := by
  intro s
  have hc : s.members[0]? = some (Cache.create {} {}).1 := rfl
  refine ⟨_, hc, .inr ⟨_, List.mem_of_getElem? hc, .inr (.inr ⟨.empty, rfl⟩)⟩, rfl, ?_, ?_, ?_⟩
  · decide
  · exact ⟨by decide, by decide, by decide, by decide, by decide⟩
  · exact ⟨.int 5, _, rfl, rfl⟩

end Caches

end KnightLang
