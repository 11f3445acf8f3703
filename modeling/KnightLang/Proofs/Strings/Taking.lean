import KnightLang.Proofs.Strings.Splicing
import Mathlib.Algebra.Group.Nat.Defs

namespace KnightLang

namespace Text

/-- An empty range within a character of a text. -/
structure InCharacter (text : String) (start count : Int64) : Prop where
  start_nonneg : 0 ≤ start
  count_eq : count = 0
  start_le : start.toInt.toNat ≤ text.utf8ByteSize
  not_valid : ¬ String.Pos.Raw.IsValid text ⟨start.toInt.toNat⟩

variable {text : String} {start count : Int64}

theorem InCharacter.not_hasRange (h : InCharacter text start count) : ¬ HasRange text start count :=
  fun hrange => h.not_valid hrange.valid_start

theorem slice?_eq_none_of_not_hasRange (h0 : 0 ≤ start) (hc : 0 ≤ count)
    (hle : start.toInt.toNat + count.toInt.toNat ≤ text.utf8ByteSize)
    (h : ¬ HasRange text start count) :
    slice? text start.toInt.toNat (start.toInt.toNat + count.toInt.toNat) = none := by
  rw [slice?_eq_none_iff]
  by_contra hn
  simp only [not_or, not_not] at hn
  obtain ⟨-, -, hstart, hstop⟩ := hn
  exact h ⟨h0, hc, hle, hstart, hstop⟩

theorem slice?_self {s : String} {i : ℕ} {t : String} (h : slice? s i i = some t) : t = "" := by
  have hbytes := bytes_of_slice? h
  rw [Nat.sub_self, List.take_zero] at hbytes
  exact bytes_inj.1 hbytes

theorem slice?_whole (s : String) : slice? s 0 s.utf8ByteSize = some s :=
  slice?_eq_some_iff.2 ⟨"", "", by simp, rfl, by simp⟩

theorem ofNat_offset {n : Int64} (h : 0 ≤ n) : Int64.ofNat n.toInt.toNat = n := by
  rw [Int64.le_iff_toInt_le] at h
  rw [← Int64.ofInt_eq_ofNat, Int.toNat_of_nonneg h, Int64.ofInt_toInt]

theorem eq_zero_of_offset {n : Int64} (h : 0 ≤ n) (h0 : n.toInt.toNat = 0) : n = 0 := by
  rw [← ofNat_offset h, h0]
  rfl

theorem offset_add_lt (i n : Int64) : i.toInt.toNat + n.toInt.toNat < 2 ^ 64 := by
  have hi := i.toInt_lt
  have hn := n.toInt_lt
  omega

end Text

namespace Action

def take (a : Str) (first last : ℕ) : Action Str :=
  if first = last then onStrings Cache.emptyString
  else if first = 0 ∧ last = a.length then return a
  else slice a first last

theorem take_self (a : Str) (first : ℕ) : take a first first = onStrings Cache.emptyString :=
  if_pos rfl

def getThrough (cut : Str → ℕ → ℕ → Action Str) (string start count : Value) : Action Value := do
  let s ← toStr string
  let start ← toInt start
  let count ← toInt count
  let ends ← range start count s.length
  return .str (← cut s ends.1 ends.2)

theorem get_eq_getThrough : get = getThrough take := by
  funext string start count
  unfold get getThrough take
  refine bind_congr fun s => bind_congr fun i => bind_congr fun n => bind_congr fun ends => ?_
  dsimp only
  split
  · rfl
  · split <;> rfl

structure Cuts (cut : Str → ℕ → ℕ → Action Str) : Prop where
  gives {s : State} {E : Set Str} {a : Str} {first last : ℕ} {part : String}
    (h : s.workspace.strings.Sound E) (ha : a ∈ E) (hp : Text.slice? a.text first last = some part) :
    (cut a first last).Gives s E part
  refuses {s : State} {a : Str} {first last : ℕ} (hp : Text.slice? a.text first last = none)
    (hne : first ≠ last) : ∃ t, (cut a first last).run s =
      (.error (.error (.outOfBounds (.ofNat first) (.ofNat (last - first)) a.length)), t)

theorem cuts_slice : Cuts slice :=
  ⟨fun h ha hp => gives_slice h ha hp, fun hp _ => run_slice_of_none hp⟩

theorem cuts_take : Cuts take where
  gives {s E a first last part} h ha hp := by
    unfold take
    split
    · rename_i heq
      subst heq
      obtain rfl := Text.slice?_self hp
      exact gives_special h .empty
    · split
      · rename_i hall
        obtain ⟨rfl, rfl⟩ := hall
        obtain rfl := Option.some.inj ((Text.slice?_whole a.text).symm.trans hp)
        exact gives_pure h ha
      · exact gives_slice h ha hp
  refuses {s a first last} hp hne := by
    have hall : ¬ (first = 0 ∧ last = a.length) := by
      rintro ⟨rfl, rfl⟩
      cases (Text.slice?_whole a.text).symm.trans hp
    rw [take, if_neg hne, if_neg hall]
    exact run_slice_of_none hp

theorem run_range_cut_of_refused {cut : Str → ℕ → ℕ → Action Str} {a : Str} {i n : Int64} {s t : State}
    (h0 : 0 ≤ i) (hc : 0 ≤ n) (hle : i.toInt.toNat + n.toInt.toNat ≤ a.length)
    (hcut : (cut a i.toInt.toNat (i.toInt.toNat + n.toInt.toNat)).run s =
      (.error (.error (.outOfBounds (.ofNat i.toInt.toNat)
        (.ofNat (i.toInt.toNat + n.toInt.toNat - i.toInt.toNat)) a.length)), t)) :
    (range i n a.length >>= fun ends =>
      cut a ends.1 ends.2 >>= fun b => pure (.str b) : Action Value).run s =
        (.error (.error (.outOfBounds i n a.length)), t) := by
  rw [Nat.add_sub_cancel_left, Text.ofNat_offset h0, Text.ofNat_offset hc] at hcut
  rw [run_bind_of_ok (run_range_of_fits h0 hc hle)]
  exact run_bind_of_error hcut

section

variable {cut : Str → ℕ → ℕ → Action Str} {s : State} {E : Set Str}
  (h : s.workspace.strings.Sound E) {v start count : Value} {text : String} {i n : Int64}
  (hv : v.text? = some text) (hE : v.Within E) (hi : start.toInt = .ok i) (hn : count.toInt = .ok n)
include h hv hE hi hn

theorem run_getThrough : ∃ a t E', a.text = text ∧ a ∈ E' ∧ t.workspace.strings.Sound E' ∧
    ∀ cut, (getThrough cut v start count).run s =
      (range i n text.utf8ByteSize >>= fun ends =>
        cut a ends.1 ends.2 >>= fun b => pure (.str b)).run t := by
  obtain ⟨a, t, E', ha, rfl, haE, -, ht⟩ := gives_toStr h hv hE
  refine ⟨a, t, E', rfl, haE, ht, fun cut => ?_⟩
  rw [getThrough, run_bind_of_ok ha, run_bind_of_ok (run_toInt hi), run_bind_of_ok (run_toInt hn)]
  rfl

theorem run_getThrough_of_hasRange (hcut : Cuts cut) (hrange : Text.HasRange text i n) : ∃ a t,
    (getThrough cut v start count).run s = (.ok (.str a), t) ∧
      Text.bytes a.text = ((Text.bytes text).drop i.toInt.toNat).take n.toInt.toNat := by
  obtain ⟨a, t, E', rfl, haE, ht, hrun⟩ := run_getThrough h hv hE hi hn
  obtain ⟨part, hpart⟩ := hrange.exists_slice?
  obtain ⟨b, u, -, hb, htext, -⟩ := hcut.gives ht haE hpart
  refine ⟨b, u, ?_, ?_⟩
  · rw [hrun, run_bind_of_ok
      (run_range_of_fits hrange.start_nonneg hrange.count_nonneg hrange.stop_le)]
    exact run_bind_of_ok hb
  · rw [htext, Text.bytes_of_slice? hpart, Nat.add_sub_cancel_left]

theorem run_getThrough_of_not_hasRange (hcut : Cuts cut) (hrange : ¬ Text.HasRange text i n)
    (hin : ¬ Text.InCharacter text i n) : ∃ t, (getThrough cut v start count).run s =
      (.error (.error (.outOfBounds i n text.utf8ByteSize)), t) := by
  obtain ⟨a, t, E', rfl, haE, ht, hrun⟩ := run_getThrough h hv hE hi hn
  rw [hrun]
  by_cases hfits : 0 ≤ i ∧ 0 ≤ n ∧ i.toInt.toNat + n.toInt.toNat ≤ a.text.utf8ByteSize
  · obtain ⟨h0, hc, hle⟩ := hfits
    have hpart := Text.slice?_eq_none_of_not_hasRange h0 hc hle hrange
    have hne : i.toInt.toNat ≠ i.toInt.toNat + n.toInt.toNat := by
      intro heq
      have hn0 : n = 0 := Text.eq_zero_of_offset hc (by omega)
      refine hin ⟨h0, hn0, by omega, fun hvalid => ?_⟩
      rw [Text.slice?_eq_none_iff, ← heq] at hpart
      rcases hpart with hp | hp | hp | hp
      · omega
      · omega
      · exact hp hvalid
      · exact hp hvalid
    obtain ⟨u, hu⟩ := hcut.refuses (s := t) hpart hne
    exact ⟨u, run_range_cut_of_refused h0 hc hle hu⟩
  · exact ⟨t, run_bind_of_error (run_range_of_not_fits hfits)⟩

theorem run_get_inCharacter (hin : Text.InCharacter text i n) : ∃ a t,
    (get v start count).run s = (.ok (.str a), t) ∧ a.text = "" := by
  obtain ⟨a, t, E', rfl, haE, ht, hrun⟩ := run_getThrough h hv hE hi hn
  obtain ⟨b, u, -, hb, htext, -⟩ := gives_special ht .empty
  obtain rfl := hin.count_eq
  have hempty : (take a i.toInt.toNat (i.toInt.toNat + (0 : Int64).toInt.toNat)).run t = (.ok b, u) :=
    (congrArg (·.run t) (take_self a i.toInt.toNat)).trans hb
  refine ⟨b, u, ?_, htext⟩
  rw [get_eq_getThrough, hrun,
    run_bind_of_ok (run_range_of_fits hin.start_nonneg (by decide) hin.start_le)]
  exact run_bind_of_ok hempty

theorem run_getThrough_slice_inCharacter (hin : Text.InCharacter text i n) : ∃ t,
    (getThrough slice v start count).run s =
      (.error (.error (.outOfBounds i n text.utf8ByteSize)), t) := by
  obtain ⟨a, t, E', rfl, haE, ht, hrun⟩ := run_getThrough h hv hE hi hn
  obtain rfl := hin.count_eq
  have hpart : Text.slice? a.text i.toInt.toNat (i.toInt.toNat + (0 : Int64).toInt.toNat) = none :=
    Text.slice?_eq_none_of_not_hasRange hin.start_nonneg (by decide) hin.start_le hin.not_hasRange
  obtain ⟨u, hu⟩ := run_slice_of_none (s := t) hpart
  exact ⟨u, (hrun slice).trans
    (run_range_cut_of_refused hin.start_nonneg (by decide) hin.start_le hu)⟩

end

end Action

namespace Caches

/-- In every state that several caches can reach, on every value that has a text: a range that is there
is taken, an empty range within a character gives the empty string, and any other range is refused. But
for an empty range within a character, it is as though every range were cut out through the cache. -/
theorem get_takes_range (uses : List Use) {k : ℕ} {c : Cache} (hc : (run uses).members[k]? = some c)
    {s : State} (hs : s.workspace.strings = ⟨(run uses).supply, c⟩) {v start count : Value}
    {text : String} {i n : Int64} (hv : v.text? = some text) (hheld : (run uses).HasValue v)
    (hi : start.toInt = .ok i) (hn : count.toInt = .ok n) :
    i.toInt.toNat + n.toInt.toNat < 2 ^ 64 ∧
    (Text.HasRange text i n → ∃ a t, (Action.get v start count).run s = (.ok (.str a), t) ∧
      Text.bytes a.text = ((Text.bytes text).drop i.toInt.toNat).take n.toInt.toNat) ∧
    (¬ Text.HasRange text i n → ¬ Text.InCharacter text i n → ∃ t,
      (Action.get v start count).run s =
        (.error (.error (.outOfBounds i n text.utf8ByteSize)), t)) ∧
    (Text.InCharacter text i n →
      (∃ a t, (Action.get v start count).run s = (.ok (.str a), t) ∧ a.text = "") ∧
      ∃ t, (Action.getThrough Action.slice v start count).run s =
        (.error (.error (.outOfBounds i n text.utf8ByteSize)), t)) ∧
    (¬ Text.InCharacter text i n →
      ((Action.get v start count).run s).1.map Value.text? =
        ((Action.getThrough Action.slice v start count).run s).1.map Value.text?) := by
  obtain ⟨E, hE⟩ := sound_run uses
  have h : s.workspace.strings.Sound E := hs ▸ hE.interner hc
  have hin := hE.within hheld
  have hget := Action.get_eq_getThrough
  refine ⟨Text.offset_add_lt i n, ?_, ?_, ?_, ?_⟩
  · intro hrange
    rw [hget]
    exact Action.run_getThrough_of_hasRange h hv hin hi hn Action.cuts_take hrange
  · intro hrange hnot
    rw [hget]
    exact Action.run_getThrough_of_not_hasRange h hv hin hi hn Action.cuts_take hrange hnot
  · intro hgap
    exact ⟨Action.run_get_inCharacter h hv hin hi hn hgap,
      Action.run_getThrough_slice_inCharacter h hv hin hi hn hgap⟩
  · intro hnot
    rw [hget]
    by_cases hrange : Text.HasRange text i n
    · obtain ⟨a, t, ha, hatext⟩ :=
        Action.run_getThrough_of_hasRange h hv hin hi hn Action.cuts_take hrange
      obtain ⟨b, u, hb, hbtext⟩ :=
        Action.run_getThrough_of_hasRange h hv hin hi hn Action.cuts_slice hrange
      have hab : a.text = b.text := Text.bytes_inj.1 (hatext.trans hbtext.symm)
      rw [ha, hb]
      exact congrArg (fun text => Except.ok (some text)) hab
    · obtain ⟨t, ht⟩ :=
        Action.run_getThrough_of_not_hasRange h hv hin hi hn Action.cuts_take hrange hnot
      obtain ⟨u, hu⟩ :=
        Action.run_getThrough_of_not_hasRange h hv hin hi hn Action.cuts_slice hrange hnot
      rw [ht, hu]

theorem get_takes_range_accent :
    let s := run [.create {}, .ask 0 (.text "hé!")]
    let v : Str := ⟨"hé!", .interned 5 1⟩
    ∃ c, s.members[0]? = some c ∧ s.Holds v ∧
      let start : State := ⟨⟨⟨s.supply, c⟩, .empty, 0⟩, {}⟩
      (∃ a t, (Action.get (.str v) (.int 1) (.int 2)).run start = (.ok (.str a), t) ∧
        a.text = "é") ∧
      ∃ t, (Action.get (.str v) (.int 1) (.int 1)).run start =
        (.error (.error (.outOfBounds 1 1 4)), t) := by
  intro s v
  have hv : s.HasValue (.str v) := .inl (by decide)
  obtain ⟨c, hc⟩ : ∃ c, s.members[0]? = some c := ⟨_, rfl⟩
  refine ⟨c, hc, hv, ?_⟩
  intro start
  have hint (n : Int64) : (Value.int n).toInt = .ok n := rfl
  have whole : Text.HasRange v.text 1 2 := ⟨by decide, by decide, by decide, by decide, by decide⟩
  have half : ¬ Text.HasRange v.text 1 1 := fun h => absurd h.valid_stop (by decide)
  have hfull : ¬ Text.InCharacter v.text 1 1 := fun h => absurd h.count_eq (by decide)
  constructor
  · obtain ⟨a, t, hrun, hbytes⟩ :=
      (get_takes_range _ hc (s := start) rfl rfl hv (hint 1) (hint 2)).2.1 whole
    exact ⟨a, t, hrun, Text.bytes_inj.1 (hbytes.trans (by decide))⟩
  · exact (get_takes_range _ hc (s := start) rfl rfl hv (hint 1) (hint 1)).2.2.1 half hfull

/-- Nothing can be taken from the middle of a character, where nothing can be put. -/
theorem get_within_character :
    let s := run [.create {}, .ask 0 (.text "é"), .ask 0 (.text "x")]
    let v : Str := ⟨"é", .interned 5 1⟩
    let r : Str := ⟨"x", .interned 6 1⟩
    ¬ Text.HasRange v.text 1 0 ∧ s.Holds v ∧ s.Holds r ∧ ∃ c, s.members[0]? = some c ∧
      let start : State := ⟨⟨⟨s.supply, c⟩, .empty, 0⟩, {}⟩
      (∃ a t, (Action.get (.str v) (.int 1) (.int 0)).run start = (.ok (.str a), t) ∧ a.text = "") ∧
      (Action.substitute (.str v) (.int 1) (.int 0) (.str r)).OutOfBounds start 2 := by
  intro s v r
  have hrange : ¬ Text.HasRange v.text 1 0 := fun h => absurd h.valid_start (by decide)
  have hv : s.HasValue (.str v) := .inl (by decide)
  have hr : s.HasValue (.str r) := .inl (by decide)
  obtain ⟨c, hc⟩ : ∃ c, s.members[0]? = some c := ⟨_, rfl⟩
  refine ⟨hrange, hv, hr, c, hc, ?_⟩
  intro start
  obtain ⟨E, hE⟩ := sound_run [.create {}, .ask 0 (.text "é"), .ask 0 (.text "x")]
  have h : start.workspace.strings.Sound E := hE.interner hc
  have hint (n : Int64) : (Value.int n).toInt = .ok n := rfl
  constructor
  · exact Action.run_get_inCharacter h rfl (hE.within hv) (hint 1) (hint 0)
      ⟨by decide, rfl, by decide, by decide⟩
  · obtain ⟨b, t, E', hb, hbE, hE', ht, hrun⟩ :=
      Action.run_substitute (v := .str v) (hint 1) (hint 0) h rfl (hE.within hr)
    have hne : ¬ ((0 : Int64) = 0 ∧ b.text = "") := by
      rw [hb]
      decide
    obtain ⟨i, n, u, hu⟩ := Action.outOfBounds_exchangeRange (v := .str v) rfl
      ((hE.within hv).mono hE') ht hbE hne hrange
    refine ⟨i, n, u, ?_⟩
    rw [hrun, if_neg (by decide)]
    exact hu

end Caches

end KnightLang
