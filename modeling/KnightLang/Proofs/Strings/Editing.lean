import KnightLang.Proofs.Execution.Reaching
import KnightLang.Proofs.Lockstep.Growing
import KnightLang.Proofs.Spelling.Acting
import KnightLang.Proofs.Strings.Taking

namespace KnightLang

namespace Text

theorem splice_self (bs : List UInt8) (i n : ℕ) : splice bs i n ((bs.drop i).take n) = bs := by
  have hdrop : (bs.drop i).drop n = bs.drop (i + n) := List.drop_drop
  rw [splice, ← hdrop, List.append_assoc, List.take_append_drop, List.take_append_drop]

theorem hasRange_append {head mid tail : String} {i n : Int64} (hi : 0 ≤ i) (hn : 0 ≤ n)
    (hhead : head.utf8ByteSize = i.toInt.toNat) (hmid : mid.utf8ByteSize = n.toInt.toNat) :
    HasRange (head ++ mid ++ tail) i n where
  start_nonneg := hi
  count_nonneg := hn
  stop_le := by
    rw [String.utf8ByteSize_append, String.utf8ByteSize_append]
    omega
  valid_start := String.Pos.Raw.isValid_iff_exists_append.2
    ⟨head, mid ++ tail, String.append_assoc, by rw [← hhead]; rfl⟩
  valid_stop := String.Pos.Raw.isValid_iff_exists_append.2 ⟨head ++ mid, tail, rfl, by
    simp [String.Pos.Raw.ext_iff, String.utf8ByteSize_append, hhead, hmid]⟩

theorem toInt_ofNat_length {r : String} (h : r.utf8ByteSize < 2 ^ 63) :
    (Int64.ofNat r.utf8ByteSize).toInt.toNat = r.utf8ByteSize := by
  rw [Int64.toInt_ofNat_of_lt h, Int.toNat_natCast]

theorem ofNat_length_nonneg {r : String} (h : r.utf8ByteSize < 2 ^ 63) :
    0 ≤ Int64.ofNat r.utf8ByteSize := by
  rw [Int64.le_iff_toInt_le, Int64.toInt_ofNat_of_lt h]
  exact Int.natCast_nonneg _

theorem HasRange.eq_zero {text : String} {i n : Int64} (h : HasRange text i n)
    (hempty : ((bytes text).drop i.toInt.toNat).take n.toInt.toNat = []) : n = 0 := by
  have hstop := h.stop_le
  have hlength := congrArg List.length hempty
  rw [List.length_take, List.length_drop, length_bytes, List.length_nil] at hlength
  exact eq_zero_of_offset h.count_nonneg (by omega)

section

variable {text result r : String} {i n : Int64} (h : HasRange text i n)
  (hresult : bytes result = splice (bytes text) i.toInt.toNat n.toInt.toNat (bytes r))
include h hresult

theorem HasRange.exists_spliced : ∃ head mid tail, text = head ++ mid ++ tail ∧
    result = head ++ r ++ tail ∧ head.utf8ByteSize = i.toInt.toNat ∧
    mid.utf8ByteSize = n.toInt.toNat := by
  obtain ⟨head, mid, tail, rfl, hhead, hmid⟩ := h.exists_append
  rw [← hhead, ← hmid, splice_append] at hresult
  exact ⟨head, mid, tail, rfl, bytes_inj.1 hresult, hhead, hmid⟩

theorem HasRange.undo (hr : r.utf8ByteSize < 2 ^ 63) :
    HasRange result i (.ofNat r.utf8ByteSize) ∧
      ((bytes result).drop i.toInt.toNat).take r.utf8ByteSize = bytes r ∧
      splice (bytes result) i.toInt.toNat r.utf8ByteSize
        (((bytes text).drop i.toInt.toNat).take n.toInt.toNat) = bytes text := by
  obtain ⟨head, mid, tail, rfl, rfl, hhead, hmid⟩ := h.exists_spliced hresult
  have htaken (s : String) :
      ((bytes (head ++ s ++ tail)).drop head.utf8ByteSize).take s.utf8ByteSize = bytes s := by
    rw [bytes_append, bytes_append, List.append_assoc, ← length_bytes head, List.drop_left,
      ← length_bytes s, List.take_left]
  refine ⟨?_, ?_, ?_⟩
  · exact hasRange_append h.start_nonneg (ofNat_length_nonneg hr) hhead (toInt_ofNat_length hr).symm
  · rw [← hhead]
    exact htaken r
  · rw [← hhead, ← hmid, htaken mid]
    exact splice_append head r tail mid

theorem HasRange.length_eq : Int64.ofNat result.utf8ByteSize =
    Int64.ofNat text.utf8ByteSize - n + Int64.ofNat r.utf8ByteSize := by
  obtain ⟨head, mid, tail, rfl, rfl, hhead, hmid⟩ := h.exists_spliced hresult
  have hn : Int64.ofNat mid.utf8ByteSize = n := by rw [hmid, ofNat_offset h.count_nonneg]
  simp only [String.utf8ByteSize_append, Int64.ofNat_add, ← hn]
  grind

end

end Text

namespace Value

variable {E : Set Str} {v : Value}

theorem toInt_int (n : Int64) : (int n).toInt = .ok n := rfl

theorem matches_of_text? {text : String} (hv : v.text? = some text) (hE : v.Within E) :
    v.Matches 0 (.diagonal E) v := by
  cases v with
  | null => exact .null
  | bool b => exact .bool b
  | int n => exact .int n
  | str a => exact .str ⟨rfl, hE⟩
  | block body => cases hv

theorem Matches.within (h : v.Matches 0 (.diagonal E) v) : v.Within E := by
  cases h with
  | str ha => exact ha.2
  | _ => trivial

end Value

namespace Action

variable {s t : State} {E : Set Str}

theorem Uses.evolves {x : Action Value} (hx : x.Uses ∅) (h : s.workspace.strings.Sound E)
    (hacts : ∀ {L : Link}, L.Lawful → L.Acts 0 (.diagonal E) (Value.Matches 0) x x) {w : Value}
    (hrun : x.run s = (.ok w, t)) : ∃ E',
      s.workspace.strings.Evolves E t.workspace.strings E' ∧ w.Within E' := by
  -- The store of `s` may hold anything, so the action is compared with itself on an empty one.
  have hempty := hx.commutes_withStore (Set.notMem_empty _) .empty s
  rw [hrun] at hempty
  have halike : (s.withStore .empty).Alike (.growing s.workspace.strings E False) 0 (.diagonal E)
      (s.withStore .empty) :=
    ⟨⟨⟨rfl, E, .refl h, Pairing.diagonal_mono fun _ ha => ⟨ha, False.elim⟩⟩, Past.matches_empty,
      (Int.add_zero _).symm⟩, rfl⟩
  obtain ⟨w', -, hstate, hresult⟩ := hacts Link.lawful_growing le_rfl halike False.elim False.elim
  rw [hempty] at hstate hresult
  obtain ⟨-, E', hev, hw'⟩ := hstate.workspace.strings
  refine ⟨E', hev, ?_⟩
  cases hresult with
  | ok hv => exact (hv.mono (hw'.trans (Interner.kept_le _ _ _))).within

theorem toInt_eq_of_ok {v : Value} {n : Int64} (h : v.toInt = .ok n) : toInt v = toInt (.int n) := by
  rw [toInt, h]
  rfl

section

variable {v start count : Value} {text : String} {i n : Int64} {w : Value}
  (h : s.workspace.strings.Sound E) (hv : v.text? = some text) (hE : v.Within E)
  (hi : start.toInt = .ok i) (hn : count.toInt = .ok n)
include h hv hE hi hn

theorem get_inversion (hrun : (get v start count).run s = (.ok w, t)) :
    (Text.HasRange text i n ∨ Text.InCharacter text i n) ∧
    (∃ part, w.text? = some part ∧
      Text.bytes part = ((Text.bytes text).drop i.toInt.toNat).take n.toInt.toNat) ∧
    ∃ E', s.workspace.strings.Evolves E t.workspace.strings E' ∧ w.Within E' := by
  have hev : ∃ E', s.workspace.strings.Evolves E t.workspace.strings E' ∧ w.Within E' := by
    have hints : get v start count = get v (.int i) (.int n) := by
      simp only [get, toInt_eq_of_ok hi, toInt_eq_of_ok hn]
    rw [hints] at hrun
    exact Uses.evolves (.get _ _ _) h
      (fun hL => hL.get (Value.matches_of_text? hv hE) (.int i) (.int n)) hrun
  by_cases hrange : Text.HasRange text i n
  · obtain ⟨a, u, ha, hbytes⟩ := run_getThrough_of_hasRange h hv hE hi hn cuts_take hrange
    rw [← get_eq_getThrough] at ha
    obtain ⟨rfl, rfl⟩ := Prod.mk.inj (hrun.symm.trans ha) |>.imp_left Except.ok.inj
    exact ⟨.inl hrange, ⟨a.text, rfl, hbytes⟩, hev⟩
  · by_cases hin : Text.InCharacter text i n
    · obtain ⟨a, u, ha, hempty⟩ := run_get_inCharacter h hv hE hi hn hin
      obtain ⟨rfl, rfl⟩ := Prod.mk.inj (hrun.symm.trans ha) |>.imp_left Except.ok.inj
      refine ⟨.inr hin, ⟨a.text, rfl, ?_⟩, hev⟩
      obtain rfl := hin.count_eq
      rw [hempty]
      exact List.take_zero.symm
    · obtain ⟨u, hu⟩ := run_getThrough_of_not_hasRange h hv hE hi hn cuts_take hrange hin
      rw [← get_eq_getThrough] at hu
      cases hrun.symm.trans hu

variable {replacement : Value} {r : String} (hr : replacement.text? = some r)
  (hrE : replacement.Within E)
include hr hrE

theorem run_substitute_of_hasRange (hne : ¬ (n = 0 ∧ r = "")) (hrange : Text.HasRange text i n) :
    ∃ a u, (substitute v start count replacement).run s = (.ok (.str a), u) ∧
      Text.bytes a.text =
        Text.splice (Text.bytes text) i.toInt.toNat n.toInt.toNat (Text.bytes r) := by
  obtain ⟨b, u, E', rfl, hb, hE', hu, hrun⟩ := run_substitute (v := v) hi hn h hr hrE
  rw [hrun, if_neg hne]
  exact run_exchangeRange hv (hE.mono hE') hu hb hrange

theorem substitute_inversion (hne : ¬ (n = 0 ∧ r = ""))
    (hrun : (substitute v start count replacement).run s = (.ok w, t)) :
    Text.HasRange text i n ∧
    (∃ result, w.text? = some result ∧ Text.bytes result =
      Text.splice (Text.bytes text) i.toInt.toNat n.toInt.toNat (Text.bytes r)) ∧
    ∃ E', s.workspace.strings.Evolves E t.workspace.strings E' ∧ w.Within E' := by
  have hev : ∃ E', s.workspace.strings.Evolves E t.workspace.strings E' ∧ w.Within E' := by
    have hints : substitute v start count replacement =
        substitute v (.int i) (.int n) replacement := by
      simp only [substitute, toInt_eq_of_ok hi, toInt_eq_of_ok hn]
    rw [hints] at hrun
    exact Uses.evolves (.substitute _ _ _ _) h (fun hL => hL.substitute
      (Value.matches_of_text? hv hE) (.int i) (.int n) (Value.matches_of_text? hr hrE)) hrun
  by_cases hrange : Text.HasRange text i n
  · obtain ⟨a, u, ha, hbytes⟩ := run_substitute_of_hasRange h hv hE hi hn hr hrE hne hrange
    obtain ⟨rfl, rfl⟩ := Prod.mk.inj (hrun.symm.trans ha) |>.imp_left Except.ok.inj
    exact ⟨hrange, ⟨a.text, rfl, hbytes⟩, hev⟩
  · obtain ⟨b, u, E', rfl, hb, hE', hu, hstart⟩ := run_substitute (v := v) hi hn h hr hrE
    obtain ⟨i', n', u', hfail⟩ := outOfBounds_exchangeRange hv (hE.mono hE') hu hb hne hrange
    rw [hstart, if_neg hne] at hrun
    cases hrun.symm.trans hfail

end

section

variable {v start count w : Value} {text : String} {i n : Int64}
  (h : s.workspace.strings.Sound E) (hi : start.toInt = .ok i)
include h hi

theorem run_substitute_part (hv : v.text? = some text) (hE : v.Within E) (hn : count.toInt = .ok n)
    {part : String} (hw : w.text? = some part) (hwE : w.Within E)
    (hrange : Text.HasRange text i n ∨ Text.InCharacter text i n)
    (hpart : Text.bytes part = ((Text.bytes text).drop i.toInt.toNat).take n.toInt.toNat) :
    ∃ x t, (substitute v start count w).run s = (.ok x, t) ∧ x.text? = some text := by
  -- nothing for nothing is the one edit that does not look at the characters
  by_cases hno : n = 0 ∧ part = ""
  · obtain ⟨b, t, -, -, -, -, -, hrun⟩ := run_substitute (v := v) hi hn h hw hwE
    rw [if_pos hno] at hrun
    exact ⟨v, t, hrun, hv⟩
  · have hhas : Text.HasRange text i n := by
      refine hrange.resolve_right fun hin => hno ⟨hin.count_eq, ?_⟩
      obtain rfl := hin.count_eq
      exact Text.bytes_inj.1 (hpart.trans List.take_zero)
    obtain ⟨a, t, ha, hbytes⟩ := run_substitute_of_hasRange h hv hE hi hn hw hwE hno hhas
    rw [hpart, Text.splice_self] at hbytes
    exact ⟨.str a, t, ha, congrArg some (Text.bytes_inj.1 hbytes)⟩

variable {result r : String} (hw : w.text? = some result) (hwE : w.Within E)
  (hr : r.utf8ByteSize < 2 ^ 63) (hrange : Text.HasRange text i n)
  (hresult : Text.bytes result =
    Text.splice (Text.bytes text) i.toInt.toNat n.toInt.toNat (Text.bytes r))
include hw hwE hr hrange hresult

theorem run_get_replacement : ∃ x t,
    (get w start (.int (.ofNat r.utf8ByteSize))).run s = (.ok x, t) ∧ x.text? = some r := by
  obtain ⟨hthere, hbytes, -⟩ := hrange.undo hresult hr
  obtain ⟨a, t, ha, htaken⟩ :=
    run_getThrough_of_hasRange h hw hwE hi (Value.toInt_int _) cuts_take hthere
  rw [Text.toInt_ofNat_length hr, hbytes] at htaken
  rw [← get_eq_getThrough] at ha
  exact ⟨.str a, t, ha, congrArg some (Text.bytes_inj.1 htaken)⟩

theorem run_substitute_replaced (hne : ¬ (n = 0 ∧ r = "")) {x : Value} {part : String}
    (hx : x.text? = some part) (hxE : x.Within E)
    (hpart : Text.bytes part = ((Text.bytes text).drop i.toInt.toNat).take n.toInt.toNat) :
    ∃ z t, (substitute w start (.int (.ofNat r.utf8ByteSize)) x).run s = (.ok z, t) ∧
      z.text? = some text := by
  obtain ⟨hthere, -, hback⟩ := hrange.undo hresult hr
  have hno : ¬ (Int64.ofNat r.utf8ByteSize = 0 ∧ part = "") := by
    rintro ⟨hzero, rfl⟩
    have hlength := Text.toInt_ofNat_length hr
    rw [hzero] at hlength
    exact hne ⟨hrange.eq_zero hpart.symm, String.utf8ByteSize_eq_zero_iff.1 hlength.symm⟩
  obtain ⟨a, t, ha, hbytes⟩ :=
    run_substitute_of_hasRange h hw hwE hi (Value.toInt_int _) hx hxE hno hthere
  rw [hpart, Text.toInt_ofNat_length hr, hback] at hbytes
  exact ⟨.str a, t, ha, congrArg some (Text.bytes_inj.1 hbytes)⟩

end

end Action

namespace Machine

def Measures (s : State) (v : Value) (n : Int64) : Prop :=
  ∀ frames, ∃ t, apply .length [v] frames s = give (.int n) frames t

theorem measures_of_text? {s : State} {E : Set Str} (h : s.workspace.strings.Sound E) {v : Value}
    {text : String} (hv : v.text? = some text) (hE : v.Within E) :
    Measures s v (.ofNat text.utf8ByteSize) := by
  intro frames
  obtain ⟨a, t, -, ha, rfl, -⟩ := Action.gives_toStr h hv hE
  exact ⟨t, after_of_ok ha⟩

end Machine

namespace Caches

def Serves (m : Caches) (k : ℕ) (s : State) : Prop :=
  ∃ c, m.members[k]? = some c ∧ s.workspace.strings = ⟨m.supply, c⟩

def after (m : Caches) (k : ℕ) (s : State) (later : List Use) : Caches :=
  later.foldl Use.step (m.put k s.workspace.strings)

theorem Sound.foldl_subset {m : Caches} {E : Set Str} (h : m.Sound E) (uses : List Use) :
    ∃ E', E ⊆ E' ∧ (uses.foldl Use.step m).Sound E' := by
  induction uses generalizing m E with
  | nil => exact ⟨E, Set.Subset.rfl, h⟩
  | cons use uses ih =>
    obtain ⟨E₁, hstep⟩ := h.step use
    obtain ⟨E₂, hE₂, h₂⟩ := ih hstep.sound
    exact ⟨E₂, hstep.subset.trans hE₂, h₂⟩

section

variable {m : Caches} {E E' : Set Str} {k : ℕ} {s t : State}

theorem Serves.strings (hs : m.Serves k s) (h : m.Sound E) : s.workspace.strings.Sound E := by
  obtain ⟨c, hc, hstrings⟩ := hs
  exact hstrings ▸ h.interner hc

theorem Serves.put (hs : m.Serves k s) (t : State) : (m.put k t.workspace.strings).Serves k t := by
  obtain ⟨c, hc, -⟩ := hs
  exact ⟨_, getElem?_put_self hc, rfl⟩

theorem Serves.sound_after (hs : m.Serves k s) (h : m.Sound E)
    (ht : s.workspace.strings.Evolves E t.workspace.strings E') (later : List Use) :
    ∃ E'', E' ⊆ E'' ∧ (m.after k t later).Sound E'' := by
  obtain ⟨c, hc, hstrings⟩ := hs
  rw [hstrings] at ht
  exact (h.put hc ht).foldl_subset later

end

/-- In every state that several caches can reach, on every value that has a text: what `GET` took out,
`SUBSTITUTE` puts back; and where `SUBSTITUTE` put a text, unless it is nothing for nothing, `GET` finds
it, the length has changed by as much as the range has, and what was there before, put back, gives the
text. Of the caches there may be any uses in between. -/
theorem edits_undo (uses : List Use) {k : ℕ} {s : State} (hs : (run uses).Serves k s)
    {v start count : Value} {text : String} {i n : Int64} (hv : v.text? = some text)
    (hheld : (run uses).HasValue v) (hi : start.toInt = .ok i) (hn : count.toInt = .ok n) :
    (∀ w t, (Action.get v start count).run s = (.ok w, t) →
      ∀ later l u, ((run uses).after k t later).Serves l u →
        ∃ x y, (Action.substitute v start count w).run u = (.ok x, y) ∧ x.text? = some text) ∧
    ∀ replacement r, replacement.text? = some r → (run uses).HasValue replacement →
      r.utf8ByteSize < 2 ^ 63 → n ≠ 0 ∨ r ≠ "" →
      ∀ w t, (Action.substitute v start count replacement).run s = (.ok w, t) →
        ∀ later l u, ((run uses).after k t later).Serves l u →
          let m := (run uses).after k t later
          let length : Value := .int (.ofNat r.utf8ByteSize)
          (∃ x y, (Action.get w start length).run u = (.ok x, y) ∧ x.text? = some r) ∧
          (∃ a b, Machine.Measures u w a ∧ Machine.Measures u v b ∧
            Machine.Measures u replacement (.ofNat r.utf8ByteSize) ∧
            a = b - n + .ofNat r.utf8ByteSize) ∧
          ∃ x y, (Action.get v start count).run u = (.ok x, y) ∧
            ∀ later' l' u', (m.after l y later').Serves l' u' →
              ∃ z y', (Action.substitute w start length x).run u' = (.ok z, y') ∧
                z.text? = some text := by
  obtain ⟨E, hE⟩ := sound_run uses
  have hvE := hE.within hheld
  have hstrings := hs.strings hE
  constructor
  · intro w t hget later l u hu
    obtain ⟨hrange, ⟨part, hw, hpart⟩, E₁, hev, hwE⟩ :=
      Action.get_inversion hstrings hv hvE hi hn hget
    obtain ⟨E₂, hE₂, h₂⟩ := hs.sound_after hE hev later
    exact Action.run_substitute_part (hu.strings h₂) hi hv (hvE.mono (hev.subset.trans hE₂)) hn hw
      (hwE.mono hE₂) hrange hpart
  · intro replacement r hr hheld' hlen hsome w t hsub later l u hu m length
    have hrE := hE.within hheld'
    have hne : ¬ (n = 0 ∧ r = "") := fun hno => hsome.elim (· hno.1) (· hno.2)
    obtain ⟨hrange, ⟨result, hw, hresult⟩, E₁, hev, hwE⟩ :=
      Action.substitute_inversion hstrings hv hvE hi hn hr hrE hne hsub
    obtain ⟨E₂, hE₂, h₂⟩ := hs.sound_after hE hev later
    have hu₂ := hu.strings h₂
    have hvE₂ := hvE.mono (hev.subset.trans hE₂)
    have hrE₂ := hrE.mono (hev.subset.trans hE₂)
    have hwE₂ := hwE.mono hE₂
    refine ⟨Action.run_get_replacement hu₂ hi hw hwE₂ hlen hrange hresult, ?_, ?_⟩
    · exact ⟨_, _, Machine.measures_of_text? hu₂ hw hwE₂, Machine.measures_of_text? hu₂ hv hvE₂,
        Machine.measures_of_text? hu₂ hr hrE₂, hrange.length_eq hresult⟩
    · obtain ⟨a, y, ha, -⟩ :=
        Action.run_getThrough_of_hasRange hu₂ hv hvE₂ hi hn Action.cuts_take hrange
      rw [← Action.get_eq_getThrough] at ha
      refine ⟨.str a, y, ha, ?_⟩
      intro later' l' u' hu'
      obtain ⟨-, ⟨part, hx, hpart⟩, E₃, hev', haE⟩ := Action.get_inversion hu₂ hv hvE₂ hi hn ha
      obtain ⟨E₄, hE₄, h₄⟩ := hu.sound_after h₂ hev' later'
      exact Action.run_substitute_replaced (hu'.strings h₄) hi hw
        (hwE₂.mono (hev'.subset.trans hE₄)) hlen hrange hresult hne hx (haE.mono hE₄) hpart

theorem edits_undo_accent :
    let m := run [.create {}, .ask 0 (.text "hé!"), .ask 0 (.text "a")]
    let v : Str := ⟨"hé!", .interned 5 1⟩
    let r : Str := ⟨"a", .interned 6 1⟩
    m.Holds v ∧ m.Holds r ∧ ∃ s, m.Serves 0 s ∧
      (∃ w t, (Action.get (.str v) (.int 1) (.int 2)).run s = (.ok w, t) ∧
        ∃ x y, (Action.substitute (.str v) (.int 1) (.int 2) w).run t = (.ok x, y) ∧
          x.text? = some "hé!") ∧
      ∃ w t, (Action.substitute (.str v) (.int 1) (.int 2) (.str r)).run s = (.ok w, t) ∧
        ∃ x y, (Action.get w (.int 1) (.int 1)).run t = (.ok x, y) ∧ x.text? = some "a" := by
  intro m v r
  have hv : m.HasValue (.str v) := .inl (by decide)
  have hr : m.HasValue (.str r) := .inl (by decide)
  obtain ⟨c, hc⟩ : ∃ c, m.members[0]? = some c := ⟨_, rfl⟩
  let s : State := ⟨⟨⟨m.supply, c⟩, .empty, 0⟩, {}⟩
  have hs : m.Serves 0 s := ⟨c, hc, rfl⟩
  have hint := Value.toInt_int
  have whole : Text.HasRange v.text 1 2 := ⟨by decide, by decide, by decide, by decide, by decide⟩
  obtain ⟨E, hE⟩ := sound_run [.create {}, .ask 0 (.text "hé!"), .ask 0 (.text "a")]
  obtain ⟨hback, hput⟩ := edits_undo _ hs rfl hv (hint 1) (hint 2)
  refine ⟨hv, hr, s, hs, ?_, ?_⟩
  · obtain ⟨a, t, hget, -⟩ := Action.run_getThrough_of_hasRange (v := .str v) (hs.strings hE) rfl
      (hE.within hv) (hint 1) (hint 2) Action.cuts_take whole
    rw [← Action.get_eq_getThrough] at hget
    exact ⟨.str a, t, hget, hback _ t hget [] 0 t (hs.put t)⟩
  · obtain ⟨a, t, hsub, -⟩ := Action.run_substitute_of_hasRange (v := .str v) (hs.strings hE) rfl
      (hE.within hv) (hint 1) (hint 2) rfl (hE.within hr) (by decide) whole
    obtain ⟨hthere, -⟩ := hput (.str r) "a" rfl hr (by decide) (.inr (by decide)) _ t hsub [] 0 t
      (hs.put t)
    exact ⟨.str a, t, hsub, hthere⟩

end Caches

end KnightLang
