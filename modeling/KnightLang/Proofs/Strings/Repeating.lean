import KnightLang.Eval.Arithmetic
import KnightLang.Proofs.Strings.Splicing
import Mathlib.Algebra.Group.Nat.Defs

namespace KnightLang

theorem Text.bytes_repeated (text : String) (n : ℕ) :
    bytes (repeated text n) = (List.replicate n (bytes text)).flatten := by
  unfold repeated
  by_cases hempty : text.isEmpty
  · have hbytes : bytes text = [] := by
      rw [String.isEmpty_iff.1 hempty]
      rfl
    rw [if_pos hempty, hbytes, List.flatten_replicate_nil]
    rfl
  · rw [if_neg hempty]
    induction n with
    | zero => rfl
    | succ n ih =>
      rw [Nat.repeat, bytes_append, ih, List.replicate_succ', List.flatten_append,
        List.flatten_singleton]

theorem Value.exists_toInt {v : Value} (h : v.kind ≠ .block) : ∃ n, v.toInt = .ok n := by
  cases v with
  | block body => exact absurd rfl h
  | _ => exact ⟨_, rfl⟩

namespace Action

variable {s : State} {E : Set Str}

theorem gives_string (h : s.workspace.strings.Sound E) (text : String) :
    (onStrings (Cache.string text)).Gives s E text :=
  gives_made h (Cache.string_eq_make text _) nofun

section

variable {a : Str} {right : Value} {n : Int64} (hn : right.toInt = .ok n)
include hn

theorem run_mul_of_neg (h : n < 0) :
    (mul (.str a) right).run s = (.error (.error (.negativeRepeat n)), s) := by
  rw [mul, run_bind_of_ok (run_toInt hn), if_pos h]
  rfl

theorem run_mul_of_nonneg (h : 0 ≤ n) : (mul (.str a) right).run s =
    (if 0x10000000000000000 ≤ a.length * n.toInt.toNat then fail (.repeatTooLong n)
      else if 0x8000000000000000 ≤ a.length * n.toInt.toNat then throw (.panic .capacityOverflow)
      else string (repeated a.text n.toInt.toNat) : Action Value).run s := by
  rw [mul, run_bind_of_ok (run_toInt hn), if_neg (Int64.not_lt.2 h)]

theorem run_mul_of_fits (h : 0 ≤ n) (hlt : a.length * n.toInt.toNat < 2 ^ 63) :
    (mul (.str a) right).run s = (string (repeated a.text n.toInt.toNat)).run s := by
  have h63 : ¬ 0x8000000000000000 ≤ a.length * n.toInt.toNat := Nat.not_le.2 hlt
  have h64 : ¬ 0x10000000000000000 ≤ a.length * n.toInt.toNat := by omega
  rw [run_mul_of_nonneg hn h, if_neg h64, if_neg h63]

theorem run_mul_of_tooLong (h : 0 ≤ n) (hle : 2 ^ 64 ≤ a.length * n.toInt.toNat) :
    (mul (.str a) right).run s = (.error (.error (.repeatTooLong n)), s) := by
  have h64 : 0x10000000000000000 ≤ a.length * n.toInt.toNat := hle
  rw [run_mul_of_nonneg hn h, if_pos h64]
  rfl

theorem run_mul_of_overflow (h : 0 ≤ n) (hle : 2 ^ 63 ≤ a.length * n.toInt.toNat)
    (hlt : a.length * n.toInt.toNat < 2 ^ 64) :
    (mul (.str a) right).run s = (.error (.panic .capacityOverflow), s) := by
  have h63 : 0x8000000000000000 ≤ a.length * n.toInt.toNat := hle
  have h64 : ¬ 0x10000000000000000 ≤ a.length * n.toInt.toNat := Nat.not_le.2 hlt
  rw [run_mul_of_nonneg hn h, if_neg h64, if_pos h63]
  rfl

end

end Action

namespace Caches

/-- In every state that several caches can reach, for every string and every right operand that is no
block: the right operand has an integer, and this and the length of the string decide which one of the
four outcomes there is. -/
theorem mul_repeats (uses : List Use) {k : ℕ} {c : Cache} (hc : (run uses).members[k]? = some c)
    {s : State} (hs : s.workspace.strings = ⟨(run uses).supply, c⟩) (a : Str) {right : Value}
    (hright : right.kind ≠ .block) :
    ∃ n, right.toInt = .ok n ∧
      (0 ≤ n → a.length * n.toInt.toNat < 2 ^ 63 → ∃ b t,
        (Action.mul (.str a) right).run s = (.ok (.str b), t) ∧
          Text.bytes b.text = (List.replicate n.toInt.toNat (Text.bytes a.text)).flatten) ∧
      (n < 0 → (Action.mul (.str a) right).run s = (.error (.error (.negativeRepeat n)), s)) ∧
      (0 ≤ n → 2 ^ 64 ≤ a.length * n.toInt.toNat →
        (Action.mul (.str a) right).run s = (.error (.error (.repeatTooLong n)), s)) ∧
      (0 ≤ n → 2 ^ 63 ≤ a.length * n.toInt.toNat → a.length * n.toInt.toNat < 2 ^ 64 →
        (Action.mul (.str a) right).run s = (.error (.panic .capacityOverflow), s)) := by
  obtain ⟨n, hn⟩ := Value.exists_toInt hright
  refine ⟨n, hn, ?_, Action.run_mul_of_neg hn, Action.run_mul_of_tooLong hn,
    Action.run_mul_of_overflow hn⟩
  intro h hlt
  obtain ⟨E, hE⟩ := sound_run uses
  have hsound : s.workspace.strings.Sound E := hs ▸ hE.interner hc
  obtain ⟨b, t, -, hb, htext, -⟩ :=
    Action.gives_string hsound (repeated a.text n.toInt.toNat)
  refine ⟨b, t, ?_, ?_⟩
  · rw [Action.run_mul_of_fits hn h hlt, Action.string]
    exact Action.run_bind_of_ok hb
  · rw [htext, Text.bytes_repeated]

theorem mul_repeats_accent :
    let s := run [.create {}, .ask 0 (.text "hé")]
    ∃ c, s.members[0]? = some c ∧ Value.kind (.int 2) ≠ .block ∧ ∃ b t,
      (Action.mul (.str ⟨"hé", .interned 5 1⟩) (.int 2)).run ⟨⟨⟨s.supply, c⟩, .empty, 0⟩, {}⟩ =
        (.ok (.str b), t) ∧ b.text = "héhé" := by
  intro s
  obtain ⟨c, hc⟩ : ∃ c, s.members[0]? = some c := ⟨_, rfl⟩
  have hright : Value.kind (.int 2) ≠ .block := nofun
  refine ⟨c, hc, hright, ?_⟩
  obtain ⟨n, hn, hfits, -⟩ := mul_repeats _ hc (s := ⟨⟨⟨s.supply, c⟩, .empty, 0⟩, {}⟩) rfl
    ⟨"hé", .interned 5 1⟩ hright
  obtain rfl : (2 : Int64) = n := Except.ok.inj hn
  obtain ⟨b, t, hrun, hbytes⟩ := hfits (by decide) (by decide)
  exact ⟨b, t, hrun, Text.bytes_inj.1 (hbytes.trans (by decide))⟩

/-- Two bytes 2^62 times would be one byte more than a text can have, and this is not refused. -/
theorem mul_stops_at_length :
    let s := run [.create {}, .ask 0 (.text "ab")]
    let a : Str := ⟨"ab", .interned 5 1⟩
    s.Holds a ∧ 2 ^ 63 - 1 < a.length * (4611686018427387904 : Int64).toInt.toNat ∧
      ∃ c, s.members[0]? = some c ∧
        let x := (Action.mul (.str a) (.int 4611686018427387904)).run ⟨⟨⟨s.supply, c⟩, .empty, 0⟩, {}⟩
        x.1 = .error (.panic .capacityOverflow) ∧ ∀ e, x.1 ≠ .error (.error e) := by
  intro s a
  have ha : s.Holds a := .inl (by decide)
  obtain ⟨c, hc⟩ : ∃ c, s.members[0]? = some c := ⟨_, rfl⟩
  refine ⟨ha, by decide, c, hc, ?_⟩
  intro x
  have hrun : x.1 = .error (.panic .capacityOverflow) :=
    congrArg Prod.fst (Action.run_mul_of_overflow rfl (by decide) (by decide) (by decide))
  refine ⟨hrun, ?_⟩
  intro e he
  cases hrun.symm.trans he

end Caches

end KnightLang
