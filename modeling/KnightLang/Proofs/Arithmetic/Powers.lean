import KnightLang.Eval.Arithmetic
import KnightLang.Proofs.Strings.Splicing
import Mathlib.Algebra.Order.Field.Power
import Mathlib.Algebra.Order.Floor.Ring
import Mathlib.Data.Rat.Floor
import Mathlib.Tactic.NormNum

namespace KnightLang

theorem powerFrom_ofInt (result base : ℤ) (n : ℕ) :
    powerFrom (.ofInt result) (.ofInt base) n = .ofInt (result * base ^ n) := by
  induction n using Nat.strongRecOn generalizing result base with
  | ind n ih =>
    unfold powerFrom
    by_cases h0 : n = 0
    · rw [if_pos h0, h0, pow_zero, mul_one]
    · have hlt : n / 2 < n := by omega
      have hsquare : (base * base) ^ (n / 2) * base ^ (n % 2) = base ^ n := by
        rw [← pow_two, ← pow_mul, ← pow_add, Nat.div_add_mod]
      rw [if_neg h0]
      rcases Nat.mod_two_eq_zero_or_one n with hn | hn
      · rw [if_neg (by omega), ← Int64.ofInt_mul, ih _ hlt]
        rw [← hsquare, hn, pow_zero, mul_one]
      · rw [if_pos hn, ← Int64.ofInt_mul, ← Int64.ofInt_mul, ih _ hlt]
        rw [← hsquare, hn, pow_one, mul_assoc, mul_comm base]

/-- A fraction without what stands behind the point. -/
def towardZero (q : ℚ) : ℤ := if 0 ≤ q then ⌊q⌋ else ⌈q⌉

theorem towardZero_intCast (n : ℤ) : towardZero n = n := by
  unfold towardZero
  split <;> simp

theorem towardZero_of_abs_lt_one {q : ℚ} (h : |q| < 1) : towardZero q = 0 := by
  obtain ⟨hl, hu⟩ := abs_lt.1 h
  unfold towardZero
  split
  · rename_i h0
    exact Int.floor_eq_zero_iff.2 ⟨h0, hu⟩
  · rename_i h0
    exact Int.ceil_eq_zero_iff.2 ⟨hl, (not_le.1 h0).le⟩

theorem abs_zpow_lt_one {b e : ℤ} (hb : 1 < |b|) (he : e < 0) : |(b : ℚ) ^ e| < 1 := by
  have hb' : (1 : ℚ) < |(b : ℚ)| := by exact_mod_cast hb
  rw [abs_zpow]
  exact zpow_lt_one_of_neg₀ hb' he

section

variable {base exponent : Int64}

theorem power?_of_nonneg (h : 0 ≤ exponent) :
    power? base exponent = .ok (.ofInt (base.toInt ^ exponent.toInt.toNat)) := by
  have hpower := powerFrom_ofInt 1 base.toInt exponent.toInt.toNat
  rw [Int64.ofInt_toInt, one_mul] at hpower
  rw [power?, if_neg (Int64.not_lt.2 h)]
  exact congrArg Except.ok hpower

theorem power?_zero_of_neg (h : exponent < 0) : power? 0 exponent = .error .negativePowerOfZero := by
  rw [power?, if_pos h, if_pos rfl]

theorem mod_two_eq_zero_iff : exponent % 2 = 0 ↔ Even exponent.toInt := by
  rw [← Int64.toInt_inj, Int64.toInt_mod, even_iff_two_dvd, Int.dvd_iff_tmod_eq_zero]
  rfl

theorem one_lt_abs_toInt (h0 : base ≠ 0) (h1 : base ≠ 1) (hm : base ≠ -1) : 1 < |base.toInt| := by
  rw [Ne, ← Int64.toInt_inj] at h0 h1 hm
  have hzero : (0 : Int64).toInt = 0 := rfl
  have hone : (1 : Int64).toInt = 1 := rfl
  have hminus : (-1 : Int64).toInt = -1 := rfl
  rw [lt_abs]
  omega

theorem power?_of_neg (h : exponent < 0) (h0 : base ≠ 0) : ∃ n, power? base exponent = .ok n ∧
    n.toInt = towardZero ((base.toInt : ℚ) ^ exponent.toInt) := by
  have he : exponent.toInt < 0 := Int64.lt_iff_toInt_lt.1 h
  rw [power?, if_pos h, if_neg h0]
  by_cases h1 : base = 1
  · have hpower : ((base.toInt : ℚ)) ^ exponent.toInt = (1 : ℤ) := by
      rw [h1]
      simp [show (1 : Int64).toInt = 1 from rfl]
    rw [if_pos h1, hpower, towardZero_intCast]
    exact ⟨1, rfl, rfl⟩
  rw [if_neg h1]
  by_cases hm : base = -1
  · have hbase : (base.toInt : ℚ) = -1 := by
      rw [hm]
      rfl
    rw [if_pos hm, hbase]
    by_cases heven : exponent % 2 = 0
    · have hpower : (-1 : ℚ) ^ exponent.toInt = (1 : ℤ) := by
        rw [(mod_two_eq_zero_iff.1 heven).neg_one_zpow, Int.cast_one]
      rw [if_pos heven, hpower, towardZero_intCast]
      exact ⟨1, rfl, rfl⟩
    · have hodd : Odd exponent.toInt := Int.not_even_iff_odd.1 (mt mod_two_eq_zero_iff.2 heven)
      have hpower : (-1 : ℚ) ^ exponent.toInt = (-1 : ℤ) := by
        rw [hodd.neg_one_zpow, Int.cast_neg, Int.cast_one]
      rw [if_neg heven, hpower, towardZero_intCast]
      exact ⟨-1, rfl, rfl⟩
  · rw [if_neg hm, towardZero_of_abs_lt_one (abs_zpow_lt_one (one_lt_abs_toInt h0 h1 hm) he)]
    exact ⟨0, rfl, rfl⟩

end

theorem sum_of_fits {i j : Int64} (hi : 0 ≤ i) (hj : 0 ≤ j) (hlt : i.toInt + j.toInt < 2 ^ 63) :
    0 ≤ i + j ∧ (i + j).toInt.toNat = i.toInt.toNat + j.toInt.toNat := by
  have hi' : 0 ≤ i.toInt := Int64.le_iff_toInt_le.1 hi
  have hj' : 0 ≤ j.toInt := Int64.le_iff_toInt_le.1 hj
  have hsum : (i + j).toInt = i.toInt + j.toInt := by
    rw [Int64.toInt_add, Int.bmod_eq_of_le (by omega) (by omega)]
  rw [hsum, Int.toNat_add hi' hj']
  refine ⟨Int64.le_iff_toInt_le.2 ?_, rfl⟩
  rw [hsum]
  exact add_nonneg hi' hj'

namespace Action

variable {s : State} {right : Value} {base exponent n : Int64}

theorem run_exp_of_ok (hr : right.toInt = .ok exponent) (h : power? base exponent = .ok n) :
    (binary .exp (.int base) right).run s = (.ok (.int n), s) := by
  rw [binary, exp, run_bind_of_ok (run_toInt hr), h]
  rfl

theorem run_exp_of_error {e : RuntimeError} (hr : right.toInt = .ok exponent)
    (h : power? base exponent = .error e) :
    (binary .exp (.int base) right).run s = (.error (.error e), s) := by
  rw [binary, exp, run_bind_of_ok (run_toInt hr), h]
  rfl

theorem run_mul_int {a b : Int64} :
    (binary .mul (.int a) (.int b)).run s = (.ok (.int (a * b)), s) := rfl

/-- With an exponent that is not negative the result is the power, reduced to 64 bits. With a negative
one it is the power without what stands behind the point, and there is none exactly when the base is
zero. The power with a sum as exponent is the product of the powers. -/
theorem exp_gives_power (s : State) (base : Int64) :
    (∀ right exponent, right.toInt = .ok exponent →
      (0 ≤ exponent → ∃ n, (binary .exp (.int base) right).run s = (.ok (.int n), s) ∧
        n.toInt = (base.toInt ^ exponent.toInt.toNat).bmod (2 ^ 64)) ∧
      (exponent < 0 → base ≠ 0 → ∃ n, (binary .exp (.int base) right).run s = (.ok (.int n), s) ∧
        n.toInt = towardZero ((base.toInt : ℚ) ^ exponent.toInt)) ∧
      (exponent < 0 → ((binary .exp (.int base) right).run s =
        (.error (.error .negativePowerOfZero), s) ↔ base = 0))) ∧
    ∀ i j : Int64, 0 ≤ i → 0 ≤ j → i.toInt + j.toInt < 2 ^ 63 → ∃ m n,
      (binary .exp (.int base) (.int i)).run s = (.ok (.int m), s) ∧
      (binary .exp (.int base) (.int j)).run s = (.ok (.int n), s) ∧
      (binary .exp (.int base) (.int (i + j))).run s = (binary .mul (.int m) (.int n)).run s := by
  refine ⟨fun right exponent hr => ⟨?_, ?_, ?_⟩, ?_⟩
  · intro h
    exact ⟨_, run_exp_of_ok hr (power?_of_nonneg h), Int64.toInt_ofInt⟩
  · intro h h0
    obtain ⟨n, hn, hvalue⟩ := power?_of_neg h h0
    exact ⟨n, run_exp_of_ok hr hn, hvalue⟩
  · intro h
    constructor
    · intro hrun
      by_contra h0
      obtain ⟨n, hn, -⟩ := power?_of_neg h h0
      cases (run_exp_of_ok hr hn).symm.trans hrun
    · rintro rfl
      exact run_exp_of_error hr (power?_zero_of_neg h)
  · intro i j hi hj hlt
    obtain ⟨hsum, hexponent⟩ := sum_of_fits hi hj hlt
    refine ⟨_, _, run_exp_of_ok rfl (power?_of_nonneg hi), run_exp_of_ok rfl (power?_of_nonneg hj), ?_⟩
    rw [run_exp_of_ok rfl (power?_of_nonneg hsum), run_mul_int, ← Int64.ofInt_mul, ← pow_add,
      hexponent]

theorem exp_gives_power_three :
    let s : State := ⟨⟨.create {} {}, .empty, 0⟩, {}⟩
    let text : Value := .str ⟨" 41", .unique 0⟩
    text.toInt = .ok 41 ∧
      (∃ n, (binary .exp (.int 3) text).run s = (.ok (.int n), s) ∧
        n.toInt = -420491770248316829) ∧
      (∃ n, (binary .exp (.int (-1)) (.int (-3))).run s = (.ok (.int n), s) ∧ n.toInt = -1) ∧
      (binary .exp (.int 0) (.int (-3))).run s = (.error (.error .negativePowerOfZero), s) ∧
      ∃ m n, (binary .exp (.int 3) (.int 20)).run s = (.ok (.int m), s) ∧
        (binary .exp (.int 3) (.int 21)).run s = (.ok (.int n), s) ∧
        (binary .exp (.int 3) (.int (20 + 21))).run s = (binary .mul (.int m) (.int n)).run s := by
  intro s text
  have htext : text.toInt = .ok 41 := by decide
  refine ⟨htext, ?_, ?_, ?_, ?_⟩
  · obtain ⟨n, hrun, hn⟩ := ((exp_gives_power s 3).1 text 41 htext).1 (by decide)
    exact ⟨n, hrun, hn.trans (by decide)⟩
  · obtain ⟨n, hrun, hn⟩ := ((exp_gives_power s (-1)).1 (.int (-3)) (-3) rfl).2.1 (by decide) (by decide)
    refine ⟨n, hrun, hn.trans ?_⟩
    have hpower : (((-1 : Int64).toInt : ℚ)) ^ (-3 : Int64).toInt = (-1 : ℤ) := by
      change ((-1 : ℤ) : ℚ) ^ (-3 : ℤ) = (-1 : ℤ)
      norm_num
    rw [hpower, towardZero_intCast]
  · exact (((exp_gives_power s 0).1 (.int (-3)) (-3) rfl).2.2 (by decide)).2 rfl
  · exact (exp_gives_power s 3).2 20 21 (by decide) (by decide) (by decide)

end Action

end KnightLang
