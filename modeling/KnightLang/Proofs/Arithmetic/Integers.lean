import KnightLang.Proofs.Strings.Repeating
import Mathlib.Algebra.Order.Group.Int
import Mathlib.Algebra.Order.Group.Unbundled.Int

namespace KnightLang

section

variable {a b : Int64}

theorem toInt_div_of_pos (hb : 0 < b) : (a / b).toInt = a.toInt.tdiv b.toInt := by
  have hpos : 0 < b.toInt := Int64.lt_iff_toInt_lt.1 hb
  have hle := Int.natAbs_tdiv_le_natAbs a.toInt b.toInt
  have hlow := a.le_toInt
  have hhigh := a.toInt_lt
  rw [Int64.toInt_div]
  rcases Int.le_total 0 a.toInt with ha | ha
  · have hq := Int.tdiv_nonneg ha hpos.le
    exact Int.bmod_eq_of_le (by omega) (by omega)
  · have hq := Int.tdiv_nonneg (Int.neg_nonneg_of_nonpos ha) hpos.le
    rw [Int.neg_tdiv] at hq
    exact Int.bmod_eq_of_le (by omega) (by omega)

theorem mul_div_add_mod_toInt (hb : 0 < b) :
    b.toInt * (a / b).toInt + (a % b).toInt = a.toInt := by
  rw [toInt_div_of_pos hb, Int64.toInt_mod, Int.mul_tdiv_add_tmod]

theorem abs_toInt_mod_lt (hb : 0 < b) : |(a % b).toInt| < b.toInt := by
  have hpos : 0 < b.toInt := Int64.lt_iff_toInt_lt.1 hb
  have hlt := Nat.mod_lt a.toInt.natAbs (Int.natAbs_pos.2 hpos.ne')
  rw [Int64.toInt_mod, Int.abs_eq_natAbs, Int.natAbs_tmod]
  omega

theorem mod_between (a b : Int64) :
    0 ≤ (a % b).toInt ∧ (a % b).toInt ≤ a.toInt ∨ a.toInt ≤ (a % b).toInt ∧ (a % b).toInt ≤ 0 := by
  have hsize : (a.toInt.tmod b.toInt).natAbs ≤ a.toInt.natAbs := by
    rw [Int.natAbs_tmod]
    exact Nat.mod_le _ _
  rw [Int64.toInt_mod]
  rcases Int.le_total 0 a.toInt with ha | ha
  · have hr := Int.tmod_nonneg b.toInt ha
    omega
  · have hr := Int.tmod_nonneg b.toInt (Int.neg_nonneg_of_nonpos ha)
    rw [Int.neg_tmod] at hr
    omega

theorem mod_eq_zero_or_sign_eq (a b : Int64) :
    a % b = 0 ∨ (a % b).toInt.sign = a.toInt.sign := by
  rw [← Int64.toInt_inj]
  have hzero : (0 : Int64).toInt = 0 := rfl
  have hbetween := mod_between a b
  rcases Int.lt_trichotomy (a % b).toInt 0 with hr | hr | hr
  · right
    rw [Int.sign_eq_neg_one_of_neg hr, Int.sign_eq_neg_one_of_neg (by omega)]
  · exact .inl hr
  · right
    rw [Int.sign_eq_one_of_pos hr, Int.sign_eq_one_of_pos (by omega)]

theorem toInt_mul_div (hb : 0 < b) : (b * (a / b)).toInt = b.toInt * (a / b).toInt := by
  have hdivide := mul_div_add_mod_toInt (a := a) hb
  have hbetween := mod_between a b
  have hlow := a.le_toInt
  have hhigh := a.toInt_lt
  rw [Int64.toInt_mul]
  exact Int.bmod_eq_of_le (by omega) (by omega)

theorem mul_div_add_mod (hb : 0 < b) : b * (a / b) + a % b = a := by
  rw [← Int64.toInt_inj, Int64.toInt_add, toInt_mul_div hb, mul_div_add_mod_toInt hb]
  exact Int.bmod_eq_of_le (by have := a.le_toInt; omega) (by have := a.toInt_lt; omega)

end

namespace Action

/-- The operator gives this integer, reduced to 64 bits, and leaves the state as it is. -/
def Reduces (op : BinaryOp) (a : Int64) (right : Value) (n : ℤ) : Prop :=
  ∀ s, ∃ m : Int64, (binary op (.int a) right).run s = (.ok (.int m), s) ∧ m.toInt = n.bmod (2 ^ 64)

def integer (n : Int64) : Action Value := return .int n

def combine (op : BinaryOp) (x y : Action Value) : Action Value := do
  let left ← x
  let right ← y
  binary op left right

structure RingLaws (a b c : Action Value) : Prop where
  add_comm : combine .add a b = combine .add b a
  add_assoc : combine .add (combine .add a b) c = combine .add a (combine .add b c)
  zero_add : combine .add (integer 0) a = a
  sub_add_cancel : combine .add (combine .sub a b) b = a
  mul_comm : combine .mul a b = combine .mul b a
  mul_assoc : combine .mul (combine .mul a b) c = combine .mul a (combine .mul b c)
  one_mul : combine .mul (integer 1) a = a
  mul_add : combine .mul a (combine .add b c) = combine .add (combine .mul a b) (combine .mul a c)

theorem binary_add_int (a : Int64) (right : Value) :
    binary .add (.int a) right = (do return .int (a + (← toInt right))) := by
  by_cases ha : a = 0
  · simp only [binary, add, ha, if_true, Int64.zero_add]
  · simp only [binary, add, ha, if_false]

section

variable (a b c : Int64)

theorem combine_add : combine .add (integer a) (integer b) = integer (a + b) := by
  calc combine .add (integer a) (integer b)
    _ = binary .add (.int a) (.int b) := rfl
    _ = integer (a + b) := by
      rw [binary_add_int]
      rfl

theorem combine_sub : combine .sub (integer a) (integer b) = integer (a - b) := rfl

theorem combine_mul : combine .mul (integer a) (integer b) = integer (a * b) := rfl

theorem ringLaws : RingLaws (integer a) (integer b) (integer c) where
  add_comm := by rw [combine_add, combine_add, Int64.add_comm]
  add_assoc := by rw [combine_add, combine_add, combine_add, combine_add, Int64.add_assoc]
  zero_add := by rw [combine_add, Int64.zero_add]
  sub_add_cancel := by rw [combine_sub, combine_add, Int64.sub_add_cancel]
  mul_comm := by rw [combine_mul, combine_mul, Int64.mul_comm]
  mul_assoc := by rw [combine_mul, combine_mul, combine_mul, combine_mul, Int64.mul_assoc]
  one_mul := by rw [combine_mul, Int64.one_mul]
  mul_add := by rw [combine_add, combine_mul, combine_mul, combine_mul, combine_add, Int64.mul_add]

end

section

variable {a b : Int64} {right : Value} (hb : right.toInt = .ok b)
include hb

theorem run_add_int (s : State) :
    (binary .add (.int a) right).run s = (.ok (.int (a + b)), s) := by
  rw [binary_add_int, run_bind_of_ok (run_toInt hb)]
  rfl

theorem run_sub_int (s : State) :
    (binary .sub (.int a) right).run s = (.ok (.int (a - b)), s) := by
  rw [binary, sub, run_bind_of_ok (run_toInt hb)]
  rfl

theorem run_mul_ints (s : State) :
    (binary .mul (.int a) right).run s = (.ok (.int (a * b)), s) := by
  rw [binary, mul, run_bind_of_ok (run_toInt hb)]
  rfl

theorem run_div_int (s : State) : (binary .div (.int a) right).run s =
    if b = 0 then (.error (.error .divisionByZero), s) else (.ok (.int (a / b)), s) := by
  rw [binary, div, run_bind_of_ok (run_toInt hb)]
  split <;> rfl

theorem run_mod_int (s : State) : (binary .mod (.int a) right).run s =
    if b ≤ 0 then (.error (.error (.modulusNotPositive b)), s) else (.ok (.int (a % b)), s) := by
  rw [binary, mod, run_bind_of_ok (run_toInt hb)]
  split <;> rfl

theorem run_div_eq_error_iff (s : State) :
    (binary .div (.int a) right).run s = (.error (.error .divisionByZero), s) ↔ b = 0 := by
  rw [run_div_int hb]
  split
  · rename_i h
    exact iff_of_true rfl h
  · rename_i h
    exact iff_of_false nofun h

theorem run_mod_eq_error_iff (s : State) : (binary .mod (.int a) right).run s =
    (.error (.error (.modulusNotPositive b)), s) ↔ b ≤ 0 := by
  rw [run_mod_int hb]
  split
  · rename_i h
    exact iff_of_true rfl h
  · rename_i h
    exact iff_of_false nofun h

theorem no_panic {op : BinaryOp} (hop : op ∈ [.add, .sub, .mul, .div, .mod]) (s : State)
    (p : Panic) : ((binary op (.int a) right).run s).1 ≠ .error (.panic p) := by
  simp only [List.mem_cons, List.not_mem_nil, or_false] at hop
  rcases hop with rfl | rfl | rfl | rfl | rfl
  · rw [run_add_int hb]
    nofun
  · rw [run_sub_int hb]
    nofun
  · rw [run_mul_ints hb]
    nofun
  · rw [run_div_int hb]
    split <;> nofun
  · rw [run_mod_int hb]
    split <;> nofun

theorem exists_quotient_remainder (hpos : 0 < b) : ∃ q r : Int64,
    (∀ s, (binary .div (.int a) right).run s = (.ok (.int q), s)) ∧
    (∀ s, (binary .mod (.int a) right).run s = (.ok (.int r), s)) ∧
    b.toInt * q.toInt + r.toInt = a.toInt ∧ (b * q).toInt = b.toInt * q.toInt ∧ b * q + r = a ∧
    |r.toInt| < b.toInt ∧ (r = 0 ∨ r.toInt.sign = a.toInt.sign) := by
  have hne : b ≠ 0 := by
    rintro rfl
    exact Int64.lt_irrefl hpos
  refine ⟨a / b, a % b, fun s => ?_, fun s => ?_, mul_div_add_mod_toInt hpos, toInt_mul_div hpos,
    mul_div_add_mod hpos, abs_toInt_mod_lt hpos, mod_eq_zero_or_sign_eq a b⟩
  · rw [run_div_int hb, if_neg hne]
  · rw [run_mod_int hb, if_neg (Int64.not_le.2 hpos)]

end

/-- A right operand that is no block has an integer, and with this the operators do what their names
say, in 64 bits. The laws of a commutative ring hold for them, and zero is added to like any integer. -/
theorem integer_operators :
    (∀ (a : Int64) (right : Value), right.kind ≠ .block → ∃ b, right.toInt = .ok b ∧
      Reduces .add a right (a.toInt + b.toInt) ∧
      Reduces .sub a right (a.toInt - b.toInt) ∧
      Reduces .mul a right (a.toInt * b.toInt) ∧
      (∀ s, (binary .div (.int a) right).run s = (.error (.error .divisionByZero), s) ↔ b = 0) ∧
      (b ≠ 0 → Reduces .div a right (a.toInt.tdiv b.toInt)) ∧
      (∀ s, (binary .mod (.int a) right).run s = (.error (.error (.modulusNotPositive b)), s) ↔
        b ≤ 0) ∧
      (0 < b → ∃ q r : Int64,
        (∀ s, (binary .div (.int a) right).run s = (.ok (.int q), s)) ∧
        (∀ s, (binary .mod (.int a) right).run s = (.ok (.int r), s)) ∧
        b.toInt * q.toInt + r.toInt = a.toInt ∧ (b * q).toInt = b.toInt * q.toInt ∧
        b * q + r = a ∧ |r.toInt| < b.toInt ∧ (r = 0 ∨ r.toInt.sign = a.toInt.sign)) ∧
      ∀ op ∈ [.add, .sub, .mul, .div, .mod], ∀ s p,
        ((binary op (.int a) right).run s).1 ≠ .error (.panic p)) ∧
    (∀ a b c : Int64, RingLaws (integer a) (integer b) (integer c)) ∧
    ∀ (a : Int64) (right : Value),
      binary .add (.int a) right = (do return .int (a + (← toInt right))) := by
  refine ⟨?_, ringLaws, binary_add_int⟩
  intro a right hright
  obtain ⟨b, hb⟩ := Value.exists_toInt hright
  refine ⟨b, hb, fun s => ⟨_, run_add_int hb s, Int64.toInt_add a b⟩,
    fun s => ⟨_, run_sub_int hb s, Int64.toInt_sub a b⟩,
    fun s => ⟨_, run_mul_ints hb s, Int64.toInt_mul a b⟩, run_div_eq_error_iff hb, ?_,
    run_mod_eq_error_iff hb, exists_quotient_remainder hb, fun op hop => no_panic hb hop⟩
  intro h0 s
  refine ⟨a / b, ?_, Int64.toInt_div a b⟩
  rw [run_div_int hb, if_neg h0]

theorem integer_operators_least :
    let least : Int64 := -9223372036854775808
    let text : Value := .str ⟨"2 or 3", .unique 0⟩
    Value.kind (.int (-1)) ≠ .block ∧ (-1 : Int64) ≠ 0 ∧
      Reduces .div least (.int (-1)) 9223372036854775808 ∧
      text.kind ≠ .block ∧ 0 < (2 : Int64) ∧ .mod ∈ [BinaryOp.add, .sub, .mul, .div, .mod] ∧
      ∃ q r : Int64, (∀ s, (binary .div (.int (-7)) text).run s = (.ok (.int q), s)) ∧
        2 * q.toInt + r.toInt = -7 ∧ |r.toInt| < 2 ∧ (r = 0 ∨ r.toInt.sign = -1) ∧
        ∀ s p, ((binary .mod (.int (-7)) text).run s).1 ≠ .error (.panic p) := by
  intro least text
  have hblock : Value.kind (.int (-1)) ≠ .block := nofun
  have hne : (-1 : Int64) ≠ 0 := by decide
  have htext : text.kind ≠ .block := nofun
  have hpos : 0 < (2 : Int64) := by decide
  have hop : .mod ∈ [BinaryOp.add, .sub, .mul, .div, .mod] := by decide
  refine ⟨hblock, hne, ?_, htext, hpos, hop, ?_⟩
  · obtain ⟨b, hb, -, -, -, -, hdiv, -⟩ := integer_operators.1 least (.int (-1)) hblock
    obtain rfl : -1 = b := Except.ok.inj hb
    exact hdiv hne
  · obtain ⟨b, hb, -, -, -, -, -, -, hmod, hpanic⟩ := integer_operators.1 (-7) text htext
    have hvalue : text.toInt = .ok 2 := by decide
    obtain rfl : 2 = b := Except.ok.inj (hvalue.symm.trans hb)
    obtain ⟨q, r, hq, -, hdivide, -, -, habs, hsign⟩ := hmod hpos
    exact ⟨q, r, hq, hdivide, habs, hsign, hpanic .mod hop⟩

end Action

end KnightLang
