import KnightLang.Eval.Arithmetic
import KnightLang.Proofs.Strings.Splicing

namespace KnightLang

theorem Text.compare_bytes_eq_lt_iff {xs ys : List UInt8} : compare xs ys = .lt ↔ xs < ys := by
  induction xs generalizing ys with
  | nil => cases ys <;> simp
  | cons x xs ih =>
    cases ys with
    | nil => simp
    | cons y ys =>
      rw [List.compare_cons_cons, List.cons_lt_cons_iff, Ordering.then_eq_lt, ih, Std.compare_eq_lt,
        Std.compare_eq_iff_eq]

namespace Value

inductive Comparable : Value → Value → Prop
  | bools (a b : Bool) : Comparable (.bool a) (.bool b)
  | ints (a b : Int64) : Comparable (.int a) (.int b)
  | strings (a b : Str) : Comparable (.str a) (.str b)

/-- False comes before true, integers are in the order of numbers, and strings in that of their bytes. -/
def order : Value → Value → Ordering
  | bool a, bool b => compare a b
  | int a, int b => compare a.toInt b.toInt
  | str a, str b => compare (Text.bytes a.text) (Text.bytes b.text)
  | _, _ => .eq

variable {a b c : Value}

theorem Comparable.symm (h : a.Comparable b) : b.Comparable a := by
  cases h with
  | bools a b => exact .bools b a
  | ints a b => exact .ints b a
  | strings a b => exact .strings b a

theorem Comparable.order_swap (h : a.Comparable b) : a.order b = (b.order a).swap := by
  cases h
  all_goals
    simp only [order]
    exact Std.OrientedCmp.eq_swap

theorem Comparable.order_trans (h : a.Comparable b) (h' : b.Comparable c) (hab : a.order b = .lt)
    (hbc : b.order c = .lt) : a.order c = .lt := by
  cases h
  all_goals
    cases h'
    simp only [order] at hab hbc ⊢
    exact Std.TransCmp.lt_trans hab hbc

theorem Comparable.trans (h : a.Comparable b) (h' : b.Comparable c) : a.Comparable c := by
  cases h with
  | bools a b => cases h' with | bools _ c => exact .bools a c
  | ints a b => cases h' with | ints _ c => exact .ints a c
  | strings a b => cases h' with | strings _ c => exact .strings a c

end Value

namespace Action

variable {s : State} {a b : Value}

theorem run_less (h : a.Comparable b) :
    (binary .less a b).run s = (.ok (.bool (a.order b == .lt)), s) := by
  cases h with
  | bools a b => cases a <;> cases b <;> rfl
  | ints a b =>
    have hlt : decide (a < b) = (compare a.toInt b.toInt == .lt) := by
      rw [Bool.eq_iff_iff, decide_eq_true_iff, beq_iff_eq, Int.compare_eq_lt, Int64.lt_iff_toInt_lt]
    exact congrArg (fun b => (Except.ok (Value.bool b), s)) hlt
  | strings a b => rfl

theorem run_greater (h : a.Comparable b) :
    (binary .greater a b).run s = (.ok (.bool (a.order b == .gt)), s) := by
  cases h with
  | bools a b => cases a <;> cases b <;> rfl
  | ints a b =>
    have hgt : decide (a > b) = (compare a.toInt b.toInt == .gt) := by
      rw [Bool.eq_iff_iff, decide_eq_true_iff, beq_iff_eq, Int.compare_eq_gt, gt_iff_lt,
        Int64.lt_iff_toInt_lt]
    exact congrArg (fun b => (Except.ok (Value.bool b), s)) hgt
  | strings a b => rfl

theorem run_equal (h : a.Comparable b)
    (hequal : ∀ x y, a = .str x → b = .str y → (x.equal y = true ↔ x.text = y.text)) :
    (binary .equal a b).run s = (.ok (.bool (a.order b == .eq)), s) := by
  have hvalue : a.equal b = (a.order b == .eq) := by
    rw [Bool.eq_iff_iff, beq_iff_eq]
    cases h with
    | bools a b => cases a <;> cases b <;> decide
    | ints a b =>
      rw [Value.equal, Value.order, decide_eq_true_iff, Std.compare_eq_iff_eq, Int64.toInt_inj]
    | strings x y =>
      rw [Value.equal, Value.order, Std.compare_eq_iff_eq, Text.bytes_inj]
      exact hequal x y rfl rfl
  exact congrArg (fun b => (Except.ok (Value.bool b), s)) hvalue

def coerceLike (a b : Value) : Action Value :=
  match a with
  | .bool _ => do return .bool (← toBool b)
  | .int _ => do return .int (← toInt b)
  | .str _ => do return .str (← toStr b)
  | .null | .block _ => return b

theorem less_eq_coerceLike (a b : Value) : binary .less a b = coerceLike a b >>= binary .less a := by
  cases a with
  | null => rfl
  | block body => rfl
  | _ =>
    simp only [binary, less, coerceLike, bind_assoc, pure_bind]
    rfl

theorem greater_eq_coerceLike (a b : Value) :
    binary .greater a b = coerceLike a b >>= binary .greater a := by
  cases a with
  | null => rfl
  | block body => rfl
  | _ =>
    simp only [binary, greater, coerceLike, bind_assoc, pure_bind]
    rfl

theorem exists_run_coerceLike (ha : a.Comparable a) (hb : b.kind ≠ .block) (s : State) :
    ∃ b' t, (coerceLike a b).run s = (.ok b', t) ∧ a.Comparable b' := by
  cases b with
  | block body => exact absurd rfl hb
  | _ =>
    cases ha with
    | bools a => exact ⟨_, _, rfl, .bools _ _⟩
    | ints a => exact ⟨_, _, rfl, .ints _ _⟩
    | strings a => exact ⟨_, _, rfl, .strings _ _⟩

end Action

namespace Caches

open KnightLang.Action (binary coerceLike)

/-- Whatever caches there are and whatever they were asked for, exactly one of less, equal and greater
holds of two values of a type that has an order, greater is less the other way round, and less is
transitive; on strings it is the lexicographic order of bytes, and any other operand is coerced first. -/
theorem comparison_is_linear_order (uses : List Use) (s : State) :
    (∀ a b : Value, a.Comparable b → (run uses).HasValue a → (run uses).HasValue b →
      (∃ o : Ordering, (binary .less a b).run s = (.ok (.bool (o == .lt)), s) ∧
        (binary .equal a b).run s = (.ok (.bool (o == .eq)), s) ∧
        (binary .greater a b).run s = (.ok (.bool (o == .gt)), s)) ∧
      (binary .greater a b).run s = (binary .less b a).run s) ∧
    (∀ a b d : Value, a.Comparable b → b.Comparable d →
      (binary .less a b).run s = (.ok (.bool true), s) →
      (binary .less b d).run s = (.ok (.bool true), s) →
      (binary .less a d).run s = (.ok (.bool true), s)) ∧
    (∀ x y : Str, (binary .less (.str x) (.str y)).run s =
      (.ok (.bool (Text.bytes x.text < Text.bytes y.text)), s)) ∧
    ∀ a b : Value, a.Comparable a → b.kind ≠ .block →
      ∃ b' t, (coerceLike a b).run s = (.ok b', t) ∧ a.Comparable b' ∧
        (binary .less a b).run s = (binary .less a b').run t ∧
        (binary .greater a b).run s = (binary .greater a b').run t := by
  obtain ⟨E, hE⟩ := sound_run uses
  have lt_of_less {a b : Value} (h : a.Comparable b)
      (hrun : (binary .less a b).run s = (.ok (.bool true), s)) : a.order b = .lt := by
    rw [Action.run_less h] at hrun
    exact beq_iff_eq.1 (Value.bool.inj (Except.ok.inj (Prod.mk.inj hrun).1))
  refine ⟨?_, ?_, ?_, ?_⟩
  · intro a b h ha hb
    refine ⟨⟨a.order b, Action.run_less h, ?_, Action.run_greater h⟩, ?_⟩
    · apply Action.run_equal h
      rintro x y rfl rfl
      exact hE.equal_iff (hE.holds ha) (hE.holds hb)
    · rw [Action.run_greater h, Action.run_less h.symm, h.order_swap]
      cases b.order a <;> rfl
  · intro a b d h h' hab hbd
    rw [Action.run_less (h.trans h'), h.order_trans h' (lt_of_less h hab) (lt_of_less h' hbd)]
    rfl
  · intro x y
    rw [Action.run_less (.strings x y)]
    have hlex : (Value.order (.str x) (.str y) == .lt) =
        decide (Text.bytes x.text < Text.bytes y.text) := by
      rw [Bool.eq_iff_iff, beq_iff_eq, decide_eq_true_iff, Value.order, Text.compare_bytes_eq_lt_iff]
    rw [hlex]
  · intro a b ha hb
    obtain ⟨b', t, hrun, hb'⟩ := Action.exists_run_coerceLike ha hb s
    refine ⟨b', t, hrun, hb', ?_, ?_⟩
    · rw [Action.less_eq_coerceLike]
      exact Action.run_bind_of_ok hrun
    · rw [Action.greater_eq_coerceLike]
      exact Action.run_bind_of_ok hrun

theorem comparison_is_linear_order_pools :
    let s := run [.create {}, .create {}, .ask 0 (.text "ab"), .ask 1 (.text "ab"), .unique "é"]
    let a : Value := .str ⟨"ab", .interned 9 1⟩
    let b : Value := .str ⟨"ab", .interned 10 2⟩
    let d : Value := .str ⟨"é", .unique 0⟩
    let start : State := ⟨⟨.create {} {}, .empty, 0⟩, {}⟩
    s.HasValue a ∧ s.HasValue b ∧ s.HasValue d ∧
      (∃ o : Ordering, (binary .less a b).run start = (.ok (.bool (o == .lt)), start) ∧
        (binary .equal a b).run start = (.ok (.bool (o == .eq)), start) ∧
        (binary .greater a b).run start = (.ok (.bool (o == .gt)), start)) ∧
      (binary .greater d a).run start = (binary .less a d).run start ∧
      (binary .less (.int 1) (.int 3)).run start = (.ok (.bool true), start) ∧
      ∃ e t, (coerceLike (.int 7) d).run start = (.ok e, t) ∧ Value.Comparable (.int 7) e ∧
        (binary .less (.int 7) d).run start = (binary .less (.int 7) e).run t := by
  intro s a b d start
  have ha : s.HasValue a := .inl (by decide)
  have hb : s.HasValue b := .inl (by decide)
  have hd : s.HasValue d := .inl (by decide)
  obtain ⟨hthree, htrans, -, hcoerce⟩ := comparison_is_linear_order
    [.create {}, .create {}, .ask 0 (.text "ab"), .ask 1 (.text "ab"), .unique "é"] start
  obtain ⟨e, t, hrun, he, hless, -⟩ := hcoerce (.int 7) d (.ints 7 7) nofun
  refine ⟨ha, hb, hd, (hthree a b (.strings _ _) ha hb).1, (hthree d a (.strings _ _) hd ha).2, ?_,
    e, t, hrun, he, hless⟩
  exact htrans (.int 1) (.int 2) (.int 3) (.ints 1 2) (.ints 2 3) rfl rfl

end Caches

end KnightLang
