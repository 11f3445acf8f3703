import KnightLang.Proofs.Execution.Recursion

namespace KnightLang

namespace Evaluation

/-- In every state the evaluations are the same as `y` from some depth on. -/
def Tends {α : Type} (x : Nat → Evaluation α) (y : Evaluation α) : Prop :=
  ∀ s, ∃ least, ∀ depth ≥ least, (x depth).run s = y.run s

namespace Tends

variable {α β : Type} {x : Nat → Evaluation α} {y z : Evaluation α}

theorem const (x : Evaluation α) : Tends (fun _ => x) x := fun _ => ⟨0, fun _ _ => rfl⟩

theorem bind {f : Nat → α → Evaluation β} {g : α → Evaluation β} (hx : Tends x y)
    (hf : ∀ a, Tends (f · a) (g a)) : Tends (fun depth => x depth >>= f depth) (y >>= g) := by
  intro s
  obtain ⟨first, hfirst⟩ := hx s
  rcases hy : y.run s with _ | ⟨stop | a, t⟩
  · refine ⟨first, fun depth hd => ?_⟩
    rw [run_bind_of_none hy, run_bind_of_none ((hfirst depth hd).trans hy)]
  · refine ⟨first, fun depth hd => ?_⟩
    rw [run_bind_of_error hy, run_bind_of_error ((hfirst depth hd).trans hy)]
  · -- both parts have to be there, so it takes the larger of the two depths
    obtain ⟨second, hsecond⟩ := hf a t
    refine ⟨max first second, fun depth hd => ?_⟩
    have hrun := (hfirst depth (by omega)).trans hy
    rw [run_bind_of_ok hy, run_bind_of_ok hrun]
    exact hsecond depth (by omega)

theorem succ (h : Tends x y) : Tends (fun depth => x (depth + 1)) y := by
  intro s
  obtain ⟨least, hl⟩ := h s
  exact ⟨least, fun depth hd => hl (depth + 1) (Nat.le_succ_of_le hd)⟩

theorem unique (hy : Tends x y) (hz : Tends x z) : y = z := by
  funext s
  obtain ⟨first, hfirst⟩ := hy s
  obtain ⟨second, hsecond⟩ := hz s
  have h₁ := hfirst (max first second) (Nat.le_max_left _ _)
  have h₂ := hsecond (max first second) (Nat.le_max_right _ _)
  exact h₁.symm.trans h₂

section

variable {eval : Nat → Node → Evaluation Value} {limit : Node → Evaluation Value}
  (h : ∀ n, Tends (eval · n) (limit n))

include h

theorem force (v : Value) : Tends (fun depth => force (eval depth) v) (Evaluation.force limit v) := by
  cases v with
  | block body => exact h body
  | _ => exact const _

theorem argument {args : List Node} {i : Nat} {f : Nat → Value → Evaluation β}
    {g : Value → Evaluation β} (hf : ∀ v, Tends (f · v) (g v)) :
    Tends (fun depth => Evaluation.argument args i >>= fun n => eval depth n >>= f depth)
      (Evaluation.argument args i >>= fun n => limit n >>= g) :=
  (const _).bind fun n => (h n).bind hf

theorem call (around : Surroundings) {again : Nat → Evaluation Value} {last : Evaluation Value}
    (hagain : Tends again last) (args : List Node) (builtin : Builtin) :
    Tends (fun depth => Evaluation.call (eval depth) around (again depth) args builtin)
      (Evaluation.call limit around last args builtin) := by
  cases builtin with
  | branch =>
    refine argument h fun v => (const _).bind fun b => ?_
    exact (const _).bind fun n => h n
  | loop =>
    refine argument h fun v => (const _).bind fun b => ?_
    cases b with
    | true => exact argument h fun _ => hagain
    | false => exact const _
  | call => exact argument h fun v => force h v
  | eval => exact argument h fun v => (const _).bind fun program => h program.root
  | get =>
    refine argument h fun string => argument h fun start => argument h fun count => ?_
    exact const _
  | substitute =>
    refine argument h fun string => argument h fun start => argument h fun count => ?_
    exact argument h fun replacement => const _
  | ascii | dump | length | output | quit => exact argument h fun v => const _
  | block | dumpTree | prompt | random => exact const _

theorem node (around : Surroundings) (n : Node) :
    Tends (fun depth => Evaluation.node (eval depth) around n) (Evaluation.node limit around n) := by
  cases n with
  | literal id v => exact const _
  | var id v =>
    refine (const _).bind fun value => ?_
    cases value with
    | some value => exact force h value
    | none => exact const _
  | unary id op operand => exact (h operand).bind fun v => const _
  | binary id op l r =>
    cases op with
    | chain => exact (h l).bind fun _ => h r
    | and =>
      refine (h l).bind fun v => (const _).bind fun b => ?_
      cases b with
      | true => exact h r
      | false => exact const _
    | or =>
      refine (h l).bind fun v => (const _).bind fun b => ?_
      cases b with
      | true => exact const _
      | false => exact h r
    | assign =>
      cases l with
      | var id v => exact (h r).bind fun value => const _
      | _ => exact const _
    | _ => exact (h l).bind fun u => (h r).bind fun v => const _
  | call id word builtin args => exact call h around (h (.call id word builtin args)) args builtin

end

end Tends

end Evaluation

namespace Node

variable {around : Surroundings} {n : Node} {s : State}

theorem evaluate_of_evaluate {depth : Nat} {x : Except Stop Value × State}
    (hx : (n.evaluate around depth).run s = some x) :
    ∃ least, ∀ depth ≥ least, (n.evaluate around depth).run s = some x := by
  obtain ⟨fuel, hr⟩ := (exists_eval_iff around n s x).2 ⟨depth, hx⟩
  cases fuel with
  | zero => cases hr
  | succ fuel =>
    -- so many steps need no calls that are deeper
    refine ⟨fuel + 1, fun depth' hd => ?_⟩
    obtain ⟨y, hy, -⟩ := (agrees_evaluate around depth' n [] s).answers hd hr
    rw [hy, evaluate_unique hy hx]

theorem exists_tends_evaluate (around : Surroundings) (n : Node) :
    ∃ y, Evaluation.Tends (evaluate around · n) y := by
  have hs (s : State) : ∃ r, ∃ least, ∀ depth ≥ least, (n.evaluate around depth).run s = r := by
    by_cases h : ∃ depth x, (n.evaluate around depth).run s = some x
    · obtain ⟨depth, x, hx⟩ := h
      exact ⟨some x, evaluate_of_evaluate hx⟩
    · refine ⟨none, 0, fun depth _ => Option.eq_none_iff_forall_ne_some.2 fun x hx => ?_⟩
      exact h ⟨depth, x, hx⟩
  obtain ⟨r, hr⟩ := Classical.skolem.1 hs
  exact ⟨ExceptT.mk r, hr⟩

noncomputable def meaning (around : Surroundings) (n : Node) : Evaluation Value :=
  (exists_tends_evaluate around n).choose

theorem tends_meaning (around : Surroundings) (n : Node) :
    Evaluation.Tends (evaluate around · n) (n.meaning around) :=
  (exists_tends_evaluate around n).choose_spec

theorem run_meaning_eq_some_iff {x : Except Stop Value × State} :
    (n.meaning around).run s = some x ↔ ∃ depth, (n.evaluate around depth).run s = some x := by
  obtain ⟨least, hl⟩ := tends_meaning around n s
  constructor
  · intro hm
    exact ⟨least, (hl least (Nat.le_refl least)).trans hm⟩
  · rintro ⟨depth, hx⟩
    obtain ⟨other, ho⟩ := evaluate_of_evaluate hx
    rw [← hl (max least other) (Nat.le_max_left _ _)]
    exact ho (max least other) (Nat.le_max_right _ _)

theorem meaning_eq (around : Surroundings) (n : Node) :
    n.meaning around = Evaluation.node (meaning around) around n :=
  (tends_meaning around n).succ.unique (Evaluation.Tends.node (tends_meaning around) around n)

theorem exists_run_iff_meaning {frames : List Frame} {y : Except Stop Value × State} :
    (∃ fuel, Machine.run around fuel ⟨.node n, frames, s⟩ = some y) ↔
      ∃ x, (n.meaning around).run s = some x ∧ ∃ fuel, Machine.Continues around fuel frames y x := by
  simp only [run_meaning_eq_some_iff]
  exact exists_run_iff around n frames s y

end Node

end KnightLang
