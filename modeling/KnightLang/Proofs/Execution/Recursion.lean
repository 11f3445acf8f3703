import KnightLang.Proofs.Execution.Reaching

/-!
Evaluation by recursion: every operand is evaluated by a call of its own, from left to right. Main
statement: the machine, which evaluates an operand in tail position in the place of the whole, comes to
the same results in the same states, and to none exactly when the recursion does not end.
-/
namespace KnightLang

abbrev Evaluation (α : Type) : Type := ExceptT Stop (StateT State Option) α

namespace Evaluation

def endless {α : Type} : Evaluation α := ExceptT.mk fun _ => none

def perform {α : Type} (x : Action α) : Evaluation α := ExceptT.mk fun s => some (x.run s)

def argument (args : List Node) (i : Nat) : Evaluation Node :=
  match args[i]? with
  | some n => return n
  | none => throw (.panic (.missingArgument i args.length))

def force (eval : Node → Evaluation Value) : Value → Evaluation Value
  | .block body => eval body
  | v => return v

def call (eval : Node → Evaluation Value) (around : Surroundings) (again : Evaluation Value)
    (args : List Node) : Builtin → Evaluation Value
  | .block => do return .block (← argument args 0)
  | .dumpTree => do perform (Action.display (← argument args 0).render)
  | .prompt => perform Action.prompt
  | .random => perform (Action.random around)
  | .branch => do
    let condition ← eval (← argument args 0)
    let b ← perform (Action.toBool condition)
    eval (← argument args (if b then 1 else 2))
  | .loop => do
    let condition ← eval (← argument args 0)
    if ← perform (Action.toBool condition) then
      let _ ← eval (← argument args 1)
      again
    else return .null
  | .ascii => do
    let v ← eval (← argument args 0)
    perform (Action.ascii v)
  | .call => do
    let v ← eval (← argument args 0)
    force eval v
  | .dump => do
    let v ← eval (← argument args 0)
    perform (Action.display v.dump)
  | .eval => do
    let v ← eval (← argument args 0)
    let program ← perform (Action.toStr v >>= Action.sourceProgram)
    eval program.root
  | .length => do
    let v ← eval (← argument args 0)
    let str ← perform (Action.toStr v)
    return .int (.ofNat str.length)
  | .output => do
    let v ← eval (← argument args 0)
    perform (Action.output v)
  | .quit => do
    let v ← eval (← argument args 0)
    let n ← perform (Action.toInt v)
    throw (.error (.quit (Action.quitCode n)))
  | .get => do
    let string ← eval (← argument args 0)
    let start ← eval (← argument args 1)
    let count ← eval (← argument args 2)
    perform (Action.get string start count)
  | .substitute => do
    let string ← eval (← argument args 0)
    let start ← eval (← argument args 1)
    let count ← eval (← argument args 2)
    let replacement ← eval (← argument args 3)
    perform (Action.substitute string start count replacement)

def node (eval : Node → Evaluation Value) (around : Surroundings) (n : Node) : Evaluation Value :=
  match n with
  | .literal _ v => return v
  | .var _ v => do
    match ← perform (Action.onStore (Store.read? v)) with
    | some value => force eval value
    | none => throw (.error (.undefinedVariable v.name))
  | .unary _ op operand => do
    let v ← eval operand
    perform (Action.unary around op v)
  | .binary _ .chain left right => do
    let _ ← eval left
    eval right
  | .binary _ .and left right => do
    let v ← eval left
    if ← perform (Action.toBool v) then eval right else return v
  | .binary _ .or left right => do
    let v ← eval left
    if ← perform (Action.toBool v) then return v else eval right
  | .binary _ .assign target right =>
    match target with
    | .var _ v => do
      let value ← eval right
      perform (Action.onStore (Store.write v value))
      return value
    | _ => throw (.error (.notAssignable target.render))
  | .binary _ op left right => do
    let u ← eval left
    let v ← eval right
    perform (Action.binary op u v)
  | .call _ _ builtin args => call eval around (eval n) args builtin

end Evaluation

/-- Evaluates a node by recursion, to the end if that takes calls no deeper than `depth`. -/
def Node.evaluate (around : Surroundings) : Nat → Node → Evaluation Value
  | 0, _ => Evaluation.endless
  | depth + 1, n => Evaluation.node (Node.evaluate around depth) around n

namespace Evaluation

variable {α β : Type} {x : Evaluation α} {f : α → Evaluation β} {s t : State}

theorem run_bind_of_ok {a : α} (h : x.run s = some (.ok a, t)) : (x >>= f).run s = (f a).run t := by
  have hrun : (x >>= f).run s = (x.run s).bind fun r => ExceptT.bindCont f r.1 r.2 := rfl
  rw [hrun, h]
  rfl

theorem run_bind_of_error {stop : Stop} (h : x.run s = some (.error stop, t)) :
    (x >>= f).run s = some (.error stop, t) := by
  have hrun : (x >>= f).run s = (x.run s).bind fun r => ExceptT.bindCont f r.1 r.2 := rfl
  rw [hrun, h]
  rfl

theorem run_bind_of_none (h : x.run s = none) : (x >>= f).run s = none := by
  have hrun : (x >>= f).run s = (x.run s).bind fun r => ExceptT.bindCont f r.1 r.2 := rfl
  rw [hrun, h]
  rfl

end Evaluation

def Step.run (around : Surroundings) (fuel : Nat) : Step → Option (Except Stop Value × State)
  | .next c => Machine.run around fuel c
  | .halt result s => some (result, s)

namespace Machine

def Arrives (around : Surroundings) (frames : List Frame) (c : Config) :
    Except Stop Value × State → Prop
  | (.ok v, t) => Reaches around c ⟨.value v, frames, t⟩
  | (.error stop, t) => ∃ e, Reaches around c e ∧ step around e = .halt (.error stop) t

def Continues (around : Surroundings) (fuel : Nat) (frames : List Frame)
    (y : Except Stop Value × State) : Except Stop Value × State → Prop
  | (.ok v, t) => ∃ left ≤ fuel, run around left ⟨.value v, frames, t⟩ = some y
  | (.error stop, t) => y = (.error stop, t)

/-- From a configuration the machine comes to the result `m`, if there is one; and there is one if a run
of no more than `depth` steps ends. -/
structure Agrees (around : Surroundings) (depth : Nat) (frames : List Frame)
    (m : Option (Except Stop Value × State)) (c : Config) : Prop where
  arrives {x : Except Stop Value × State} : m = some x → Arrives around frames c x
  answers {fuel : Nat} {y : Except Stop Value × State} : fuel < depth →
    run around (fuel + 1) c = some y → ∃ x, m = some x ∧ Continues around fuel frames y x

structure Follows (around : Surroundings) (depth : Nat) (frames : List Frame)
    (m : Option (Except Stop Value × State)) (step : Step) : Prop where
  arrives {x : Except Stop Value × State} : m = some x →
    (∃ c, step = .next c ∧ Arrives around frames c x) ∨
      ∃ stop t, step = .halt (.error stop) t ∧ x = (.error stop, t)
  answers {fuel : Nat} {y : Except Stop Value × State} : fuel < depth →
    step.run around fuel = some y → ∃ x, m = some x ∧ Continues around fuel frames y x

section

variable {around : Surroundings} {depth d : Nat} {frames : List Frame} {s : State} {n : Node}
  {m : Option (Except Stop Value × State)} {c : Config}

theorem Arrives.trans {e : Config} {x : Except Stop Value × State} (h : Reaches around c e)
    (h' : Arrives around frames e x) : Arrives around frames c x := by
  obtain ⟨stop | v, t⟩ := x
  · obtain ⟨b, hb, hh⟩ := h'
    exact ⟨b, Relation.ReflTransGen.trans h hb, hh⟩
  · exact Relation.ReflTransGen.trans h h'

theorem Continues.mono {j k : Nat} (hjk : j ≤ k) {x y : Except Stop Value × State}
    (h : Continues around j frames y x) : Continues around k frames y x := by
  obtain ⟨stop | v, t⟩ := x
  · exact h
  · obtain ⟨left, hl, hr⟩ := h
    exact ⟨left, hl.trans hjk, hr⟩

theorem run_succ (fuel : Nat) (c : Config) :
    run around (fuel + 1) c = (step around c).run around fuel := by
  cases h : step around c <;> simp only [run, Step.run, h]

theorem run_unique {fuel fuel' : Nat} {x y : Except Stop Value × State}
    (hx : run around fuel c = some x) (hy : run around fuel' c = some y) : x = y := by
  induction fuel generalizing c fuel' with
  | zero => cases hx
  | succ fuel ih =>
    cases fuel' with
    | zero => cases hy
    | succ fuel' =>
      rw [run_succ] at hx hy
      cases h : step around c with
      | next e =>
        rw [h] at hx hy
        exact ih hx hy
      | halt result t =>
        rw [h] at hx hy
        exact Option.some.inj (hx.symm.trans hy)

theorem exists_run_of_reaches {e : Config} (h : Reaches around c e) {fuel : Nat}
    {y : Except Stop Value × State} (hr : run around fuel e = some y) :
    ∃ fuel, run around fuel c = some y := by
  induction h using Relation.ReflTransGen.head_induction_on with
  | refl => exact ⟨fuel, hr⟩
  | head hstep _ ih =>
    obtain ⟨fuel, hr⟩ := ih
    exact ⟨fuel + 1, by rw [run_succ, hstep]; exact hr⟩

theorem exists_run_of_arrives {x y : Except Stop Value × State} (h : Arrives around frames c x)
    {fuel : Nat} (hc : Continues around fuel frames y x) : ∃ fuel, run around fuel c = some y := by
  obtain ⟨stop | v, t⟩ := x
  · obtain ⟨e, he, hs⟩ := h
    obtain rfl := hc
    have hr : run around 1 e = some (.error stop, t) := by
      rw [run_succ, hs]
      rfl
    exact exists_run_of_reaches he hr
  · obtain ⟨left, -, hr⟩ := hc
    exact exists_run_of_reaches h hr

theorem exists_continues_nil_iff {x y : Except Stop Value × State} :
    (∃ fuel, Continues around fuel [] y x) ↔ y = x := by
  obtain ⟨stop | v, t⟩ := x
  · exact exists_const ℕ
  · constructor
    · rintro ⟨fuel, left, -, hr⟩
      cases left with
      | zero => cases hr
      | succ left => exact (Option.some.inj hr).symm
    · rintro rfl
      exact ⟨1, 1, Nat.le_refl 1, rfl⟩

theorem Follows.arrives_before (h : Follows around d frames m (step around c))
    {x : Except Stop Value × State} (hm : m = some x) : Arrives around frames c x := by
  rcases h.arrives hm with ⟨e, he, ha⟩ | ⟨stop, t, hs, rfl⟩
  · exact ha.trans (.single he)
  · exact ⟨c, .refl, hs⟩

theorem agrees_of_follows (h : Follows around depth frames m (step around c)) :
    Agrees around depth frames m c where
  arrives := h.arrives_before
  answers hf hy := h.answers hf (by rwa [← run_succ])

theorem follows_of_agrees (hd : d ≤ depth) (h : Agrees around depth frames m ⟨.node n, frames, s⟩) :
    Follows around d frames m (step around ⟨.node n, frames, s⟩) where
  arrives {x} hm := by
    obtain ⟨stop | v, t⟩ := x
    · obtain ⟨b, hb, hh⟩ := h.arrives hm
      rcases Relation.ReflTransGen.cases_head hb with rfl | ⟨c, hs, hc⟩
      · exact .inr ⟨stop, t, hh, rfl⟩
      · exact .inl ⟨c, hs, b, hc, hh⟩
    · rcases Relation.ReflTransGen.cases_head (h.arrives hm) with hv | ⟨c, hs, hc⟩
      · cases hv
      · exact .inl ⟨c, hs, hc⟩
  answers hf hy := h.answers (Nat.lt_of_lt_of_le hf hd) (by rwa [run_succ])

theorem follows_tail (hd : d ≤ depth + 1) (h : Agrees around depth frames m ⟨.node n, frames, s⟩) :
    Follows around d frames m (eval n frames s) where
  arrives hm := .inl ⟨_, rfl, h.arrives hm⟩
  answers {fuel y} hf hy := by
    cases fuel with
    | zero => cases hy
    | succ fuel =>
      obtain ⟨x, hx, hc⟩ := h.answers (by omega) hy
      exact ⟨x, hx, hc.mono (Nat.le_succ fuel)⟩

theorem follows_give (v : Value) :
    Follows around d frames (some (.ok v, s)) (give v frames s) where
  arrives := by
    rintro x ⟨⟩
    exact .inl ⟨_, rfl, .refl⟩
  answers {fuel y} _ hy := ⟨_, rfl, fuel, Nat.le_refl _, hy⟩

theorem follows_halt (stop : Stop) :
    Follows around d frames (some (.error stop, s)) (.halt (.error stop) s) where
  arrives := by
    rintro x ⟨⟩
    exact .inr ⟨stop, s, rfl, rfl⟩
  answers _ hy := ⟨_, rfl, (Option.some.inj hy).symm⟩

theorem follows_after {α : Type} {x : Action α} {f : α → Evaluation Value} {go : α → State → Step}
    (h : ∀ a t, Follows around d frames ((f a).run t) (go a t)) :
    Follows around d frames ((Evaluation.perform x >>= f).run s) (after x s go) := by
  rcases hx : x.run s with ⟨stop | a, t⟩
  · have hp : (Evaluation.perform x).run s = some (.error stop, t) := congrArg some hx
    rw [Evaluation.run_bind_of_error hp, after_of_error hx]
    exact follows_halt stop
  · have hp : (Evaluation.perform x).run s = some (.ok a, t) := congrArg some hx
    rw [Evaluation.run_bind_of_ok hp, after_of_ok hx]
    exact h a t

theorem follows_perform (x : Action Value) :
    Follows around d frames ((Evaluation.perform x).run s) (after x s (give · frames)) := by
  rw [← bind_pure (Evaluation.perform x)]
  exact follows_after fun v t => follows_give v

theorem follows_argument {args : List Node} {i : Nat} {f : Node → Evaluation Value}
    {go : Node → Step} (h : ∀ n, Follows around d frames ((f n).run s) (go n)) :
    Follows around d frames ((Evaluation.argument args i >>= f).run s)
      (withArgument args i s go) := by
  unfold Evaluation.argument withArgument
  cases args[i]? with
  | some n => exact h n
  | none => exact follows_halt _

theorem follows_operand {x : Evaluation Value} {f : Value → Evaluation Value} {frame : Frame}
    (hd : d ≤ depth + 1)
    (hx : Agrees around depth (frame :: frames) (x.run s) ⟨.node n, frame :: frames, s⟩)
    (hf : ∀ v t, Follows around (d - 1) frames ((f v).run t) (resume around v frame frames t)) :
    Follows around d frames ((x >>= f).run s) (eval n (frame :: frames) s) where
  arrives {y} hm := by
    refine .inl ⟨_, rfl, ?_⟩
    rcases hr : x.run s with _ | ⟨stop | v, t⟩
    · rw [Evaluation.run_bind_of_none hr] at hm
      cases hm
    · rw [Evaluation.run_bind_of_error hr] at hm
      obtain rfl := Option.some.inj hm
      exact hx.arrives hr
    · rw [Evaluation.run_bind_of_ok hr] at hm
      exact ((hf v t).arrives_before (c := ⟨.value v, frame :: frames, t⟩) hm).trans (hx.arrives hr)
  answers {fuel y} hfuel hy := by
    cases fuel with
    | zero => cases hy
    | succ fuel =>
      obtain ⟨⟨stop | v, t⟩, hr, hc⟩ := hx.answers (by omega) hy
      · exact ⟨_, Evaluation.run_bind_of_error hr, hc⟩
      · obtain ⟨left, hl, hrun⟩ := hc
        cases left with
        | zero => cases hrun
        | succ left =>
          -- one step led to the operand and one leads back to the frame, which has less fuel than that
          rw [run_succ] at hrun
          rw [Evaluation.run_bind_of_ok hr]
          obtain ⟨z, hz, hc⟩ := (hf v t).answers (by omega) hrun
          exact ⟨z, hz, hc.mono (by omega)⟩

end

section

variable {around : Surroundings} {depth d : Nat} {frames : List Frame} {s : State}
  {eval : Node → Evaluation Value}
  (ih : ∀ n frames s, Agrees around depth frames ((eval n).run s) ⟨.node n, frames, s⟩)

include ih

theorem follows_force (hd : d ≤ depth + 1) (v : Value) :
    Follows around d frames ((Evaluation.force eval v).run s) (force v frames s) := by
  cases v with
  | block body => exact follows_tail hd (ih body frames s)
  | _ => exact follows_give _

theorem follows_operand_argument (hd : d ≤ depth + 1) {args : List Node} {i : Nat}
    {f : Value → Evaluation Value} {frame : Frame}
    (hf : ∀ v t, Follows around (d - 1) frames ((f v).run t) (resume around v frame frames t)) :
    Follows around d frames
      ((Evaluation.argument args i >>= fun n => eval n >>= f).run s)
      (withArgument args i s (Machine.eval · (frame :: frames) s)) :=
  follows_argument fun n => follows_operand hd (ih n (frame :: frames) s) hf

theorem follows_call (id : Nat) (word : String) (builtin : Builtin) (args : List Node) :
    Follows around (depth + 1) frames
      ((Evaluation.call eval around (eval (.call id word builtin args)) args builtin).run s)
      (call around builtin args frames s) := by
  have hd : depth + 1 - 1 ≤ depth + 1 := Nat.sub_le _ _
  have hd' : depth + 1 - 1 - 1 ≤ depth + 1 := by omega
  cases builtin with
  | block => exact follows_argument fun n => follows_give (.block n)
  | dumpTree => exact follows_argument fun n => follows_perform _
  | prompt => exact follows_perform _
  | random => exact follows_perform _
  | branch =>
    refine follows_operand_argument ih (Nat.le_refl _) fun v t => follows_after fun b t => ?_
    exact follows_argument fun n => follows_tail hd (ih n frames t)
  | loop =>
    refine follows_operand_argument ih (Nat.le_refl _) fun v t => follows_after fun b t => ?_
    cases b with
    | true =>
      refine follows_operand_argument ih hd fun v t => ?_
      -- the machine goes back to the condition, which is also the first step on the call
      exact follows_of_agrees (by omega) (ih (.call id word .loop args) frames t)
    | false => exact follows_give .null
  | ascii => exact follows_operand_argument ih (Nat.le_refl _) fun v t => follows_perform _
  | call => exact follows_operand_argument ih (Nat.le_refl _) fun v t => follows_force ih hd v
  | dump => exact follows_operand_argument ih (Nat.le_refl _) fun v t => follows_perform _
  | eval =>
    refine follows_operand_argument ih (Nat.le_refl _) fun v t => follows_after fun q t => ?_
    exact follows_tail hd (ih q.root frames t)
  | length =>
    exact follows_operand_argument ih (Nat.le_refl _) fun v t =>
      follows_after fun str t => follows_give _
  | output => exact follows_operand_argument ih (Nat.le_refl _) fun v t => follows_perform _
  | quit =>
    exact follows_operand_argument ih (Nat.le_refl _) fun v t =>
      follows_after fun code t => follows_halt _
  | get =>
    refine follows_operand_argument ih (Nat.le_refl _) fun string t => ?_
    refine follows_operand_argument ih hd fun start t => ?_
    exact follows_operand_argument ih hd' fun count t => follows_perform _
  | substitute =>
    refine follows_operand_argument ih (Nat.le_refl _) fun string t => ?_
    refine follows_operand_argument ih hd fun start t => ?_
    refine follows_operand_argument ih hd' fun count t => ?_
    exact follows_operand_argument ih (by omega) fun replacement t => follows_perform _

theorem follows_node (n : Node) :
    Follows around (depth + 1) frames ((Evaluation.node eval around n).run s)
      (enter around n frames s) := by
  have hd : depth + 1 - 1 ≤ depth + 1 := Nat.sub_le _ _
  have operand {f : Value → Evaluation Value} {frame : Frame} (m : Node)
      (hf : ∀ v t, Follows around (depth + 1 - 1) frames ((f v).run t)
        (resume around v frame frames t)) :
      Follows around (depth + 1) frames ((eval m >>= f).run s)
        (Machine.eval m (frame :: frames) s) :=
    follows_operand (Nat.le_refl _) (ih m (frame :: frames) s) hf
  cases n with
  | literal id v => exact follows_give v
  | var id v =>
    have hread : enter around (.var id v) frames s =
        after (Action.onStore (Store.read? v)) s fun value t =>
          match value with
          | some value => force value frames t
          | none => .halt (.error (.error (.undefinedVariable v.name))) t := rfl
    rw [hread]
    refine follows_after fun value t => ?_
    cases value with
    | some value => exact follows_force ih (Nat.le_refl _) value
    | none => exact follows_halt _
  | unary id op m => exact operand m fun v t => follows_perform _
  | binary id op l r =>
    cases op with
    | chain => exact operand l fun _ t => follows_tail hd (ih r frames t)
    | and =>
      refine operand l fun v t => follows_after fun b t => ?_
      cases b with
      | true => exact follows_tail hd (ih r frames t)
      | false => exact follows_give v
    | or =>
      refine operand l fun v t => follows_after fun b t => ?_
      cases b with
      | true => exact follows_give v
      | false => exact follows_tail hd (ih r frames t)
    | assign =>
      cases l with
      | var id x => exact operand r fun v t => follows_after fun _ t => follows_give v
      | _ => exact follows_halt _
    | _ =>
      refine operand l fun u t => ?_
      exact follows_operand hd (ih r _ t) fun v t => follows_perform _
  | call id word builtin args => exact follows_call ih id word builtin args

end

end Machine

namespace Node

theorem agrees_evaluate (around : Surroundings) (depth : Nat) (n : Node) (frames : List Frame)
    (s : State) :
    Machine.Agrees around depth frames ((n.evaluate around depth).run s) ⟨.node n, frames, s⟩ := by
  -- a run of fewer than `depth` steps needs no calls that are deeper, so both directions go together
  induction depth generalizing n frames s with
  | zero => exact ⟨nofun, fun hf => absurd hf (Nat.not_lt_zero _)⟩
  | succ depth ih => exact Machine.agrees_of_follows (Machine.follows_node ih n)

theorem exists_run_iff (around : Surroundings) (n : Node) (frames : List Frame) (s : State)
    (y : Except Stop Value × State) :
    (∃ fuel, Machine.run around fuel ⟨.node n, frames, s⟩ = some y) ↔
      ∃ x, (∃ depth, (n.evaluate around depth).run s = some x) ∧
        ∃ fuel, Machine.Continues around fuel frames y x := by
  constructor
  · rintro ⟨fuel, hr⟩
    cases fuel with
    | zero => cases hr
    | succ fuel =>
      obtain ⟨x, hx, hc⟩ :=
        (agrees_evaluate around (fuel + 1) n frames s).answers (Nat.lt_succ_self fuel) hr
      exact ⟨x, ⟨fuel + 1, hx⟩, fuel, hc⟩
  · rintro ⟨x, ⟨depth, hx⟩, fuel, hc⟩
    exact Machine.exists_run_of_arrives ((agrees_evaluate around depth n frames s).arrives hx) hc

theorem exists_eval_iff (around : Surroundings) (n : Node) (s : State)
    (x : Except Stop Value × State) : (∃ fuel, n.eval around fuel s = some x) ↔
      ∃ depth, (n.evaluate around depth).run s = some x := by
  refine (exists_run_iff around n [] s x).trans ?_
  simp only [Machine.exists_continues_nil_iff, exists_eq_right']

theorem evaluate_unique {around : Surroundings} {n : Node} {s : State} {depth depth' : Nat}
    {x y : Except Stop Value × State} (hx : (n.evaluate around depth).run s = some x)
    (hy : (n.evaluate around depth').run s = some y) : x = y := by
  obtain ⟨fuel, hx⟩ := (exists_eval_iff around n s x).2 ⟨depth, hx⟩
  obtain ⟨fuel', hy⟩ := (exists_eval_iff around n s y).2 ⟨depth', hy⟩
  exact Machine.run_unique hx hy

/-- A value, an error or a panic is what the machine ends with, and in which state, exactly when it is
what the recursion ends with, and in which state; and the machine goes on for ever exactly when the
recursion does. -/
theorem eval_eq_some_iff_evaluate (around : Surroundings) (n : Node) (s : State) :
    (∀ result t, (∃ fuel, n.eval around fuel s = some (result, t)) ↔
      ∃ depth, (n.evaluate around depth).run s = some (result, t)) ∧
    ((∀ fuel, n.eval around fuel s = none) ↔ ∀ depth, (n.evaluate around depth).run s = none) := by
  refine ⟨fun result t => exists_eval_iff around n s (result, t), ?_⟩
  simp only [Option.eq_none_iff_forall_ne_some]
  constructor
  · intro h depth x hx
    obtain ⟨fuel, hr⟩ := (exists_eval_iff around n s x).2 ⟨depth, hx⟩
    exact h fuel x hr
  · intro h fuel x hx
    obtain ⟨depth, hm⟩ := (exists_eval_iff around n s x).1 ⟨fuel, hx⟩
    exact h depth x hm

end Node

end KnightLang
