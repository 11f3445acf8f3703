import KnightLang.Proofs.Execution.Storing

/-!
Properties that trees hand down to their parts. Main statement: a step goes on with parts of what the
machine had, with a value of the store, or with a program that it found for a source.
-/
namespace KnightLang

namespace Frame

def nodes : Frame → List Node
  | .left _ n | .chain n | .and n | .or n => [n]
  | .branch args | .loopTest args | .loopBody args | .argument _ args _ => args
  | .unary _ | .right _ _ | .assign _ => []

def values : Frame → List Value
  | .right _ v => [v]
  | .argument _ _ done => done
  | _ => []

def targets : Frame → List Variable
  | .assign target => [target]
  | _ => []

end Frame

/-- A property of trees that all of their parts have: the values in them, the trees of blocks, and the
variables that may be assigned. -/
structure Trait where
  node : Node → Prop
  value : Value → Prop
  target : Variable → Prop
  scalar {v : Value} (h : v.kind ≠ .block) : value v
  block {n : Node} : value (.block n) ↔ node n
  literal {id : Nat} {v : Value} (h : node (.literal id v)) : value v
  var {id : Nat} {v : Variable} (h : node (.var id v)) : target v
  unary {id : Nat} {op : UnaryOp} {n : Node} (h : node (.unary id op n)) : node n
  binary {id : Nat} {op : BinaryOp} {m n : Node} (h : node (.binary id op m n)) : node m ∧ node n
  call {id : Nat} {word : String} {builtin : Builtin} {args : List Node}
    (h : node (.call id word builtin args)) : ∀ n ∈ args, node n

namespace Trait

def control (P : Trait) : Control → Prop
  | .node n => P.node n
  | .value v => P.value v

structure OfFrame (P : Trait) (f : Frame) : Prop where
  nodes : ∀ n ∈ f.nodes, P.node n
  values : ∀ v ∈ f.values, P.value v
  targets : ∀ target ∈ f.targets, P.target target

structure OfStore (P : Trait) (s : Store) : Prop where
  slots {k : Nat} {v : Value} : s.slots[k]?.join = some v → P.value v
  programs {k : Nat} {e : Str × Program} : s.programs[k]? = some e → P.node e.2.root

structure OfConfig (P : Trait) (c : Config) : Prop where
  control : P.control c.control
  frames : ∀ f ∈ c.frames, P.OfFrame f
  store : P.OfStore c.state.workspace.store

inductive Passes (P : Trait) : Step → Prop
  | next {c : Config} (hc : P.control c.control) (hf : ∀ f ∈ c.frames, P.OfFrame f) :
      Passes P (.next c)
  | value {v : Value} {s : State} (h : P.value v) : Passes P (.halt (.ok v) s)
  | stop {stop : Stop} {s : State} : Passes P (.halt (.error stop) s)

end Trait

def State.Finds (s t : State) (q : Program) : Prop :=
  ∃ source s', s'.workspace.store = s.workspace.store ∧ Action.Finds source s' (.ok q) t

namespace Machine

section

variable {P : Trait} {α : Type} {x : Action α} {Q : α → Prop} {R : Stop → Prop} {s : State}
  {frames : List Frame} (hf : ∀ f ∈ frames, P.OfFrame f)

include hf

theorem passes_eval {n : Node} (hn : P.node n) : P.Passes (eval n frames s) := .next hn hf

theorem passes_give {v : Value} (hv : P.value v) : P.Passes (give v frames s) := .next hv hf

theorem passes_scalar {v : Value} (hv : v.kind ≠ .block) : P.Passes (give v frames s) :=
  passes_give hf (P.scalar hv)

theorem passes_waits {n : Node} {f : Frame} (hn : P.node n) (hframe : P.OfFrame f) :
    P.Passes (eval n (f :: frames) s) :=
  passes_eval (List.forall_mem_cons.2 ⟨hframe, hf⟩) hn

theorem passes_part {n : Node} {f : Frame} (hn : P.node n) (hnodes : ∀ m ∈ f.nodes, P.node m)
    (hvalues : ∀ v ∈ f.values, P.value v) (htargets : f.targets = []) :
    P.Passes (eval n (f :: frames) s) :=
  passes_waits hf hn ⟨hnodes, hvalues, by simp [htargets]⟩

theorem passes_force {v : Value} (hv : P.value v) : P.Passes (force v frames s) := by
  cases v with
  | block body => exact passes_eval hf (P.block.1 hv)
  | _ => exact passes_give hf hv

theorem passes_act {x : Action Value} {Q : Value → Prop} (h : x.Keeps Q R)
    (hQ : ∀ v, Q v → P.value v) : P.Passes (after x s (give · frames)) :=
  after_cases h (fun v _ _ hv => passes_give hf (hQ v hv)) fun _ _ _ _ => .stop

theorem passes_made {x : Action Value} (h : x.Keeps (fun v => v.kind ≠ .block) R) :
    P.Passes (after x s (give · frames)) :=
  passes_act hf h fun _ => P.scalar

omit hf

theorem passes_after {go : α → State → Step} (h : x.Keeps Q R)
    (hgo : ∀ a t, P.Passes (go a t)) : P.Passes (after x s go) :=
  after_cases h (fun a t _ _ => hgo a t) fun _ _ _ _ => .stop

theorem passes_decided {v : Value} {go : Bool → State → Step} (hgo : ∀ b t, P.Passes (go b t)) :
    P.Passes (after (Action.toBool v) s go) :=
  passes_after (.toBool (List.mem_singleton.2 rfl)) hgo

theorem passes_withArgument {args : List Node} {i : Nat} {go : Node → Step}
    (h : ∀ n ∈ args, P.node n) (hgo : ∀ n, P.node n → P.Passes (go n)) :
    P.Passes (withArgument args i s go) := by
  unfold withArgument
  split
  · rename_i n hn
    exact hgo n (h n (List.mem_of_getElem? hn))
  · exact .stop

end

variable {P : Trait} {s : State} {frames : List Frame}

theorem passes_source (hf : ∀ f ∈ frames, P.OfFrame f) (v : Value)
    (hq : ∀ q, s.Finds (apply .eval [v] frames s).state q → P.node q.root) :
    P.Passes (apply .eval [v] frames s) := by
  have h := evals_apply v frames s
  generalize apply .eval [v] frames s = step at h hq ⊢
  cases h with
  | unfit hv => exact .stop
  | @found source q t u hv h =>
    exact passes_eval hf (hq q ⟨source, t, Action.store_of_toStr hv, h⟩)
  | wrong hv h => exact .stop

theorem passes_apply (hf : ∀ f ∈ frames, P.OfFrame f) {builtin : Builtin} {vs : List Value}
    (hv : ∀ v ∈ vs, P.value v)
    (hq : builtin = .eval → ∀ q, s.Finds (apply builtin vs frames s).state q → P.node q.root) :
    P.Passes (apply builtin vs frames s) := by
  unfold apply
  split
  · exact passes_made hf (.ascii _)
  · exact passes_force hf (hv _ (List.mem_singleton.2 rfl))
  · exact passes_made (R := Stop.Due []) hf (.display _)
  · exact passes_source hf _ (hq rfl)
  · exact passes_made hf (.get _ _ _)
  · exact passes_after (.toStr_self _) fun _ _ => passes_scalar hf nofun
  · exact passes_made hf (.output _)
  · exact passes_after (.toInt (List.mem_singleton.2 rfl)) fun _ _ => .stop
  · refine passes_act hf (.substitute _ _ _ _) fun v h => ?_
    rcases h with rfl | h
    · exact hv v (by simp)
    · exact P.scalar h
  · exact .stop

theorem passes_call (around : Surroundings) (hf : ∀ f ∈ frames, P.OfFrame f) (builtin : Builtin)
    {args : List Node} (h : ∀ n ∈ args, P.node n) : P.Passes (call around builtin args frames s) := by
  have waits {f : Frame} (hnodes : ∀ n ∈ f.nodes, P.node n) (hvalues : f.values = [])
      (htargets : f.targets = []) : P.Passes (withArgument args 0 s (eval · (f :: frames) s)) :=
    passes_withArgument h fun n hn => passes_part hf hn hnodes (by simp [hvalues]) htargets
  cases builtin with
  | block => exact passes_withArgument h fun n hn => passes_give hf (P.block.2 hn)
  | dumpTree =>
    exact passes_withArgument h fun n _ => passes_made (R := Stop.Due []) hf (.display _)
  | prompt => exact passes_made (R := Stop.Due []) hf .prompt
  | random => exact passes_made (R := Stop.Due []) hf (.random around)
  | branch => exact waits h rfl rfl
  | loop => exact waits h rfl rfl
  | _ => exact waits h rfl rfl

theorem passes_enter (around : Surroundings)
    (hs : ∀ {k : Nat} {v : Value}, s.workspace.store.slots[k]?.join = some v → P.value v)
    (hf : ∀ f ∈ frames, P.OfFrame f) {n : Node} (hn : P.node n) :
    P.Passes (enter around n frames s) := by
  cases n with
  | literal id v => exact passes_give hf (P.literal hn)
  | var id v =>
    cases hv : s.workspace.store.slots[v.slot]?.join with
    | some value =>
      rw [enter_var_of_some hv]
      exact passes_force hf (hs hv)
    | none =>
      rw [enter_var_of_none hv]
      exact .stop
  | unary id op m => exact passes_part hf (P.unary hn) (List.forall_mem_nil _) (List.forall_mem_nil _) rfl
  | binary id op left right =>
    obtain ⟨hleft, hright⟩ := P.binary hn
    have hnodes : ∀ n ∈ [right], P.node n := by simpa using hright
    cases op with
    | assign =>
      cases left with
      | var id v =>
        have htarget : ∀ target ∈ [v], P.target target := by simpa using P.var hleft
        exact passes_waits hf hright ⟨List.forall_mem_nil _, List.forall_mem_nil _, htarget⟩
      | _ => exact .stop
    | _ => exact passes_part hf hleft hnodes (List.forall_mem_nil _) rfl
  | call id word builtin args => exact passes_call around hf builtin (P.call hn)

theorem passes_resume (around : Surroundings) {v : Value} {frame : Frame}
    (hf : ∀ f ∈ frames, P.OfFrame f) (hv : P.value v) (hframe : P.OfFrame frame)
    (hq : ∀ args done, frame = .argument .eval args done →
      ∀ q, s.Finds (resume around v frame frames s).state q → P.node q.root) :
    P.Passes (resume around v frame frames s) := by
  obtain ⟨hnodes, hvalues, -⟩ := hframe
  cases frame with
  | unary op =>
    refine passes_act hf (.unary v around op) fun u hu => ?_
    rcases hu with rfl | hu
    · exact hv
    · exact P.scalar hu
  | left op right =>
    have hright := hnodes right (List.mem_singleton.2 rfl)
    have hvalue : ∀ u ∈ [v], P.value u := by simpa using hv
    exact passes_part hf hright (List.forall_mem_nil _) hvalue rfl
  | right op left => exact passes_made hf (.binary left v op)
  | chain n => exact passes_eval hf (hnodes n (List.mem_singleton.2 rfl))
  | and n =>
    refine passes_decided fun b t => ?_
    cases b with
    | true => exact passes_eval hf (hnodes n (List.mem_singleton.2 rfl))
    | false => exact passes_give hf hv
  | or n =>
    refine passes_decided fun b t => ?_
    cases b with
    | true => exact passes_give hf hv
    | false => exact passes_eval hf (hnodes n (List.mem_singleton.2 rfl))
  | assign target => exact passes_give hf hv
  | branch args =>
    exact passes_decided fun b t => passes_withArgument hnodes fun n hn => passes_eval hf hn
  | loopTest args =>
    refine passes_decided fun b t => ?_
    cases b with
    | true =>
      exact passes_withArgument hnodes fun n hn =>
        passes_part hf hn hnodes (List.forall_mem_nil _) rfl
    | false => exact passes_scalar hf (by decide)
  | loopBody args =>
    exact passes_withArgument hnodes fun n hn => passes_part hf hn hnodes (List.forall_mem_nil _) rfl
  | argument builtin args done =>
    have hdone : ∀ u ∈ done ++ [v], P.value u :=
      List.forall_mem_append.2 ⟨hvalues, by simpa using hv⟩
    simp only [resume] at hq ⊢
    split
    · exact passes_withArgument hnodes fun n hn => passes_part hf hn hnodes hdone rfl
    · rename_i hlast
      rw [if_neg hlast] at hq
      exact passes_apply hf hdone fun he => hq args done (by rw [he])

theorem passes_step (around : Surroundings) {c : Config} (hc : P.control c.control)
    (hf : ∀ f ∈ c.frames, P.OfFrame f)
    (hs : ∀ {k : Nat} {v : Value}, c.state.workspace.store.slots[k]?.join = some v → P.value v)
    (hq : ∀ args done frames, c.frames = .argument .eval args done :: frames →
      ∀ q, c.state.Finds (step around c).state q → P.node q.root) : P.Passes (step around c) := by
  obtain ⟨control, frames, s⟩ := c
  cases control with
  | node n => exact passes_enter around hs hf hc
  | value v =>
    cases frames with
    | nil => exact .value hc
    | cons frame frames =>
      rw [List.forall_mem_cons] at hf
      exact passes_resume around hf.2 hc hf.1 fun args done he => hq args done frames (by rw [he])

end Machine

end KnightLang
