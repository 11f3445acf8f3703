import KnightLang.Proofs.Console.Effects
import KnightLang.Proofs.Execution.Reaching

namespace KnightLang

namespace Effect

def silent : Set Effect := {.write}ᶜ

end Effect

namespace Action

variable {α β : Type}

/-- Nothing is written, or one text, and before that strings are used only. -/
inductive Turn : {α : Type} → Action α → Prop
  | silent {α : Type} {x : Action α} (h : x.Uses Effect.silent) : Turn x
  | prepare {α β : Type} {x : Action α} {f : α → Action β} (h : x.Uses ∅) (hf : ∀ a, Turn (f a)) :
      Turn (x >>= f)
  | write {α : Type} (text : String) {x : Action α} (h : x.Uses Effect.silent) :
      Turn (write text >>= fun _ => x)

namespace Turn

theorem bind {x : Action α} {f : α → Action β} (h : x.Turn) (hf : ∀ a, (f a).Uses Effect.silent) :
    (x >>= f).Turn := by
  induction h with
  | silent h => exact .silent (h.bind hf)
  | prepare h _ ih =>
    rw [bind_assoc]
    exact .prepare h fun a => ih a hf
  | write text h =>
    rw [bind_assoc]
    exact .write text (h.bind hf)

theorem uses {x : Action α} (h : x.Turn) : x.Uses Set.univ := by
  induction h with
  | silent h => exact h.mono (Set.subset_univ _)
  | prepare h _ ih => exact (h.mono (Set.empty_subset _)).bind ih
  | write text h => exact .bind (.does trivial (.write text)) fun _ => h.mono (Set.subset_univ _)

theorem display (text : String) : (Action.display text).Turn := by
  unfold Action.display
  exact .write text (.bind (.does (by simp [Effect.silent]) .flush) fun _ => .pure _)

theorem output (v : Value) : (Action.output v).Turn := by
  unfold Action.output
  refine .prepare (.toStr v) fun s => ?_
  split
  · exact display _
  · exact .write _ (.pure _)

end Turn

end Action

namespace Machine

inductive Move
  | go (control : Control) (frames : List Frame)
  | halt (result : Except Stop Value)

def perform (m : Action Move) (s : State) : Step :=
  after m s fun move t =>
    match move with
    | .go control frames => .next ⟨control, frames, t⟩
    | .halt result => .halt result t

def Performs (P : Action Move → Prop) (go : State → Step) : Prop :=
  ∃ m, P m ∧ ∀ s, go s = perform m s

abbrev Using (K : Set Effect) : (State → Step) → Prop := Performs (Action.Uses K)

abbrev Silent : (State → Step) → Prop := Using Effect.silent

abbrev InTurn : (State → Step) → Prop := Performs Action.Turn

section

variable {α : Type} {x : Action α} {go : α → State → Step} {frames : List Frame} {K : Set Effect}

theorem perform_bind (x : Action α) (m : α → Action Move) (s : State) :
    after x s (fun a t => perform (m a) t) = perform (x >>= m) s := by
  unfold perform
  rcases hx : x.run s with ⟨stop | a, t⟩
  · rw [after_of_error hx, after_of_error (Action.run_bind_of_error hx)]
  · rw [after_of_ok hx]
    have hm := Action.run_bind_of_ok (f := m) hx
    rcases hmt : (m a).run t with ⟨stop | move, u⟩
    · rw [after_of_error hmt, after_of_error (hm.trans hmt)]
    · rw [after_of_ok hmt, after_of_ok (hm.trans hmt)]

theorem performs_after {P : Action Move → Prop} (hx : ∀ m : α → Action Move,
    (∀ a, P (m a)) → P (x >>= m)) (hgo : ∀ a, Performs P (go a)) :
    Performs P fun s => after x s go := by
  choose m hm hs using hgo
  refine ⟨x >>= m, hx m hm, fun s => ?_⟩
  obtain rfl : go = fun a t => perform (m a) t := funext fun a => funext fun t => hs a t
  exact perform_bind x m s

theorem Performs.of_eq {P : Action Move → Prop} {go go' : State → Step} (h : Performs P go)
    (he : ∀ s, go' s = go s) : Performs P go' := by
  obtain rfl : go' = go := funext he
  exact h

theorem Performs.inTurn {go : State → Step} (h : Silent go) : InTurn go := by
  obtain ⟨m, hm, hs⟩ := h
  exact ⟨m, .silent hm, hs⟩

theorem uses_after (hx : x.Uses K) (hgo : ∀ a, Using K (go a)) : Using K fun s => after x s go :=
  performs_after (fun _ hm => hx.bind hm) hgo

theorem uses_eval (n : Node) (frames : List Frame) : Using K (eval n frames) :=
  ⟨pure (.go (.node n) frames), .pure _, fun _ => rfl⟩

theorem uses_give (v : Value) (frames : List Frame) : Using K (give v frames) :=
  ⟨pure (.go (.value v) frames), .pure _, fun _ => rfl⟩

theorem uses_halt (result : Except Stop Value) : Using K (.halt result) :=
  ⟨pure (.halt result), .pure _, fun _ => rfl⟩

theorem uses_force (v : Value) (frames : List Frame) : Using K (force v frames) := by
  cases v with
  | block body => exact uses_eval body frames
  | _ => exact uses_give _ frames

theorem uses_act {x : Action Value} (hx : x.Uses K) : Using K fun s => after x s (give · frames) :=
  uses_after hx fun v => uses_give v frames

theorem inTurn_act {x : Action Value} (hx : x.Turn) : InTurn fun s => after x s (give · frames) := by
  let m (v : Value) : Action Move := pure (.go (.value v) frames)
  exact ⟨x >>= m, hx.bind fun _ => .pure _, fun s => perform_bind x m s⟩

theorem uses_decided (v : Value) {go : Bool → State → Step} (hgo : ∀ b, Using K (go b)) :
    Using K fun s => after (Action.toBool v) s go := uses_after (.toBool v) hgo

theorem performs_withArgument {P : Action Move → Prop} (hP : ∀ result, P (pure (.halt result)))
    {args : List Node} {i : Nat} {go : Node → State → Step} (hgo : ∀ n, Performs P (go n)) :
    Performs P fun s => withArgument args i s fun n => go n s := by
  unfold withArgument
  cases args[i]? with
  | some n => exact hgo n
  | none => exact ⟨_, hP _, fun _ => rfl⟩

theorem uses_withArgument {args : List Node} {i : Nat} {go : Node → State → Step}
    (hgo : ∀ n, Using K (go n)) : Using K fun s => withArgument args i s fun n => go n s :=
  performs_withArgument (fun _ => .pure _) hgo

theorem inTurn_withArgument {args : List Node} {i : Nat} {go : Node → State → Step}
    (hgo : ∀ n, InTurn (go n)) : InTurn fun s => withArgument args i s fun n => go n s :=
  performs_withArgument (fun _ => .silent (.pure _)) hgo

theorem inTurn_apply (builtin : Builtin) (vs : List Value) (frames : List Frame) :
    InTurn (apply builtin vs frames) := by
  have halted : InTurn (.halt (.error (.panic (.missingArgument vs.length vs.length)))) :=
    (uses_halt _).inTurn
  unfold apply
  split
  · exact (uses_act (.ascii _)).inTurn
  · exact (uses_force _ _).inTurn
  · exact inTurn_act (.display _)
  · refine (uses_after ?_ fun program : Program => uses_eval program.root frames).inTurn
    exact (Action.Uses.toStr _).bind fun source => .sourceProgram source (by simp [Effect.silent])
  · exact (uses_act (.get _ _ _)).inTurn
  · exact (uses_after (.toStr _) fun _ => uses_give _ _).inTurn
  · exact inTurn_act (.output _)
  · exact (uses_after (.toInt _) fun _ => uses_halt _).inTurn
  · exact (uses_act (.substitute _ _ _ _)).inTurn
  · exact halted

theorem inTurn_call (around : Surroundings) (builtin : Builtin) (args : List Node)
    (frames : List Frame) : InTurn (call around builtin args frames) := by
  have argued (builtin : Builtin) : InTurn fun s =>
      withArgument args 0 s (eval · (.argument builtin args [] :: frames) s) :=
    (uses_withArgument fun n => uses_eval n _).inTurn
  cases builtin with
  | block => exact (uses_withArgument fun body => uses_give (.block body) frames).inTurn
  | dumpTree => exact inTurn_withArgument fun tree => inTurn_act (.display tree.render)
  | prompt => exact (uses_act (.prompt (by simp [Effect.silent]))).inTurn
  | random => exact (uses_act (.random around (by simp [Effect.silent]))).inTurn
  | branch => exact (uses_withArgument fun n => uses_eval n _).inTurn
  | loop => exact (uses_withArgument fun n => uses_eval n _).inTurn
  | _ => exact argued _

theorem uses_var (hK : .store ∈ K) (around : Surroundings) (id : Nat) (v : Variable)
    (frames : List Frame) : Using K (enter around (.var id v) frames) := by
  have hread : (Action.onStore (Store.read? v)).Uses K :=
    .does hK (.store (Workspace.onStore (Store.read? v)))
  let go (value : Option Value) (s : State) : Step :=
    value.elim (.halt (.error (.error (.undefinedVariable v.name))) s) (force · frames s)
  have hgo (value : Option Value) : Using K (go value) := by
    cases value with
    | some value => exact uses_force value frames
    | none => exact uses_halt _
  have heq (s : State) : enter around (.var id v) frames s =
      after (Action.onStore (Store.read? v)) s go := by
    simp only [enter]
    congr 1
    funext value t
    cases value <;> rfl
  exact (uses_after hread hgo).of_eq heq

theorem uses_write (hK : .store ∈ K) (target : Variable) (v : Value) (frames : List Frame) :
    Using K fun s => after (Action.onStore (Store.write target v)) s fun _ s => give v frames s :=
  uses_after (.does hK (.store (Workspace.onStore (Store.write target v)))) fun _ => uses_give v frames

theorem inTurn_enter (around : Surroundings) (n : Node) (frames : List Frame) :
    InTurn (enter around n frames) := by
  cases n with
  | literal id v => exact (uses_give v frames).inTurn
  | var id v => exact (uses_var (by simp [Effect.silent]) around id v frames).inTurn
  | unary id op operand => exact (uses_eval operand _).inTurn
  | binary id op left right =>
    cases op with
    | assign =>
      cases left with
      | var id v => exact (uses_eval right _).inTurn
      | _ => exact (uses_halt _).inTurn
    | _ => exact (uses_eval left _).inTurn
  | call id word builtin args => exact inTurn_call around builtin args frames

theorem inTurn_resume (around : Surroundings) (v : Value) (frame : Frame) (frames : List Frame) :
    InTurn (resume around v frame frames) := by
  cases frame with
  | unary op =>
    exact (uses_act (.unary around op v (by simp [Effect.silent]) (by simp [Effect.silent]))).inTurn
  | left op right => exact (uses_eval right _).inTurn
  | right op left => exact (uses_act (.binary left v op)).inTurn
  | chain next => exact (uses_eval next frames).inTurn
  | and right =>
    refine (uses_decided v fun b => ?_).inTurn
    cases b with
    | true => exact uses_eval right frames
    | false => exact uses_give v frames
  | or right =>
    refine (uses_decided v fun b => ?_).inTurn
    cases b with
    | true => exact uses_give v frames
    | false => exact uses_eval right frames
  | assign target =>
    exact (uses_write (by simp [Effect.silent]) target v frames).inTurn
  | branch args =>
    exact (uses_decided v fun b => uses_withArgument fun n => uses_eval n frames).inTurn
  | loopTest args =>
    refine (uses_decided v fun b => ?_).inTurn
    cases b with
    | true => exact uses_withArgument fun n => uses_eval n _
    | false => exact uses_give .null frames
  | loopBody args => exact (uses_withArgument fun n => uses_eval n _).inTurn
  | argument builtin args done =>
    by_cases hlt : (done ++ [v]).length < builtin.arity
    · have hs : Silent fun s => withArgument args (done ++ [v]).length s
          (eval · (.argument builtin args (done ++ [v]) :: frames) s) :=
        uses_withArgument fun n => uses_eval n _
      exact hs.inTurn.of_eq fun s => if_pos hlt
    · exact (inTurn_apply builtin (done ++ [v]) frames).of_eq fun s => if_neg hlt

theorem exists_step_eq_perform (around : Surroundings) (control : Control) (frames : List Frame) :
    ∃ m : Action Move, m.Turn ∧ ∀ s, step around ⟨control, frames, s⟩ = perform m s := by
  cases control with
  | node n => exact inTurn_enter around n frames
  | value v =>
    cases frames with
    | nil => exact (uses_halt (.ok v)).inTurn
    | cons frame frames => exact inTurn_resume around v frame frames

theorem state_perform (m : Action Move) (s : State) : (perform m s).state = (m.run s).2 := by
  unfold perform
  rcases hm : m.run s with ⟨stop | move, t⟩
  · rw [after_of_error hm]
    rfl
  · rw [after_of_ok hm]
    cases move <;> rfl

variable {around : Surroundings} {c e : Config}

theorem leads_step (around : Surroundings) (c : Config) :
    c.state.console.Leads Set.univ (step around c).state.console := by
  obtain ⟨control, frames, s⟩ := c
  obtain ⟨m, hm, hs⟩ := exists_step_eq_perform around control frames
  have hl := hm.uses.leads s
  rwa [← state_perform, ← hs s] at hl

theorem leads_reaches (h : Reaches around c e) : c.state.console.Leads Set.univ e.state.console := by
  induction h with
  | refl => exact .refl
  | @tail b e _ hs ih =>
    have hb := leads_step around b
    rw [hs] at hb
    exact ih.trans hb

theorem leads_advance (around : Surroundings) (fuel : Nat) (c : Config) :
    c.state.console.Leads Set.univ (advance around fuel c).2.console := by
  obtain ⟨e, he, ha | ha⟩ := exists_state_advance around fuel c
  · rw [ha]
    exact leads_reaches he
  · rw [ha]
    exact (leads_reaches he).trans (leads_step around e)

end

end Machine

namespace Program

theorem flushed_eq (result : Except Stop Value) (s : State) : flushed result s =
    match Console.flush.run s.console with
    | (.ok _, c) => (result, ⟨s.workspace, c⟩)
    | (.error failure, c) => (.error (.error (.inputOutput failure)), ⟨s.workspace, c⟩) := by
  have hf : Console.flush.run s.console = Console.flush s.console := rfl
  rw [flushed, flush_eq, hf]
  rcases Console.flush s.console with ⟨failure | _, c⟩ <;> rfl

theorem conclude_cases (result : Except Stop Value) (s : State) :
    (∃ p, result = .error (.panic p) ∧ conclude result s = (result, s)) ∨
      conclude result s = flushed result s := by
  rcases result with stop | v
  · cases stop with
    | error e => exact .inr rfl
    | panic p => exact .inl ⟨p, rfl, rfl⟩
  · exact .inr rfl

theorem workspace_conclude (result : Except Stop Value) (s : State) :
    (conclude result s).2.workspace = s.workspace := by
  rcases conclude_cases result s with ⟨p, -, hc⟩ | hc
  · rw [hc]
  · rw [hc, flushed_eq]
    rcases Console.flush.run s.console with ⟨failure | _, c⟩ <;> rfl

theorem input_conclude (result : Except Stop Value) (s : State) :
    (conclude result s).2.console.input = s.console.input := by
  rcases conclude_cases result s with ⟨p, -, hc⟩ | hc
  · rw [hc]
  · rw [hc, flushed_eq, Console.flush_eq]
    by_cases hf : s.console.output.failingFlush.fails (s.console.output.flushes + 1) = true
    · rw [if_pos hf]
    · rw [if_neg hf]

theorem leads_conclude (result : Except Stop Value) (s : State) :
    s.console.Leads Set.univ (conclude result s).2.console := by
  rcases conclude_cases result s with ⟨p, -, hc⟩ | hc
  · rw [hc]
    exact .refl
  · have hflush : s.console.Leads Set.univ (Console.flush.run s.console).2 :=
      .single ⟨.flush, trivial, .flush _⟩
    rw [hc, flushed_eq]
    rcases hf : Console.flush.run s.console with ⟨failure | _, c⟩ <;> rwa [hf] at hflush

theorem leads_execute {around : Surroundings} {fuel : Nat} {p : Program} {s t : State}
    {result : Except Stop Value} (h : p.execute around fuel s = some (result, t)) :
    s.console.Leads Set.univ t.console := by
  rw [execute_eq] at h
  obtain ⟨r, -, hr⟩ := Option.map_eq_some_iff.1 h
  have hrun : s.console.Leads Set.univ (p.advance around fuel s).2.console :=
    Machine.leads_advance around fuel (p.opening s)
  have hend := leads_conclude r (p.advance around fuel s).2
  rw [hr] at hend
  exact hrun.trans hend

end Program

end KnightLang
