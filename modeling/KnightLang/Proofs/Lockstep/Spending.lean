import KnightLang.Eval.Machine
import KnightLang.Proofs.Strings.Making

namespace KnightLang

class Supplied (σ : Type) where
  supply : σ → Supply

export Supplied (supply)

instance : Supplied Interner := ⟨(·.supply)⟩

instance : Supplied Workspace := ⟨(·.strings.supply)⟩

instance : Supplied State := ⟨(·.workspace.strings.supply)⟩

class Spends {σ α : Type} [Supplied σ] (x : StateM σ α) : Prop where
  le (s : σ) : (supply s).nextTag.toNat ≤ (supply (x s).2).nextTag.toNat

theorem Supply.TagsLeft.of_le {s t : Supply} (ht : t.TagsLeft)
    (h : s.nextTag.toNat ≤ t.nextTag.toNat) : s.TagsLeft := by
  have hlt := t.nextTag.toNat_lt
  have hne : t.nextTag.toNat ≠ 4294967295 := fun he => ht (UInt32.toNat_inj.1 he)
  rintro hs
  rw [hs] at h
  change 4294967295 ≤ _ at h
  omega

namespace Spends

variable {σ α β : Type} [Supplied σ]

instance (a : α) : Spends (pure a : StateM σ α) := ⟨fun _ => le_rfl⟩

instance (x : StateM σ α) (f : α → StateM σ β) [hx : Spends x] [hf : ∀ a, Spends (f a)] :
    Spends (x >>= f) := ⟨fun s => (hx.le s).trans ((hf _).le _)⟩

instance (f : α → β) (x : StateM σ α) [hx : Spends x] : Spends (f <$> x) := ⟨fun s => hx.le s⟩

instance (c : Prop) [Decidable c] (x y : StateM σ α) [Spends x] [Spends y] :
    Spends (if c then x else y) := by
  split <;> infer_instance

instance (x : StateM σ α) [hx : Spends x] : Spends (discard x) := ⟨fun s => hx.le s⟩

instance (as : List α) (f : α → StateM σ Unit) [∀ a, Spends (f a)] : Spends (as.forM f) := by
  induction as with
  | nil => exact inferInstanceAs (Spends (pure () : StateM σ Unit))
  | cons a as ih => exact inferInstanceAs (Spends (f a >>= fun _ => as.forM f))

instance (a : α) : Spends (pure a : Action α).run := ⟨fun _ => le_rfl⟩

instance (stop : Stop) : Spends (throw stop : Action α).run := ⟨fun _ => le_rfl⟩

instance (f : α → Action β) (r : Except Stop α) [hf : ∀ a, Spends (f a).run] :
    Spends (ExceptT.bindCont f r) := by
  cases r with
  | ok a => exact hf a
  | error stop => exact inferInstanceAs (Spends (pure (.error stop) : StateM State (Except Stop β)))

instance (x : Action α) (f : α → Action β) [Spends x.run] [∀ a, Spends (f a).run] :
    Spends (x >>= f).run :=
  inferInstanceAs (Spends (x.run >>= ExceptT.bindCont f))

instance (c : Prop) [Decidable c] (x y : Action α) [Spends x.run] [Spends y.run] :
    Spends (if c then x else y).run := by
  split <;> infer_instance

end Spends

namespace Cache

theorem spends_make (key? : Option Key) (text : String) (i : Interner) :
    i.supply.nextTag.toNat ≤ (i.make key? text).2.supply.nextTag.toNat := by
  have h := (Interner.string_makes text i).grows.pool.nextTag
  simp only [Interner.make]
  split
  · exact le_rfl
  · cases key? <;> exact h

instance (text : String) : Spends (string text : StateM Interner Str) :=
  ⟨spends_make none text⟩

instance (n : Int64) : Spends (intString n : StateM Interner Str) := by
  refine ⟨fun i => ?_⟩
  rw [intString_eq_make]
  exact spends_make _ _ i

instance (left right : Str) : Spends (concat left right : StateM Interner Str) := by
  refine ⟨fun i => ?_⟩
  rw [concat_eq_make]
  exact spends_make _ _ i

instance (s : Str) (start stop : Nat) :
    Spends (substring s start stop : StateM Interner (Option Str)) := by
  refine ⟨fun i => ?_⟩
  rw [substring_eq_make]
  split
  · exact le_rfl
  · exact spends_make _ _ i

instance : Spends (emptyString : StateM Interner Str) := ⟨fun _ => le_rfl⟩

instance : Spends (nullString : StateM Interner Str) := ⟨fun _ => le_rfl⟩

instance (b : Bool) : Spends (boolString b : StateM Interner Str) := ⟨fun _ => le_rfl⟩

theorem warm_eq (i : Interner) : (warm : StateM Interner Unit) i =
    (range i.cache.options.least i.cache.options.greatest).forM
      (fun n => discard (intString n : StateM Interner Str)) i := rfl

instance : Spends (warm : StateM Interner Unit) := by
  refine ⟨fun i => ?_⟩
  rw [warm_eq]
  exact Spends.le i

end Cache

instance (v : Value) : Spends (v.toStr : StateM Interner (Except Panic Str)) := by
  cases v <;> unfold Value.toStr <;> infer_instance

section

variable {α : Type}

namespace Workspace

instance (x : StateM Interner α) [hx : Spends x] : Spends (onStrings x) := ⟨fun s => hx.le s.strings⟩

instance (x : StateM Store α) : Spends (onStore x) := ⟨fun _ => le_rfl⟩

instance : Spends number := ⟨fun _ => le_rfl⟩

end Workspace

namespace Parse

instance (l : Lexeme) : Spends (start l) := by
  unfold start
  split <;> try infer_instance
  split
  · infer_instance
  · split <;> infer_instance

instance (node : Node) (stack : List Pending) : Spends (deliver node stack) := by
  fun_induction deliver node stack <;> infer_instance

theorem spends_delivered (length : Nat) (rest : List Lexeme)
    (hrest : ∀ stack, Spends (finish length stack rest)) (r : Node ⊕ List Pending) :
    Spends (match r with
      | .inl root => return .ok root
      | .inr stack => finish length stack rest) := by
  rcases r with root | stack <;> infer_instance

theorem spends_started (length : Nat) (rest : List Lexeme)
    (hrest : ∀ stack, Spends (finish length stack rest)) (stack : List Pending)
    (r : Except CompileError (Pending ⊕ Node)) :
    Spends (match r with
      | .error e => return .error e
      | .ok (.inl pending) => finish length (pending :: stack) rest
      | .ok (.inr node) => do
        match ← deliver node stack with
        | .inl root => return .ok root
        | .inr stack => finish length stack rest) := by
  have delivered := spends_delivered length rest hrest
  rcases r with e | pending | node <;> infer_instance

instance (length : Nat) (stack : List Pending) (ls : List Lexeme) :
    Spends (finish length stack ls) := by
  induction ls generalizing stack with
  | nil => unfold finish; infer_instance
  | cons l rest ih =>
    have started := spends_started length rest ih stack
    unfold finish
    infer_instance

end Parse

theorem Program.spends_finished (r : Except CompileError Node) :
    Spends (match r with
      | .error e => return .error e
      | .ok root => return .ok ⟨root⟩ : StateM Workspace (Except CompileError Program)) := by
  cases r <;> infer_instance

instance (source : String) : Spends (Program.parse source) := by
  have finished := Program.spends_finished
  unfold Program.parse
  split <;> infer_instance

namespace Action

instance (x : StateM Workspace α) [hx : Spends x] : Spends (onWorkspace x).run :=
  ⟨fun s => hx.le s.workspace⟩

instance (x : StateM Interner α) [Spends x] : Spends (onStrings x).run := by
  unfold onStrings
  infer_instance

instance (x : StateM Store α) : Spends (onStore x).run := by
  unfold onStore
  infer_instance

instance (x : StateM Console α) : Spends (onConsole x).run := ⟨fun _ => le_rfl⟩

instance (e : RuntimeError) : Spends (fail e : Action α).run := by
  unfold fail
  infer_instance

theorem spends_transferred (r : Except Failure α) :
    Spends (match r with
      | .ok a => return a
      | .error failure => fail (.inputOutput failure) : Action α).run := by
  cases r <;> infer_instance

instance (x : ExceptT Failure (StateM Console) α) : Spends (transfer x).run := by
  have transferred := @spends_transferred α
  unfold transfer
  infer_instance

instance (r : Except Panic α) : Spends (ofPanic r).run := by
  cases r <;> unfold ofPanic <;> infer_instance

instance (v : Value) : Spends (toBool v).run := by
  unfold toBool
  infer_instance

instance (v : Value) : Spends (toInt v).run := by
  unfold toInt
  infer_instance

instance (v : Value) : Spends (toStr v).run := by
  unfold toStr
  infer_instance

instance (text : String) : Spends (string text).run := by
  unfold string
  infer_instance

instance (attempt : Attempt) (v : Value) : Spends (unsupported attempt v : Action α).run := by
  unfold unsupported
  infer_instance

instance (left right : Value) : Spends (add left right).run := by
  unfold add
  split <;> infer_instance

instance (left right : Value) : Spends (sub left right).run := by
  unfold sub
  split <;> infer_instance

instance (left right : Value) : Spends (mul left right).run := by
  unfold mul
  split <;> infer_instance

instance (left right : Value) : Spends (div left right).run := by
  unfold div
  split <;> infer_instance

instance (left right : Value) : Spends (mod left right).run := by
  unfold mod
  split <;> infer_instance

instance (left right : Value) : Spends (less left right).run := by
  unfold less
  split <;> infer_instance

instance (left right : Value) : Spends (greater left right).run := by
  unfold greater
  split <;> infer_instance

theorem spends_powered (r : Except RuntimeError Int64) :
    Spends (match r with
      | .ok n => return .int n
      | .error e => fail e : Action Value).run := by
  cases r <;> infer_instance

instance (left right : Value) : Spends (exp left right).run := by
  have powered := spends_powered
  unfold exp
  split <;> infer_instance

instance (op : BinaryOp) (left right : Value) : Spends (binary op left right).run := by
  cases op <;> simp only [binary] <;> infer_instance

instance (start count : Int64) (length : Nat) : Spends (range start count length).run := by
  unfold range
  split <;> infer_instance

theorem spends_sliced (start stop length : Nat) (r : Option Str) :
    Spends (match r with
      | some part => return part
      | none => fail (.outOfBounds (.ofNat start) (.ofNat (stop - start)) length) :
        Action Str).run := by
  cases r <;> infer_instance

instance (s : Str) (start stop : Nat) : Spends (slice s start stop).run := by
  have sliced := spends_sliced start stop s.length
  unfold slice
  infer_instance

instance (str start count : Value) : Spends (get str start count).run := by
  unfold get
  infer_instance

instance (s : Str) (first last : Nat) : Spends (delete s first last).run := by
  unfold delete
  infer_instance

instance (s : Str) (first last : Nat) (replacement : Str) :
    Spends (replace s first last replacement).run := by
  unfold replace
  infer_instance

instance (str start count replacement : Value) :
    Spends (substitute str start count replacement).run := by
  unfold substitute
  infer_instance

instance (v : Value) : Spends (ascii v).run := by
  unfold ascii
  split
  · infer_instance
  · split <;> infer_instance
  · infer_instance

instance (text : String) : Spends (write text).run := by
  unfold write
  infer_instance

instance : Spends flush.run := by
  unfold flush
  infer_instance

instance (text : String) : Spends (display text).run := by
  unfold display
  infer_instance

instance (v : Value) : Spends (output v).run := by
  unfold output
  infer_instance

theorem spends_answered (r : Option String) :
    Spends (match r with
      | none => return .null
      | some line => string line : Action Value).run := by
  cases r <;> infer_instance

instance : Spends prompt.run := by
  have answered := spends_answered
  unfold prompt
  infer_instance

instance (around : Surroundings) : Spends (random around).run := by
  unfold random
  infer_instance

theorem spends_ended (command : String) (r : Process.Ending × List UInt8) :
    Spends (match r with
      | (ending, printed) =>
        if ending = .exited 0 then string (Text.decodeLossy printed)
        else fail (.commandFailed command ending) : Action Value).run := by
  infer_instance

theorem spends_commanded (around : Surroundings) (command : String) (r : Option CommandFault) :
    Spends (match r with
      | some fault => fail (.commandNotStarted command fault)
      | none => do
        let (ending, printed) ← onConsole (Console.runCommand fun n => around.command n command)
        if ending = .exited 0 then string (Text.decodeLossy printed)
        else fail (.commandFailed command ending) : Action Value).run := by
  have ended := spends_ended command
  cases r <;> infer_instance

instance (around : Surroundings) (v : Value) : Spends (system around v).run := by
  have commanded := spends_commanded around
  unfold system
  infer_instance

instance (around : Surroundings) (op : UnaryOp) (v : Value) : Spends (unary around op v).run := by
  cases op <;> unfold unary <;> infer_instance

theorem spends_parsed (source : Str) (r : Except CompileError Program) :
    Spends (match r with
      | .error e => fail (.ofCompileError e)
      | .ok program => do
        onStore (Store.insertProgram source program)
        return program : Action Program).run := by
  cases r <;> infer_instance

theorem spends_found (source : Str) (r : Option Program) :
    Spends (match r with
      | some program => return program
      | none => do
        match ← onWorkspace (Program.parse source.text) with
        | .error e => fail (.ofCompileError e)
        | .ok program =>
          onStore (Store.insertProgram source program)
          return program : Action Program).run := by
  have parsed := spends_parsed source
  cases r <;> infer_instance

instance (source : Str) : Spends (sourceProgram source).run := by
  have found := spends_found source
  unfold sourceProgram
  infer_instance

end Action

def Step.state : Step → State
  | .next c => c.state
  | .halt _ s => s

namespace Machine

variable {s : State}

def Advances (s : State) (step : Step) : Prop :=
  (supply s).nextTag.toNat ≤ (supply step.state).nextTag.toNat

theorem after_advances (action : Action α) [h : Spends action.run] {go : α → State → Step}
    (hgo : ∀ a t, Advances t (go a t)) : Advances s (after action s go) := by
  have hs := h.le s
  change (supply s).nextTag.toNat ≤ (supply (action s).2).nextTag.toNat at hs
  unfold after
  split
  · rename_i a t ht
    rw [ht] at hs
    exact hs.trans (hgo a t)
  · rename_i stop t ht
    rw [ht] at hs
    exact hs

theorem withArgument_advances {args : List Node} {i : Nat} {go : Node → Step}
    (hgo : ∀ n, Advances s (go n)) : Advances s (withArgument args i s go) := by
  unfold withArgument
  split
  · exact hgo _
  · exact le_rfl

theorem force_advances (v : Value) (frames : List Frame) : Advances s (force v frames s) := by
  cases v <;> exact le_rfl

theorem apply_advances (builtin : Builtin) (args : List Value) (frames : List Frame) :
    Advances s (apply builtin args frames s) := by
  unfold apply
  split
  case h_2 => exact force_advances _ frames
  case h_10 => exact le_rfl
  all_goals exact after_advances _ fun _ _ => le_rfl

theorem call_advances (around : Surroundings) (builtin : Builtin) (args : List Node)
    (frames : List Frame) : Advances s (call around builtin args frames s) := by
  unfold call
  split
  case h_2 => exact withArgument_advances fun n => after_advances _ fun _ _ => le_rfl
  case h_3 | h_4 => exact after_advances _ fun _ _ => le_rfl
  all_goals exact withArgument_advances fun n => le_rfl

theorem enter_advances (around : Surroundings) (n : Node) (frames : List Frame) :
    Advances s (enter around n frames s) := by
  unfold enter
  split
  case h_2 =>
    refine after_advances _ fun value t => ?_
    cases value with
    | some value => exact force_advances value frames
    | none => exact le_rfl
  case h_7 => split <;> exact le_rfl
  case h_9 => exact call_advances around _ _ frames
  all_goals exact le_rfl

theorem resume_advances (around : Surroundings) (v : Value) (frame : Frame)
    (frames : List Frame) : Advances s (resume around v frame frames s) := by
  cases frame with
  | unary op => exact after_advances _ fun _ _ => le_rfl
  | left op right => exact le_rfl
  | right op left => exact after_advances _ fun _ _ => le_rfl
  | chain next => exact le_rfl
  | and right => exact after_advances _ fun b _ => by cases b <;> exact le_rfl
  | or right => exact after_advances _ fun b _ => by cases b <;> exact le_rfl
  | assign target =>
    simp only [resume]
    exact after_advances _ fun _ _ => le_rfl
  | branch args => exact after_advances _ fun b _ => withArgument_advances fun n => le_rfl
  | loopTest args =>
    refine after_advances _ fun b _ => ?_
    cases b
    · exact le_rfl
    · exact withArgument_advances fun n => le_rfl
  | loopBody args => exact withArgument_advances fun n => le_rfl
  | argument builtin args done =>
    simp only [resume]
    split
    · exact withArgument_advances fun n => le_rfl
    · exact apply_advances builtin _ frames

theorem step_advances (around : Surroundings) (c : Config) : Advances c.state (step around c) := by
  obtain ⟨control, frames, s⟩ := c
  cases control with
  | node n => exact enter_advances around n frames
  | value v =>
    cases frames with
    | nil => exact le_rfl
    | cons frame frames => exact resume_advances around v frame frames

end Machine

end

end KnightLang
