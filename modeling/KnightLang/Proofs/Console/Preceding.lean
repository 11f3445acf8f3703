import KnightLang.Proofs.Console.Turns

namespace KnightLang

structure State.Unseen (f : State → State) : Prop where
  strings {γ : Type} (x : StateM Interner γ) : (Action.onStrings x).Commutes f
  does {e : Effect} {γ : Type} {x : Action γ} : Action.Does e x → x.Commutes f

def Step.map (f : State → State) : Step → Step
  | .next c => .next ⟨c.control, c.frames, f c.state⟩
  | .halt result s => .halt result (f s)

namespace State.Unseen

variable {f : State → State} (h : Unseen f)
include h

theorem commutes {α : Type} {K : Set Effect} {x : Action α} (hx : x.Uses K) : x.Commutes f := by
  apply hx.commutes h.strings
  intro e _ γ y hy
  exact h.does hy

theorem step (around : Surroundings) (control : Control) (frames : List Frame) (s : State) :
    Machine.step around ⟨control, frames, f s⟩ =
      (Machine.step around ⟨control, frames, s⟩).map f := by
  obtain ⟨m, hm, hs⟩ := Machine.exists_step_eq_perform around control frames
  have hcommutes := h.commutes hm.uses s
  rw [hs, hs]
  unfold Machine.perform
  rcases hr : m.run s with ⟨stop | move, t⟩
  · rw [hr] at hcommutes
    rw [Machine.after_of_error hr, Machine.after_of_error hcommutes]
    rfl
  · rw [hr] at hcommutes
    rw [Machine.after_of_ok hr, Machine.after_of_ok hcommutes]
    cases move <;> rfl

theorem advance (around : Surroundings) (fuel : Nat) (control : Control) (frames : List Frame)
    (s : State) : Machine.advance around fuel ⟨control, frames, f s⟩ =
      ((Machine.advance around fuel ⟨control, frames, s⟩).1,
        f (Machine.advance around fuel ⟨control, frames, s⟩).2) := by
  induction fuel generalizing control frames s with
  | zero => rfl
  | succ fuel ih =>
    simp only [Machine.advance]
    rw [h.step]
    cases Machine.step around ⟨control, frames, s⟩ with
    | next c => exact ih c.control c.frames c.state
    | halt result t => rfl

theorem warmed (s : State) : (f s).warmed = f s.warmed := by
  have hwarm := h.strings Cache.warm s
  exact congrArg Prod.snd hwarm

theorem conclude (result : Except Stop Value) (s : State) :
    Program.conclude result (f s) =
      ((Program.conclude result s).1, f (Program.conclude result s).2) := by
  have hflush : Action.flush (f s) = ((Action.flush s).1, f (Action.flush s).2) := h.does .flush s
  have hflushed : Program.flushed result (f s) =
      ((Program.flushed result s).1, f (Program.flushed result s).2) := by
    unfold Program.flushed
    rw [hflush]
    rcases Action.flush s with ⟨stop | _, t⟩ <;> rfl
  rcases result with stop | v
  · cases stop with
    | error e => exact hflushed
    | panic p => rfl
  · exact hflushed

theorem execute (around : Surroundings) (fuel : Nat) (p : Program) (s : State) :
    p.execute around fuel (f s) = (p.execute around fuel s).map fun r => (r.1, f r.2) := by
  have hadvance : p.advance around fuel (f s) = _ :=
    (congrArg (fun t => Machine.advance around fuel ⟨.node p.root, [], t⟩) (h.warmed s)).trans
      (h.advance around fuel _ _ _)
  rw [Program.execute_eq, Program.execute_eq, hadvance, Option.map_map]
  congr 1
  funext r
  exact h.conclude r _

end State.Unseen

def Event.preceded (n : Nat) : Event → Event
  | .flushed k => .flushed (n + k)
  | .lineRead k => .lineRead (n + k)
  | .commandStarted k => .commandStarted (n + k)

namespace Output

def preceded (bytes : ByteArray) (o : Output) : Output :=
  { o with written := bytes ++ o.written, capacity := o.capacity.map (bytes.size + ·) }

theorem write_preceded (bytes data : ByteArray) (o : Output) : (o.preceded bytes).write data =
    ((o.write data).1, (o.write data).2.preceded bytes) := by
  obtain ⟨written, capacity, failing, flushes⟩ := o
  cases capacity with
  | none => simp [preceded, write, ByteArray.append_assoc]
  | some capacity =>
    have hroom : bytes.size + capacity - (bytes ++ written).size = capacity - written.size := by
      rw [ByteArray.size_append]
      omega
    simp only [preceded, write, Option.map_some, hroom]
    by_cases hfits : data.size ≤ capacity - written.size
    · simp only [if_pos hfits, ByteArray.append_assoc, Option.map_some]
    · simp only [if_neg hfits, ByteArray.append_assoc, Option.map_some]

end Output

namespace Console

variable (bytes : ByteArray) (earlier : List Event)

def preceded (c : Console) : Console :=
  { c with
    output := c.output.preceded bytes
    events := c.events.map (Event.preceded bytes.size) ++ earlier }

theorem write_preceded (text : String) (c : Console) : (write text).run (c.preceded bytes earlier) =
    (((write text).run c).1, ((write text).run c).2.preceded bytes earlier) := by
  have ho : (c.preceded bytes earlier).output.write text.toByteArray = _ :=
    c.output.write_preceded bytes text.toByteArray
  rw [write_eq, write_eq, ho]
  rfl

theorem flush_preceded (c : Console) : flush.run (c.preceded bytes earlier) =
    ((flush.run c).1, (flush.run c).2.preceded bytes earlier) := by
  have hfails : (c.preceded bytes earlier).output.failingFlush.fails
      ((c.preceded bytes earlier).output.flushes + 1) =
        c.output.failingFlush.fails (c.output.flushes + 1) := rfl
  have hsize : (c.preceded bytes earlier).output.written.size =
      bytes.size + c.output.written.size := ByteArray.size_append
  rw [flush_eq, flush_eq, hfails, hsize]
  by_cases hf : c.output.failingFlush.fails (c.output.flushes + 1) = true
  · rw [if_pos hf, if_pos hf]
    rfl
  · rw [if_neg hf, if_neg hf]
    rfl

theorem readLine_preceded (c : Console) : readLine.run (c.preceded bytes earlier) =
    ((readLine.run c).1, (readLine.run c).2.preceded bytes earlier) := by
  have hsize : (c.preceded bytes earlier).output.written.size =
      bytes.size + c.output.written.size := ByteArray.size_append
  simp only [readLine, ExceptT.run, hsize]
  rfl

theorem runCommand_preceded {α : Type} (f : Nat → Files.Tree → α × Files.Tree) (c : Console) :
    runCommand f (c.preceded bytes earlier) =
      ((runCommand f c).1, (runCommand f c).2.preceded bytes earlier) := by
  have hsize : (c.preceded bytes earlier).output.written.size =
      bytes.size + c.output.written.size := ByteArray.size_append
  simp only [runCommand, hsize]
  rfl

end Console

namespace State

variable (bytes : ByteArray) (earlier : List Event)

def preceded (s : State) : State := ⟨s.workspace, s.console.preceded bytes earlier⟩

theorem unseen_preceded : Unseen (preceded bytes earlier) where
  strings _ _ := rfl
  does {e γ x} hx := by
    have transferred {α : Type} {y : ExceptT Failure (StateM Console) α}
        (hy : ∀ c, y.run (c.preceded bytes earlier) =
          ((y.run c).1, (y.run c).2.preceded bytes earlier)) :
        (Action.transfer y).Commutes (preceded bytes earlier) :=
      Action.commutes_transfer id hy
    have hflush := transferred (Console.flush_preceded bytes earlier)
    cases hx with
    | store x => exact fun _ => rfl
    | write text => exact transferred (Console.write_preceded bytes earlier text)
    | flush => exact hflush
    | read => exact hflush.bind fun _ => transferred (Console.readLine_preceded bytes earlier)
    | draw => exact fun _ => rfl
    | command f =>
      apply hflush.bind
      intro _ s
      have hrun := Console.runCommand_preceded bytes earlier f s.console
      simp only [Action.onConsole, ExceptT.run, preceded, hrun]
      rfl

end State

end KnightLang
