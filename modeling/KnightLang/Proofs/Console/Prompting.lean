import KnightLang.Proofs.Console.Flushing
import KnightLang.Proofs.Console.Lines
import KnightLang.Proofs.Console.Sparing
import KnightLang.Proofs.Execution.Reuse

namespace KnightLang

inductive Answers (line? : Option (List UInt8)) : Except Stop Value → Prop
  | text {a : Str} (h : Reads line? (.ok (some a.text))) : Answers line? (.ok (.str a))
  | null (h : Reads line? (.ok none)) : Answers line? (.ok .null)
  | failed {failure : Failure} (h : Reads line? (.error failure)) :
      Answers line? (.error (.error (.inputOutput failure)))

namespace Config

def prompts (c : Config) : Bool :=
  match c.control with
  | .node (.call _ _ .prompt _) =>
    !c.state.console.output.failingFlush.fails (c.state.console.output.flushes + 1)
  | _ => false

end Config

theorem Node.exists_call {n : Node} {builtin : Builtin} (h : n.builtin? = some builtin) :
    ∃ id word args, n = .call id word builtin args := by
  unfold Node.builtin? at h
  split at h
  · obtain rfl := Option.some.inj h
    exact ⟨_, _, _, rfl⟩
  · cases h

def Step.result? : Step → Option (Except Stop Value)
  | .next ⟨.value v, _, _⟩ => some (.ok v)
  | .next _ => none
  | .halt result _ => some result

namespace Machine

/-- What each `PROMPT` that can flush is answered with, in so many steps. -/
def replies (around : Surroundings) : Nat → Config → List (Except Stop Value)
  | 0, _ => []
  | fuel + 1, c =>
    (if c.prompts then (step around c).result?.toList else []) ++
      match step around c with
      | .next e => replies around fuel e
      | .halt _ _ => []

end Machine

namespace Action

variable {s : State}

theorem run_flush_of_not_fails
    (h : s.console.output.failingFlush.fails (s.console.output.flushes + 1) = false) :
    ∃ c, flush.run s = (.ok (), ⟨s.workspace, c⟩) ∧ c.input = s.console.input := by
  have hf : flush.run s = _ := run_transfer Console.flush s
  rw [Console.flush_eq, if_neg (by simp [h])] at hf
  exact ⟨_, hf, rfl⟩

theorem run_string (text : String) {E : Set Str} {ws : Workspace} (h : ws.strings.Sound E)
    (c : Console) : ∃ a ws', (string text).run ⟨ws, c⟩ = (.ok (.str a), ⟨ws', c⟩) ∧ a.text = text :=
  ⟨_, _, rfl, h.text_string text⟩

theorem run_prompt {E : Set Str} (hs : s.workspace.strings.Sound E)
    (hi : s.console.input.failure = none)
    (h : s.console.output.failingFlush.fails (s.console.output.flushes + 1) = false) :
    ∃ reply t, prompt.run s = (reply, t) ∧ s.console.input.Yields Answers [reply] t.console.input := by
  obtain ⟨c, hflush, hinput⟩ := run_flush_of_not_fails h
  obtain ⟨r, d, hread, hr, hleft, hfailure⟩ := Console.readLine_reads (hinput ▸ hi)
  rw [hinput] at hr hleft
  have htransfer := run_transfer Console.readLine ⟨s.workspace, c⟩
  simp only [hread] at htransfer
  have yields {reply : Except Stop Value}
      (ha : Answers (Input.lines s.console.input.content).head? reply) :
      s.console.input.Yields Answers [reply] d.input := .one ha hleft hfailure
  unfold prompt
  rw [run_bind_of_ok hflush]
  rcases r with failure | _ | text
  · exact ⟨_, _, run_bind_of_error htransfer, yields (.failed hr)⟩
  · exact ⟨_, _, run_bind_of_ok htransfer, yields (.null hr)⟩
  · obtain ⟨a, ws, ha, htext⟩ := run_string text hs d
    rw [← htext] at hr
    exact ⟨_, _, (run_bind_of_ok htransfer).trans ha, yields (.text hr)⟩

end Action

namespace Machine

variable {around : Surroundings} {c e : Config}

theorem step_prompt (around : Surroundings) (h : c.Hosted) (hp : c.prompts = true)
    (hi : c.state.console.input.failure = none) : ∃ reply, (step around c).result? = some reply ∧
      c.state.console.input.Yields Answers [reply] (step around c).state.console.input := by
  obtain ⟨caches, k, w, h⟩ := h
  obtain ⟨E, -, hs, -⟩ := h.state.sound
  obtain ⟨control, frames, s⟩ := c
  unfold Config.prompts at hp
  split at hp
  · rename_i id word args hc
    obtain rfl := hc
    obtain ⟨reply, t, hrun, hyields⟩ := Action.run_prompt hs hi (by simpa using hp)
    have hstep : step around ⟨.node (.call id word .prompt args), frames, s⟩ =
      after Action.prompt s (give · frames) := rfl
    rw [hstep]
    cases reply with
    | ok v =>
      rw [after_of_ok hrun]
      exact ⟨.ok v, rfl, hyields⟩
    | error stop =>
      rw [after_of_error hrun]
      exact ⟨.error stop, rfl, hyields⟩
  · cases hp

theorem input_enter (around : Surroundings) {n : Node} (hn : n.builtin? ≠ some .prompt)
    (frames : List Frame) (s : State) :
    (enter around n frames s).state.console.input = s.console.input := by
  apply ((uses_enter around n frames).leads s).input
  intro hread
  obtain ⟨builtin, hb, he⟩ := Node.exists_builtin hread (.inl rfl)
  obtain rfl := Builtin.eq_prompt_of_read he
  exact hn hb

theorem input_resume (around : Surroundings) (v : Value) (frame : Frame) (frames : List Frame)
    (s : State) : (resume around v frame frames s).state.console.input = s.console.input := by
  by_cases hread : .read ∈ frame.effects
  · cases frame with
    | argument builtin args done =>
      obtain rfl := Builtin.eq_prompt_of_read hread
      have harity : ¬ (done ++ [v]).length < Builtin.prompt.arity := Nat.not_lt_zero _
      rw [resume, if_neg harity]
      rfl
    | unary op => cases op <;> simp [Frame.effects, UnaryOp.effects] at hread
    | assign target => cases hread
    | _ => exact hread.elim
  · exact ((uses_resume around v frame frames).leads s).input hread

theorem input_step (around : Surroundings) (hp : c.prompts = false) :
    (step around c).state.console.input = c.state.console.input := by
  obtain ⟨control, frames, s⟩ := c
  cases control with
  | node n =>
    by_cases hn : n.builtin? = some .prompt
    · obtain ⟨id, word, args, rfl⟩ := Node.exists_call hn
      let now : Config := ⟨.node (.call id word .prompt args), frames, s⟩
      have hfails : s.console.output.failingFlush.fails (s.console.output.flushes + 1) = true := by
        simpa [Config.prompts] using hp
      have hawaits : now.Awaits := .prompt rfl
      obtain ⟨ws, hstep⟩ := step_of_flush_fails around hawaits hfails
      rw [hstep]
      rfl
    · exact input_enter around hn frames s
  | value v =>
    cases frames with
    | nil => rfl
    | cons frame frames => exact input_resume around v frame frames s

theorem yields_step (around : Surroundings) (h : c.Hosted) (hi : c.state.console.input.failure = none) :
    c.state.console.input.Yields Answers (if c.prompts then (step around c).result?.toList else [])
      (step around c).state.console.input := by
  by_cases hp : c.prompts = true
  · obtain ⟨reply, hreply, hyields⟩ := step_prompt around h hp hi
    rw [if_pos hp, hreply]
    exact hyields
  · rw [if_neg hp, input_step around (Bool.not_eq_true _ ▸ hp)]
    exact .refl hi

theorem input_advance (around : Surroundings) (fuel : Nat) {c : Config} (h : c.Hosted)
    (hi : c.state.console.input.failure = none) (hnone : replies around fuel c = []) :
    (advance around fuel c).2.console.input = c.state.console.input := by
  induction fuel generalizing c with
  | zero => rfl
  | succ fuel ih =>
    unfold replies at hnone
    obtain ⟨hfirst, hrest⟩ := List.append_eq_nil_iff.1 hnone
    have hprompts : c.prompts = false := by
      apply Bool.eq_false_iff.2
      intro hp
      obtain ⟨reply, hreply, -⟩ := step_prompt around h hp hi
      rw [if_pos hp, hreply] at hfirst
      cases hfirst
    have hinput := input_step around hprompts
    unfold advance
    cases hs : step around c with
    | next e =>
      rw [hs] at hinput hrest
      have hi' : e.state.console.input.failure = none := by
        have he : e.state.console.input = c.state.console.input := hinput
        rwa [he]
      exact (ih (hosted_step h hs) hi' hrest).trans hinput
    | halt result s =>
      rw [hs] at hinput
      exact hinput

theorem yields_advance (around : Surroundings) (fuel : Nat) {c : Config} (h : c.Hosted)
    (hi : c.state.console.input.failure = none) :
    c.state.console.input.Yields Answers (replies around fuel c)
      (advance around fuel c).2.console.input := by
  induction fuel generalizing c with
  | zero => exact .refl hi
  | succ fuel ih =>
    have hfirst := yields_step around h hi
    unfold replies advance
    cases hs : step around c with
    | next e =>
      rw [hs] at hfirst
      exact hfirst.trans (ih (hosted_step h hs) hfirst.failure)
    | halt result s =>
      rw [hs] at hfirst
      exact hfirst.trans (.refl hfirst.failure)

end Machine

namespace Program

def consoleAfter (around : Surroundings) (fuel : Nat) (q : Program) (s : State) : Console :=
  match q.advance around fuel s with
  | (none, t) => t.console
  | (some result, t) => (conclude result t).2.console

theorem consoleAfter_eq_of_execute {around : Surroundings} {fuel : Nat} {q : Program} {s t : State}
    {result : Except Stop Value} (h : q.execute around fuel s = some (result, t)) :
    q.consoleAfter around fuel s = t.console := by
  rw [execute_eq] at h
  obtain ⟨r, hr, hc⟩ := Option.map_eq_some_iff.1 h
  unfold consoleAfter
  generalize q.advance around fuel s = x at hr hc ⊢
  obtain ⟨x, u⟩ := x
  obtain rfl := hr
  simp only [hc]

theorem input_consoleAfter (around : Surroundings) (fuel : Nat) (q : Program) (s : State) :
    (q.consoleAfter around fuel s).input = (q.advance around fuel s).2.console.input := by
  unfold consoleAfter
  split
  · rename_i t ht
    rw [ht]
  · rename_i result t ht
    rw [ht, input_conclude]

theorem yields_consoleAfter (around : Surroundings) (fuel : Nat) {q : Program} {s : State}
    (h : (q.opening s).Hosted) (hi : s.console.input.failure = none) :
    s.console.input.Yields Answers (Machine.replies around fuel (q.opening s))
      (q.consoleAfter around fuel s).input := by
  rw [input_consoleAfter]
  exact Machine.yields_advance around fuel h hi

end Program

/-- One interpreter in a process: its console, and what the `PROMPT`s that could flush were answered with,
the first one first. -/
structure Dialogue where
  past : Past := {}
  console : Console
  replies : List (Except Stop Value) := []

inductive Turn
  | deed (deed : Deed)
  | execute (program : Nat) (around : Surroundings) (fuel : Nat)

namespace Dialogue

def step (d : Dialogue) : Turn → Dialogue
  | .deed deed => { d with past := deed.step d.past }
  | .execute n around fuel =>
    match d.past.program? n with
    | none => d
    | some (_, store, q) =>
      let s : State := ⟨d.past.share.workspace store, d.console⟩
      { past := (Deed.execute n around d.console fuel).step d.past
        console := q.consoleAfter around fuel s
        replies := d.replies ++ Machine.replies around fuel (q.opening s) }

def run (console : Console) (turns : List Turn) : Dialogue := turns.foldl step { console }

structure Follows (d : Dialogue) (i : Input) : Prop where
  past : ∃ E, d.past.Sound E
  yields : i.Yields Answers d.replies d.console.input

theorem Follows.step {d : Dialogue} {i : Input} (h : d.Follows i) (turn : Turn) :
    (d.step turn).Follows i := by
  obtain ⟨⟨E, hE⟩, hyields⟩ := h
  cases turn with
  | deed deed => exact ⟨hE.step deed, hyields⟩
  | execute n around fuel =>
    simp only [Dialogue.step]
    split
    · exact ⟨⟨E, hE⟩, hyields⟩
    · rename_i k store q hn
      have hopening := Past.hosted_opening hE hn d.console
      have hrun := Program.yields_consoleAfter around fuel hopening hyields.failure
      exact ⟨hE.step (.execute n around d.console fuel), hyields.trans hrun⟩

theorem Follows.foldl {d : Dialogue} {i : Input} (h : d.Follows i) (turns : List Turn) :
    (turns.foldl Dialogue.step d).Follows i := by
  induction turns generalizing d with
  | nil => exact h
  | cons turn turns ih => exact ih (h.step turn)

/-- Each `PROMPT` that can flush is answered with the next line, in whatever programs they are and
whatever else happens; when there are no more lines, with null; and at any time just the lines of these
answers are used. -/
theorem prompts_take_the_lines_in_order (console : Console) (ahead : List UInt8)
    (pieces : List (List UInt8)) (turns : List Turn) :
    let d := run { console with input := ⟨ahead, pieces, none⟩ } turns
    let lines := Input.lines (ahead ++ pieces.flatten)
    (∀ (k : Nat) (reply : Except Stop Value), d.replies[k]? = some reply → Answers lines[k]? reply) ∧
      Input.lines d.console.input.content = lines.drop d.replies.length := by
  intro d lines
  have hstart : Follows { console := { console with input := ⟨ahead, pieces, none⟩ } }
      ⟨ahead, pieces, none⟩ := ⟨⟨∅, Past.sound_empty⟩, .refl rfl⟩
  have hd := (hstart.foldl turns).yields
  exact ⟨fun k reply => hd.fits, hd.left⟩

end Dialogue

end KnightLang
