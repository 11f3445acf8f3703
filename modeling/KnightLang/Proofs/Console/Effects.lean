import KnightLang.Proofs.Execution.Keeping
import Mathlib.Data.Set.Basic
import Mathlib.Logic.Relation

/-!
What actions do, as a list of effects. Main statements: each action of the machine is put together from
single steps with a few effects; what all of these commute with, so does the action; and they alone
change the console.
-/
namespace KnightLang

namespace Console

section

variable (c : Console)

theorem write_eq (text : String) : (write text).run c =
    (if (c.output.write text.toByteArray).1 then .ok () else .error .sinkFull,
      { c with output := (c.output.write text.toByteArray).2 }) := rfl

theorem flush_eq : flush.run c =
    if c.output.failingFlush.fails (c.output.flushes + 1) then
      (.error .flushFailed, { c with output := c.output.flush.2 })
    else
      (.ok (), { c with
        output := c.output.flush.2
        events := .flushed c.output.written.size :: c.events }) := by
  obtain ⟨input, output, events, draws, commands, files⟩ := c
  by_cases hf : output.failingFlush.fails (output.flushes + 1) = true
  · simp [flush, ExceptT.run, Output.flush, hf]
  · simp [flush, ExceptT.run, Output.flush, hf]

theorem readLine_eq : ∃ line, readLine.run c =
    (line, { c with
      input := c.input.readLine.2
      events := .lineRead c.output.written.size :: c.events }) := ⟨_, rfl⟩

end

end Console

inductive Effect
  | store | write | flush | read | draw | command

namespace Action

variable {α β : Type}

/-- Single steps with an effect. A line is read, or a command started, right after a flush. -/
inductive Does : Effect → {α : Type} → Action α → Prop
  | store {α : Type} (x : StateM Workspace α) : Does .store (onWorkspace x)
  | write (text : String) : Does .write (write text)
  | flush : Does .flush flush
  | read : Does .read (flush >>= fun _ => transfer Console.readLine)
  | draw : Does .draw (onConsole Console.startDraw)
  | command {α : Type} (f : Nat → Files.Tree → α × Files.Tree) :
      Does .command (flush >>= fun _ => onConsole (Console.runCommand f))

/-- Put together from steps with these effects, and from the use of strings, which does not count. -/
inductive Uses (K : Set Effect) : {α : Type} → Action α → Prop
  | pure {α : Type} (a : α) : Uses K (pure a)
  | throw {α : Type} (stop : Stop) : Uses K (throw stop : Action α)
  | bind {α β : Type} {x : Action α} {f : α → Action β} (h : Uses K x) (hf : ∀ a, Uses K (f a)) :
      Uses K (x >>= f)
  | strings {α : Type} (x : StateM Interner α) : Uses K (onStrings x)
  | does {e : Effect} {α : Type} {x : Action α} (he : e ∈ K) (h : Does e x) : Uses K x

namespace Uses

variable {K L : Set Effect} {x : Action α}

theorem mono (hK : K ⊆ L) (h : x.Uses K) : x.Uses L := by
  induction h with
  | pure a => exact .pure a
  | throw stop => exact .throw stop
  | bind _ _ ih ihf => exact .bind ih ihf
  | strings x => exact .strings x
  | does he h => exact .does (hK he) h

theorem ite {c : Prop} [Decidable c] {y : Action α} (h : x.Uses K) (h' : y.Uses K) :
    (if c then x else y).Uses K := by
  split
  · exact h
  · exact h'

theorem fail (e : RuntimeError) : (Action.fail e : Action α).Uses K := .throw _

theorem ofPanic (r : Except Panic α) : (Action.ofPanic r).Uses K := by
  cases r with
  | ok a => exact .pure a
  | error p => exact .throw _

theorem toBool (v : Value) : (Action.toBool v).Uses K := ofPanic _

theorem toInt (v : Value) : (Action.toInt v).Uses K := ofPanic _

theorem toStr (v : Value) : (Action.toStr v).Uses K := .bind (.strings _) ofPanic

theorem string (text : String) : (Action.string text).Uses K := .bind (.strings _) fun _ => .pure _

theorem unsupported (attempt : Attempt) (v : Value) :
    (Action.unsupported attempt v : Action α).Uses K := fail _

section

variable (l r : Value)

theorem add : (Action.add l r).Uses K := by
  unfold Action.add
  cases l with
  | int a => exact (toInt r).bind fun _ => .ite (.pure _) (.pure _)
  | str a =>
    refine (toStr r).bind fun b => .ite (.pure _) (.ite (.pure _) ?_)
    exact .bind (.strings _) fun _ => .pure _
  | _ => exact unsupported _ _

theorem sub : (Action.sub l r).Uses K := by
  unfold Action.sub
  cases l with
  | int a => exact (toInt r).bind fun _ => .pure _
  | _ => exact unsupported _ _

theorem mul : (Action.mul l r).Uses K := by
  unfold Action.mul
  cases l with
  | int a => exact (toInt r).bind fun _ => .pure _
  | str a =>
    refine (toInt r).bind fun count => .ite (fail _) ?_
    exact .ite (fail _) (.ite (.throw _) (string _))
  | _ => exact unsupported _ _

theorem div : (Action.div l r).Uses K := by
  unfold Action.div
  cases l with
  | int a => exact (toInt r).bind fun _ => .ite (fail _) (.pure _)
  | _ => exact unsupported _ _

theorem mod : (Action.mod l r).Uses K := by
  unfold Action.mod
  cases l with
  | int a => exact (toInt r).bind fun _ => .ite (fail _) (.pure _)
  | _ => exact unsupported _ _

theorem exp : (Action.exp l r).Uses K := by
  unfold Action.exp
  cases l with
  | int a =>
    refine (toInt r).bind fun b => ?_
    cases power? a b with
    | ok n => exact .pure _
    | error e => exact fail e
  | _ => exact unsupported _ _

theorem less : (Action.less l r).Uses K := by
  unfold Action.less
  cases l with
  | bool a => exact (toBool r).bind fun _ => .pure _
  | int a => exact (toInt r).bind fun _ => .pure _
  | str a => exact (toStr r).bind fun _ => .pure _
  | _ => exact unsupported _ _

theorem greater : (Action.greater l r).Uses K := by
  unfold Action.greater
  cases l with
  | bool a => exact (toBool r).bind fun _ => .pure _
  | int a => exact (toInt r).bind fun _ => .pure _
  | str a => exact (toStr r).bind fun _ => .pure _
  | _ => exact unsupported _ _

theorem binary (op : BinaryOp) : (Action.binary op l r).Uses K := by
  cases op with
  | add => exact add l r
  | sub => exact sub l r
  | mul => exact mul l r
  | div => exact div l r
  | mod => exact mod l r
  | exp => exact exp l r
  | less => exact less l r
  | greater => exact greater l r
  | equal => exact .pure _
  | _ => exact fail _

end

theorem range (start count : Int64) (length : Nat) : (Action.range start count length).Uses K := by
  unfold Action.range
  cases byteRange start count length with
  | ok ends => exact .pure _
  | error e => exact fail e

theorem slice (s : Str) (start stop : Nat) : (Action.slice s start stop).Uses K := by
  unfold Action.slice
  refine .bind (.strings _) fun part => ?_
  cases part with
  | some part => exact .pure _
  | none => exact fail _

theorem get (string start count : Value) : (Action.get string start count).Uses K := by
  unfold Action.get
  refine (toStr string).bind fun s => (toInt start).bind fun start => (toInt count).bind fun count => ?_
  refine (range start count s.length).bind fun ends => .ite ?_ (.ite (.pure _) ?_)
  · exact .bind (.strings _) fun _ => .pure _
  · exact (slice s _ _).bind fun _ => .pure _

theorem delete (s : Str) (first last : Nat) : (Action.delete s first last).Uses K := by
  unfold Action.delete
  refine .ite (.ite (.strings _) (slice _ _ _)) (.ite (.pure _) (.ite (slice _ _ _) ?_))
  exact (slice _ _ _).bind fun _ => (slice _ _ _).bind fun _ => .strings _

theorem replace (s : Str) (first last : Nat) (replacement : Str) :
    (Action.replace s first last replacement).Uses K := by
  unfold Action.replace
  refine (slice s 0 first).bind fun head => .bind (.strings _) fun head => ?_
  exact (slice s last s.length).bind fun tail => .strings _

theorem substitute (string start count replacement : Value) :
    (Action.substitute string start count replacement).Uses K := by
  unfold Action.substitute
  refine (toInt start).bind fun start => (toInt count).bind fun count => ?_
  refine (toStr replacement).bind fun replacement => .ite (.pure _) ?_
  refine (toStr string).bind fun s => (range start count s.length).bind fun ends => .ite ?_ ?_
  · exact (delete s _ _).bind fun _ => .pure _
  · exact (replace s _ _ _).bind fun _ => .pure _

theorem ascii (v : Value) : (Action.ascii v).Uses K := by
  unfold Action.ascii
  cases v with
  | int n => exact string _
  | str s =>
    dsimp only
    split
    · exact .pure _
    · exact fail _
  | _ => exact fail _

theorem display (text : String) (hwrite : .write ∈ K) (hflush : .flush ∈ K) :
    (Action.display text).Uses K :=
  .bind (.does hwrite (.write text)) fun _ => .bind (.does hflush .flush) fun _ => .pure _

theorem output (v : Value) (hwrite : .write ∈ K) (hflush : .flush ∈ K) :
    (Action.output v).Uses K := by
  unfold Action.output
  refine (toStr v).bind fun s => ?_
  split
  · exact display _ hwrite hflush
  · exact .bind (.does hwrite (.write _)) fun _ => .pure _

theorem prompt (hK : .read ∈ K) : Action.prompt.Uses K := by
  unfold Action.prompt
  rw [← bind_assoc]
  refine .bind (.does hK .read) fun line => ?_
  cases line with
  | none => exact .pure _
  | some line => exact string line

theorem random (around : Surroundings) (hK : .draw ∈ K) : (Action.random around).Uses K :=
  .bind (.does hK .draw) fun _ => .pure _

theorem system (around : Surroundings) (v : Value) (hflush : .flush ∈ K) (hK : .command ∈ K) :
    (Action.system around v).Uses K := by
  unfold Action.system
  refine (toStr v).bind fun command => ?_
  dsimp only
  cases commandFault? command.text with
  | some fault => exact .bind (.does hflush .flush) fun _ => fail _
  | none =>
    have hrun := (Uses.does hK (.command fun n => around.command n command.text)).bind
      fun result => .ite (c := result.1 = .exited 0) (string (Text.decodeLossy result.2))
        (fail (.commandFailed command.text result.1))
    rw [bind_assoc] at hrun
    exact hrun

theorem unary (around : Surroundings) (op : UnaryOp) (v : Value) (hflush : .flush ∈ K)
    (hK : .command ∈ K) : (Action.unary around op v).Uses K := by
  unfold Action.unary
  cases op with
  | not => exact (toBool v).bind fun _ => .pure _
  | noop => exact .pure _
  | system => exact system around v hflush hK

theorem sourceProgram (source : Str) (hK : .store ∈ K) : (Action.sourceProgram source).Uses K := by
  unfold Action.sourceProgram
  refine .bind (.does hK (.store _)) fun found => ?_
  cases found with
  | some program => exact .pure _
  | none =>
    refine .bind (.does hK (.store _)) fun parsed => ?_
    cases parsed with
    | error e => exact fail _
    | ok program => exact .bind (.does hK (.store _)) fun _ => .pure _

end Uses

def Commutes (f : State → State) (x : Action α) : Prop :=
  ∀ s, x.run (f s) = ((x.run s).1, f (x.run s).2)

theorem run_bind_rel {R : State → State → Prop} (htrans : ∀ {s t u}, R s t → R t u → R s u)
    {x : Action α} {f : α → Action β} (hx : ∀ s, R s (x.run s).2)
    (hf : ∀ a s, R s ((f a).run s).2) (s : State) : R s ((x >>= f).run s).2 := by
  have hs := hx s
  rcases hr : x.run s with ⟨stop | a, t⟩
  · rw [hr] at hs
    rw [run_bind_of_error hr]
    exact hs
  · rw [hr] at hs
    rw [run_bind_of_ok hr]
    exact htrans hs (hf a t)

theorem Commutes.bind {f : State → State} {x : Action α} {g : α → Action β} (h : x.Commutes f)
    (hg : ∀ a, (g a).Commutes f) : (x >>= g).Commutes f := by
  intro s
  have hs := h s
  rcases hx : x.run s with ⟨stop | a, t⟩
  · rw [hx] at hs
    rw [run_bind_of_error hx, run_bind_of_error hs]
  · rw [hx] at hs
    rw [run_bind_of_ok hx, run_bind_of_ok hs, hg a t]

theorem Uses.commutes {K : Set Effect} {f : State → State} {x : Action α} (h : x.Uses K)
    (hs : ∀ {γ : Type} (y : StateM Interner γ), (onStrings y).Commutes f)
    (hd : ∀ e ∈ K, ∀ {γ : Type} {y : Action γ}, Does e y → y.Commutes f) : x.Commutes f := by
  induction h with
  | pure a => exact fun _ => rfl
  | throw stop => exact fun _ => rfl
  | bind _ _ ih ihf => exact ih.bind ihf
  | strings x => exact hs x
  | does he h => exact hd _ he h

theorem run_transfer (x : ExceptT Failure (StateM Console) α) (s : State) :
    (transfer x).run s = match x.run s.console with
      | (.ok a, c) => (.ok a, ⟨s.workspace, c⟩)
      | (.error failure, c) => (.error (.error (.inputOutput failure)), ⟨s.workspace, c⟩) := by
  have hrun : (onConsole x.run).run s = (.ok (x.run s.console).1, ⟨s.workspace, (x.run s.console).2⟩) :=
    rfl
  rw [transfer, run_bind_of_ok hrun]
  rcases x.run s.console with ⟨failure | a, c⟩ <;> rfl

theorem commutes_transfer {x : ExceptT Failure (StateM Console) α} (f : Workspace → Workspace)
    {g : Console → Console} (hx : ∀ c, x.run (g c) = ((x.run c).1, g (x.run c).2)) :
    (transfer x).Commutes fun s => ⟨f s.workspace, g s.console⟩ := by
  intro s
  rw [run_transfer, run_transfer, hx]
  rcases x.run s.console with ⟨failure | a, c⟩ <;> rfl

theorem workspace_transfer (x : ExceptT Failure (StateM Console) α) (s : State) :
    ((transfer x).run s).2.workspace = s.workspace := by
  rw [run_transfer]
  rcases x.run s.console with ⟨failure | a, c⟩ <;> rfl

theorem console_transfer (x : ExceptT Failure (StateM Console) α) (s : State) :
    ((transfer x).run s).2.console = (x.run s.console).2 := by
  rw [run_transfer]
  rcases x.run s.console with ⟨failure | a, c⟩ <;> rfl

end Action

inductive Effect.Changes : Effect → Console → Console → Prop
  | store (c : Console) : Changes .store c c
  | write (text : String) (c : Console) : Changes .write c ((Console.write text).run c).2
  | flush (c : Console) : Changes .flush c (Console.flush.run c).2
  | draw (c : Console) : Changes .draw c (Console.startDraw c).2
  | unread {failure : Failure} {c d : Console} (h : Console.flush.run c = (.error failure, d)) :
      Changes .read c d
  | read {c d : Console} (h : Console.flush.run c = (.ok (), d)) :
      Changes .read c (Console.readLine.run d).2
  | unstarted {failure : Failure} {c d : Console} (h : Console.flush.run c = (.error failure, d)) :
      Changes .command c d
  | started {α : Type} (f : Nat → Files.Tree → α × Files.Tree) {c d : Console}
      (h : Console.flush.run c = (.ok (), d)) : Changes .command c (Console.runCommand f d).2

def Console.Leads (K : Set Effect) : Console → Console → Prop :=
  Relation.ReflTransGen fun c d => ∃ e ∈ K, e.Changes c d

theorem Console.Leads.holds {K : Set Effect} {R : Console → Console → Prop} (hrefl : ∀ c, R c c)
    (htrans : ∀ {c d e}, R c d → R d e → R c e)
    (hwrite : .write ∈ K → ∀ text c, R c ((write text).run c).2)
    (hflush : ∀ c, R c (flush.run c).2) (hdraw : ∀ c, R c (startDraw c).2)
    (hread : .read ∈ K → ∀ c, R c (readLine.run c).2)
    (hcommand : ∀ {α : Type} (f : Nat → Files.Tree → α × Files.Tree) c, R c (runCommand f c).2)
    {c d : Console} (h : c.Leads K d) : R c d := by
  have flushed {r : Except Failure Unit} {c d : Console} (hf : flush.run c = (r, d)) : R c d := by
    have hc := hflush c
    rwa [hf] at hc
  induction h with
  | refl => exact hrefl c
  | tail _ hs ih =>
    obtain ⟨e, hK, he⟩ := hs
    apply htrans ih
    cases he with
    | store => exact hrefl _
    | write text => exact hwrite hK text _
    | flush => exact hflush _
    | draw => exact hdraw _
    | unread hf => exact flushed hf
    | read hf => exact htrans (flushed hf) (hread hK _)
    | unstarted hf => exact flushed hf
    | started f hf => exact htrans (flushed hf) (hcommand f _)

namespace Action

variable {α : Type} {K : Set Effect} {x : Action α}

theorem Does.changes {e : Effect} (h : Does e x) (s : State) :
    e.Changes s.console (x.run s).2.console := by
  cases h with
  | store x => exact .store s.console
  | write text =>
    have hw : ((Action.write text).run s).2.console = _ := console_transfer (Console.write text) s
    rw [hw]
    exact .write text s.console
  | flush =>
    have hf : (Action.flush.run s).2.console = _ := console_transfer Console.flush s
    rw [hf]
    exact .flush s.console
  | read =>
    have hf : Action.flush.run s = _ := run_transfer Console.flush s
    rcases hc : Console.flush.run s.console with ⟨failure | ⟨⟩, c⟩
    · rw [hc] at hf
      rw [run_bind_of_error hf]
      exact .unread hc
    · rw [hc] at hf
      rw [run_bind_of_ok hf, console_transfer]
      exact .read hc
  | draw => exact .draw s.console
  | command f =>
    have hf : Action.flush.run s = _ := run_transfer Console.flush s
    rcases hc : Console.flush.run s.console with ⟨failure | ⟨⟩, c⟩
    · rw [hc] at hf
      rw [run_bind_of_error hf]
      exact .unstarted hc
    · rw [hc] at hf
      rw [run_bind_of_ok hf]
      exact .started f hc

theorem Uses.leads (h : x.Uses K) (s : State) : s.console.Leads K (x.run s).2.console := by
  induction h generalizing s with
  | pure a => exact .refl
  | throw stop => exact .refl
  | bind _ _ ih ihf =>
    exact run_bind_rel (R := fun s t => s.console.Leads K t.console) (fun h h' => h.trans h') ih ihf s
  | strings x => exact .refl
  | does he h => exact .single ⟨_, he, h.changes s⟩

theorem Does.workspace_eq {e : Effect} (h : Does e x) (he : e ≠ .store) (s : State) :
    (x.run s).2.workspace = s.workspace := by
  have flushed {β : Type} {f : Unit → Action β} (hf : ∀ t, ((f ()).run t).2.workspace = t.workspace) :
      ((Action.flush >>= f).run s).2.workspace = s.workspace :=
    run_bind_rel (R := fun s t => t.workspace = s.workspace) (fun h h' => h'.trans h)
      (workspace_transfer _) (fun _ => hf) s
  cases h with
  | store x => exact absurd rfl he
  | write text => exact workspace_transfer _ s
  | flush => exact workspace_transfer _ s
  | read => exact flushed (workspace_transfer _)
  | draw => rfl
  | command f => exact flushed fun _ => rfl

theorem Uses.store_eq (h : x.Uses K) (hK : .store ∉ K) (s : State) :
    (x.run s).2.workspace.store = s.workspace.store := by
  induction h generalizing s with
  | pure a => rfl
  | throw stop => rfl
  | bind _ _ ih ihf =>
    exact run_bind_rel (R := fun s t => t.workspace.store = s.workspace.store)
      (fun h h' => h'.trans h) ih ihf s
  | strings x => rfl
  | @does e _ x he h =>
    have hne : e ≠ .store := by
      rintro rfl
      exact hK he
    rw [h.workspace_eq hne]

theorem Uses.console_eq (h : x.Uses ∅) (s : State) : (x.run s).2.console = s.console := by
  rcases (h.leads s).cases_tail with hs | ⟨c, -, e, hK, -⟩
  · exact hs
  · exact absurd hK id

end Action

end KnightLang
