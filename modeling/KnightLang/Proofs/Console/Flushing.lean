import KnightLang.Proofs.Console.Turns

namespace KnightLang

namespace Event

def position : Event → Nat
  | .flushed n | .lineRead n | .commandStarted n => n

def Awaits : Event → Prop
  | .flushed _ => False
  | .lineRead _ | .commandStarted _ => True

def flush? : Event → Option Nat
  | .flushed n => some n
  | _ => none

end Event

namespace Console

/-- Things happened in the order of the output, and all that was written was flushed whenever someone
waited. -/
structure Orderly (c : Console) : Prop where
  sorted : c.events.Pairwise fun later earlier => earlier.position ≤ later.position
  bounded : ∀ e ∈ c.events, e.position ≤ c.output.written.size
  covered : ∀ later e earlier, c.events = later ++ e :: earlier → e.Awaits →
    earlier.head? = some (.flushed e.position)

/-- From one console to another. Input is used, and commands are run, only if that is on record. -/
def Records (c d : Console) : Prop :=
  ∃ new, d.events = new ++ c.events ∧ ((∀ n, .lineRead n ∉ new) → d.input = c.input) ∧
    ((∀ n, .commandStarted n ∉ new) → d.commands = c.commands ∧ d.files = c.files)

variable {c d : Console}

theorem Records.refl (c : Console) : c.Records c := ⟨[], rfl, fun _ => rfl, fun _ => ⟨rfl, rfl⟩⟩

theorem Records.trans {e : Console} (h : c.Records d) (h' : d.Records e) : c.Records e := by
  obtain ⟨new, he, hi, hc⟩ := h
  obtain ⟨new', he', hi', hc'⟩ := h'
  refine ⟨new' ++ new, ?_, fun hn => ?_, fun hn => ?_⟩
  · rw [he', he, List.append_assoc]
  · have hd := hi' fun n hm => hn n (List.mem_append_left _ hm)
    exact hd.trans (hi fun n hm => hn n (List.mem_append_right _ hm))
  · obtain ⟨hd, hf⟩ := hc' fun n hm => hn n (List.mem_append_left _ hm)
    obtain ⟨hd', hf'⟩ := hc fun n hm => hn n (List.mem_append_right _ hm)
    exact ⟨hd.trans hd', hf.trans hf'⟩

theorem records_flush (c : Console) : c.Records (flush.run c).2 := by
  rw [flush_eq]
  split
  · exact .refl c
  · exact ⟨[_], rfl, fun _ => rfl, fun _ => ⟨rfl, rfl⟩⟩

theorem Leads.records {K : Set Effect} (h : c.Leads K d) : c.Records d := by
  refine h.holds .refl .trans (fun _ _ c => .refl c) records_flush .refl (fun _ c => ?_) ?_
  · refine ⟨[.lineRead c.output.written.size], rfl, fun hn => ?_, fun _ => ⟨rfl, rfl⟩⟩
    exact absurd (List.mem_singleton.2 rfl) (hn _)
  · intro α f c
    refine ⟨[.commandStarted c.output.written.size], rfl, fun _ => rfl, fun hn => ?_⟩
    exact absurd (List.mem_singleton.2 rfl) (hn _)

theorem orderly_of_nil (h : c.events = []) : c.Orderly := by
  constructor
  · rw [h]
    exact .nil
  · simp [h]
  · intro later e earlier he
    simp [h] at he

theorem Orderly.extend (h : c.Orderly) (he : d.events = c.events)
    (hsize : c.output.written.size ≤ d.output.written.size) : d.Orderly := by
  constructor
  · rw [he]
    exact h.sorted
  · intro e hm
    rw [he] at hm
    exact (h.bounded e hm).trans hsize
  · intro later e earlier hd
    rw [he] at hd
    exact h.covered later e earlier hd

theorem Orderly.push (h : c.Orderly) {e : Event} (he : d.events = e :: c.events)
    (hd : d.output.written = c.output.written) (hp : e.position = c.output.written.size)
    (hw : e.Awaits → c.events.head? = some (.flushed e.position)) : d.Orderly := by
  constructor
  · rw [he, List.pairwise_cons]
    refine ⟨fun e' hm => ?_, h.sorted⟩
    rw [hp]
    exact h.bounded e' hm
  · rw [he, hd]
    intro e' hm
    rcases List.mem_cons.1 hm with rfl | hm
    · exact hp.le
    · exact h.bounded e' hm
  · intro later e' earlier hsplit hwaits
    rw [he] at hsplit
    cases later with
    | nil =>
      obtain ⟨rfl, rfl⟩ := List.cons.inj hsplit
      exact hw hwaits
    | cons _ later => exact h.covered later e' earlier (List.cons.inj hsplit).2 hwaits

theorem Orderly.write (h : c.Orderly) (text : String) : ((Console.write text).run c).2.Orderly := by
  rw [write_eq]
  refine h.extend rfl ?_
  obtain ⟨input, ⟨written, capacity, failing, flushes⟩, events, draws, commands, files⟩ := c
  simp only [Output.write]
  cases capacity with
  | none => simp
  | some capacity =>
    dsimp only
    split <;> simp

theorem Orderly.flush (h : c.Orderly) : (Console.flush.run c).2.Orderly := by
  rw [flush_eq]
  split
  · exact h.extend rfl le_rfl
  · exact h.push rfl rfl rfl False.elim

theorem head?_of_flush (h : Console.flush.run c = (.ok (), d)) :
    d.events.head? = some (.flushed d.output.written.size) := by
  rw [flush_eq] at h
  split at h
  · cases h
  · obtain ⟨-, rfl⟩ := Prod.mk.inj h
    rfl

theorem Orderly.await (h : c.Orderly) (hf : Console.flush.run c = (.ok (), d)) {e : Event}
    (hp : e.position = d.output.written.size) {f : Console} (he : f.events = e :: d.events)
    (hw : f.output = d.output) : f.Orderly := by
  have hd := h.flush
  rw [hf] at hd
  refine hd.push he (by rw [hw]) hp fun _ => ?_
  rw [hp]
  exact head?_of_flush hf

theorem Orderly.changes {e : Effect} (h : c.Orderly) (hc : e.Changes c d) : d.Orderly := by
  have refused {failure : Failure} (hf : Console.flush.run c = (.error failure, d)) : d.Orderly := by
    have hd := h.flush
    rwa [hf] at hd
  cases hc with
  | store => exact h
  | write text => exact h.write text
  | flush => exact h.flush
  | draw => exact h.extend rfl le_rfl
  | unread hf => exact refused hf
  | read hf =>
    obtain ⟨line, hr⟩ := readLine_eq _
    rw [hr]
    exact h.await hf rfl rfl rfl
  | unstarted hf => exact refused hf
  | started f hf => exact h.await hf rfl rfl rfl

theorem Orderly.leads {K : Set Effect} (h : c.Orderly) (hl : c.Leads K d) : d.Orderly := by
  induction hl with
  | refl => exact h
  | tail _ hs ih =>
    obtain ⟨e, -, he⟩ := hs
    exact ih.changes he

theorem flushPositions_eq (c : Console) :
    c.flushPositions = (c.events.filterMap Event.flush?).reverse := by
  have hfold (events : List Event) (positions : List Nat) :
      events.foldl (fun positions event =>
        match event with
        | .flushed written => written :: positions
        | _ => positions) positions = (events.filterMap Event.flush?).reverse ++ positions := by
    induction events generalizing positions with
    | nil => rfl
    | cons event events ih =>
      rw [List.foldl_cons, ih]
      cases event with
      | flushed written => simp [Event.flush?]
      | _ => rfl
  have hc := hfold c.events []
  rw [List.append_nil] at hc
  exact hc

theorem Orderly.flushPositions (h : c.Orderly) :
    c.flushPositions.Pairwise (· ≤ ·) ∧ ∀ n ∈ c.flushPositions, n ≤ c.output.written.size := by
  have hposition {e : Event} {n : Nat} (he : e.flush? = some n) : e.position = n := by
    cases e with
    | flushed written => exact Option.some.inj he
    | _ => cases he
  rw [flushPositions_eq]
  constructor
  · rw [List.pairwise_reverse, List.pairwise_filterMap]
    refine h.sorted.imp fun {later earlier} hle n hn m hm => ?_
    rw [← hposition hn, ← hposition hm]
    exact hle
  · intro n hn
    obtain ⟨e, he, hn⟩ := List.mem_filterMap.1 (List.mem_reverse.1 hn)
    rw [← hposition hn]
    exact h.bounded e he

end Console

namespace Config

inductive Awaits (c : Config) : Prop
  | prompt {id : Nat} {word : String} {args : List Node}
      (h : c.control = .node (.call id word .prompt args)) : Awaits c
  | system {v : Value} {frames : List Frame} (hv : v.kind ≠ .block) (hc : c.control = .value v)
      (hf : c.frames = .unary .system :: frames) : Awaits c

end Config

namespace Action

variable {α : Type} {s : State}

theorem run_flush_of_fails
    (h : s.console.output.failingFlush.fails (s.console.output.flushes + 1) = true) :
    flush.run s = (.error (.error (.inputOutput .flushFailed)),
      ⟨s.workspace, { s.console with output := s.console.output.flush.2 }⟩) := by
  have hf : flush.run s = _ := run_transfer Console.flush s
  rw [hf, Console.flush_eq, if_pos h]

theorem exists_run_toStr {v : Value} (hv : v.kind ≠ .block) (s : State) :
    ∃ str ws, (toStr v).run s = (.ok str, ⟨ws, s.console⟩) := by
  cases v with
  | block body => exact absurd rfl hv
  | _ => exact ⟨_, _, rfl⟩

end Action

namespace Machine

theorem step_of_flush_fails (around : Surroundings) {c : Config} (hc : c.Awaits)
    (h : c.state.console.output.failingFlush.fails (c.state.console.output.flushes + 1) = true) :
    ∃ ws, step around c = .halt (.error (.error (.inputOutput .flushFailed)))
      ⟨ws, { c.state.console with output := c.state.console.output.flush.2 }⟩ := by
  obtain ⟨control, frames, s⟩ := c
  cases hc with
  | prompt hc =>
    obtain rfl := hc
    have hrun : Action.prompt.run s = _ := Action.run_bind_of_error (Action.run_flush_of_fails h)
    exact ⟨_, after_of_error hrun⟩
  | @system v frames' hv hc hf =>
    obtain rfl := hc
    obtain rfl := hf
    obtain ⟨str, ws, hs⟩ := Action.exists_run_toStr hv s
    have hflush : Action.flush.run ⟨ws, s.console⟩ = _ := Action.run_flush_of_fails h
    have hrun : (Action.system around v).run s = _ :=
      (Action.run_bind_of_ok hs).trans (Action.run_bind_of_error hflush)
    exact ⟨_, after_of_error hrun⟩

end Machine

theorem State.console_warmed (s : State) : s.warmed.console = s.console := rfl

namespace Program

theorem conclude_flushes (result : Except Stop Value) (s : State) :
    let (r, t) := conclude result s
    (∃ p, r = .error (.panic p)) ∨
      (r = .error (.error (.inputOutput .flushFailed)) ∧
        t.console.output.failingFlush.fails t.console.output.flushes = true) ∨
      t.console.events.head? = some (.flushed t.console.output.written.size) := by
  rcases conclude_cases result s with ⟨p, hp, hc⟩ | hc
  · rw [hc]
    exact .inl ⟨p, hp⟩
  · rw [hc, flushed_eq, Console.flush_eq]
    by_cases hf : s.console.output.failingFlush.fails (s.console.output.flushes + 1) = true
    · rw [if_pos hf]
      exact .inr (.inl ⟨rfl, hf⟩)
    · rw [if_neg hf]
      exact .inr (.inr rfl)

/-- In every run, whatever flushes fail: input is used and commands are run only on record, and when that
happens, all that was written was flushed just before; where that flush fails, nothing is read or
started; when the run ends, all that was written is flushed, unless it panics or its last flush fails;
and flushes lie in the order of the output and within it. -/
theorem nothing_waits_unflushed (around : Surroundings) (fuel : Nat) (p : Program) (s : State)
    (hs : s.console.Orderly) :
    (∀ c, Machine.Reaches around (p.opening s) c →
      s.console.Records c.state.console ∧ c.state.console.Orderly ∧
      (c.Awaits →
        c.state.console.output.failingFlush.fails (c.state.console.output.flushes + 1) = true →
        ∃ ws, Machine.step around c = .halt (.error (.error (.inputOutput .flushFailed)))
          ⟨ws, { c.state.console with output := c.state.console.output.flush.2 }⟩)) ∧
    ∀ result t, p.execute around fuel s = some (result, t) →
      s.console.Records t.console ∧ t.console.Orderly ∧
      (t.console.flushPositions.Pairwise (· ≤ ·) ∧
        ∀ n ∈ t.console.flushPositions, n ≤ t.console.output.written.size) ∧
      ((∃ panic, result = .error (.panic panic)) ∨
        (result = .error (.error (.inputOutput .flushFailed)) ∧
          t.console.output.failingFlush.fails t.console.output.flushes = true) ∨
        t.console.events.head? = some (.flushed t.console.output.written.size)) := by
  constructor
  · intro c hc
    have hl : s.console.Leads Set.univ c.state.console := Machine.leads_reaches hc
    exact ⟨hl.records, hs.leads hl, fun hw hf => Machine.step_of_flush_fails around hw hf⟩
  · intro result t h
    have hl := leads_execute h
    have ht := hs.leads hl
    refine ⟨hl.records, ht, ht.flushPositions, ?_⟩
    rw [execute_eq] at h
    obtain ⟨r, -, hr⟩ := Option.map_eq_some_iff.1 h
    have hend := conclude_flushes r (p.advance around fuel s).2
    rwa [hr] at hend

theorem nothing_waits_unflushed_prompt :
    let around : Surroundings := ⟨fun _ => 0, fun _ _ files => ((.exited 0, []), files)⟩
    let console : Console :=
      { input := .arriving "a\n".toByteArray.toList, output := { failingFlush := some 1 } }
    let c := Program.opening ⟨.call 0 "PROMPT" .prompt []⟩ ⟨.fresh, console⟩
    console.Orderly ∧
      ∃ u, Machine.step around c = .halt (.error (.error (.inputOutput .flushFailed))) u ∧
        u.console.input = console.input ∧ u.console.events = [] := by
  intro around console c
  have horderly : console.Orderly := Console.orderly_of_nil rfl
  obtain ⟨hsteps, -⟩ := nothing_waits_unflushed around 0 ⟨.call 0 "PROMPT" .prompt []⟩
    ⟨.fresh, console⟩ horderly
  obtain ⟨-, -, hprompt⟩ := hsteps c .refl
  have hconsole : c.state.console = console := State.console_warmed ⟨.fresh, console⟩
  rw [hconsole] at hprompt
  obtain ⟨ws, hstep⟩ := hprompt (.prompt rfl) rfl
  exact ⟨horderly, _, hstep, rfl, rfl⟩

end Program

end KnightLang
