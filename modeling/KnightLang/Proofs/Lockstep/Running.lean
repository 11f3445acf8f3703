import KnightLang.Proofs.Lockstep.Stepping

namespace KnightLang

variable {L : Link} {d : Int} {w : Pairing}

namespace Machine

def advance (around : Surroundings) : Nat → Config → Option (Except Stop Value) × State
  | 0, c => (none, c.state)
  | fuel + 1, c =>
    match step around c with
    | .next c => advance around fuel c
    | .halt result s => (some result, s)

theorem run_eq_advance (around : Surroundings) (fuel : Nat) (c : Config) :
    run around fuel c = (advance around fuel c).1.map (·, (advance around fuel c).2) := by
  induction fuel generalizing c with
  | zero => rfl
  | succ fuel ih =>
    simp only [run, advance]
    cases step around c with
    | next c => exact ih c
    | halt result s => rfl

theorem le_advance (around : Surroundings) (fuel : Nat) (c : Config) :
    (supply c.state).nextTag.toNat ≤ (supply (advance around fuel c).2).nextTag.toNat := by
  induction fuel generalizing c with
  | zero => exact le_rfl
  | succ fuel ih =>
    have hstep := step_advances around c
    simp only [advance, Advances] at hstep ⊢
    cases h : step around c with
    | next c' =>
      rw [h] at hstep
      exact hstep.trans (ih c')
    | halt result s =>
      rw [h] at hstep
      exact hstep

theorem advance_alike (hL : L.Lawful) (around : Surroundings) (fuel : Nat) {c e : Config}
    (h : c.Alike L d w e) (hc : L.Enough (supply (advance around fuel c).2))
    (he : L.Enough (supply (advance around fuel e).2)) :
    ∃ w', w ≤ w' ∧ (advance around fuel c).2.Alike L d w' (advance around fuel e).2 ∧
      Options (Results (Value.Matches d)) w' (advance around fuel c).1
        (advance around fuel e).1 := by
  induction fuel generalizing w c e with
  | zero => exact ⟨w, le_rfl, h.state, .none⟩
  | succ fuel ih =>
    have hstep := steps_step hL around h
    simp only [advance] at hc he ⊢
    generalize step around c = x at hc hstep ⊢
    generalize step around e = y at he hstep ⊢
    have enough {x : Step} (hx : L.Enough (supply (match x with
        | .next c => advance around fuel c
        | .halt result s => (some result, s)).2)) : L.Enough (supply x.state) := by
      cases x with
      | next c => exact hx.of_le (le_advance around fuel c)
      | halt result s => exact hx
    obtain ⟨w₁, hw₁, hxy⟩ := hstep (enough hc) (enough he)
    cases hxy with
    | next h =>
      obtain ⟨w₂, hw₂, hr⟩ := ih h hc he
      exact ⟨w₂, hw₁.trans hw₂, hr⟩
    | halt h hs => exact ⟨w₁, hw₁, hs, .some h⟩

end Machine

def State.warmed (s : State) : State := (Action.onStrings Cache.warm s).2

theorem State.le_warmed (s : State) :
    (supply s).nextTag.toNat ≤ (supply s.warmed).nextTag.toNat :=
  have hwarm : Spends (Action.onStrings Cache.warm).run := inferInstance
  hwarm.le s

theorem State.warmed_alike (hL : L.Lawful) {s t : State} (h : s.Alike L d w t)
    (hs : L.Enough (supply s.warmed)) (ht : L.Enough (supply t.warmed)) :
    ∃ w', w ≤ w' ∧ s.warmed.Alike L d w' t.warmed := by
  have hwarm : L.Acts d w Same (Action.onStrings Cache.warm) (Action.onStrings Cache.warm) :=
    .onStrings hL.warm
  obtain ⟨w₁, hw₁, hl, -⟩ := hwarm le_rfl h hs ht
  exact ⟨w₁, hw₁, hl⟩

namespace Program

def advance (around : Surroundings) (fuel : Nat) (p : Program) (s : State) :
    Option (Except Stop Value) × State :=
  Machine.advance around fuel ⟨.node p.root, [], s.warmed⟩

theorem warmed_le_advance (around : Surroundings) (fuel : Nat) (p : Program) (s : State) :
    (supply s.warmed).nextTag.toNat ≤ (supply (p.advance around fuel s).2).nextTag.toNat :=
  Machine.le_advance around fuel ⟨.node p.root, [], s.warmed⟩

theorem advance_alike (hL : L.Lawful) (around : Surroundings) (fuel : Nat) {p q : Program}
    {s t : State} (h : p.Matches d w q) (hs : s.Alike L d w t)
    (hp : L.Enough (supply (p.advance around fuel s).2))
    (hq : L.Enough (supply (q.advance around fuel t).2)) :
    ∃ w', w ≤ w' ∧ (p.advance around fuel s).2.Alike L d w' (q.advance around fuel t).2 ∧
      Options (Results (Value.Matches d)) w' (p.advance around fuel s).1
        (q.advance around fuel t).1 := by
  obtain ⟨w₁, hw₁, hs₁⟩ := State.warmed_alike hL hs (hp.of_le (p.warmed_le_advance around fuel s))
    (hq.of_le (q.warmed_le_advance around fuel t))
  have hc : Config.Alike L d w₁ ⟨.node p.root, [], s.warmed⟩ ⟨.node q.root, [], t.warmed⟩ :=
    ⟨.node (h.mono hw₁), .nil, hs₁⟩
  obtain ⟨w₂, hw₂, hr⟩ := Machine.advance_alike hL around fuel hc hp hq
  exact ⟨w₂, hw₁.trans hw₂, hr⟩

def flushed (result : Except Stop Value) (s : State) : Except Stop Value × State :=
  match Action.flush s with
  | (.ok _, s) => (result, s)
  | (.error stop, s) => (.error stop, s)

def conclude : Except Stop Value → State → Except Stop Value × State
  | .error (.panic reason), s => (.error (.panic reason), s)
  | result, s => flushed result s

theorem execute_eq (around : Surroundings) (fuel : Nat) (p : Program) (s : State) :
    p.execute around fuel s =
      (p.advance around fuel s).1.map (conclude · (p.advance around fuel s).2) := by
  unfold execute advance State.warmed
  rcases Action.onStrings Cache.warm s with ⟨_, s₁⟩
  simp only [Node.eval, Machine.run_eq_advance]
  generalize Machine.advance around fuel _ = r
  obtain ⟨result, s⟩ := r
  rcases result with _ | stop | value
  · rfl
  · cases stop with
    | error e =>
      simp only [conclude, flushed, Option.map_some]
      rcases Action.flush s with ⟨_ | _, s⟩ <;> rfl
    | panic reason => rfl
  · simp only [conclude, flushed, Option.map_some]
    rcases Action.flush s with ⟨_ | _, s⟩ <;> rfl

theorem flush_eq (s : State) : Action.flush s =
    match Console.flush s.console with
    | (.ok _, c) => (.ok (), ⟨s.workspace, c⟩)
    | (.error failure, c) => (.error (.error (.inputOutput failure)), ⟨s.workspace, c⟩) := by
  obtain ⟨ws, c⟩ := s
  simp only [Action.flush, Action.transfer, bind, ExceptT.bind, ExceptT.mk, StateT.bind,
    Action.onConsole, ExceptT.run]
  generalize Console.flush c = x
  obtain ⟨r, c'⟩ := x
  cases r <;> rfl

theorem flushed_alike {r r' : Except Stop Value} {s t : State}
    (h : Results (Value.Matches d) w r r') (hs : s.Alike L d w t) :
    Results (Value.Matches d) w (flushed r s).1 (flushed r' t).1 ∧
      (flushed r s).2.Alike L d w (flushed r' t).2 := by
  simp only [flushed, flush_eq, hs.console]
  generalize Console.flush t.console = x
  obtain ⟨f, c⟩ := x
  cases f with
  | ok _ => exact ⟨h, hs.workspace, rfl⟩
  | error failure => exact ⟨.error _, hs.workspace, rfl⟩

theorem conclude_alike {r r' : Except Stop Value} {s t : State}
    (h : Results (Value.Matches d) w r r') (hs : s.Alike L d w t) :
    Results (Value.Matches d) w (conclude r s).1 (conclude r' t).1 ∧
      (conclude r s).2.Alike L d w (conclude r' t).2 := by
  cases h with
  | ok h => exact flushed_alike (.ok h) hs
  | error stop =>
    cases stop with
    | error e => exact flushed_alike (.error _) hs
    | panic reason => exact ⟨.error _, hs⟩

end Program

namespace Workspace

def launch (around : Surroundings) (console : Console) (fuel : Nat) (source : String)
    (ws : Workspace) : Except CompileError (Option (Except Stop Value)) × State :=
  match Program.parse source ws with
  | (.error e, ws) => (.error e, ⟨ws, console⟩)
  | (.ok p, ws) =>
    let (result, s) := p.advance around fuel ⟨ws, console⟩
    (.ok result, s)

theorem parse_le_launch (around : Surroundings) (console : Console) (fuel : Nat) (source : String)
    (ws : Workspace) : (supply (Program.parse source ws).2).nextTag.toNat ≤
      (supply (ws.launch around console fuel source).2).nextTag.toNat := by
  unfold launch
  rcases Program.parse source ws with ⟨e | p, ws'⟩
  · exact le_rfl
  · exact (State.le_warmed ⟨ws', console⟩).trans (p.warmed_le_advance around fuel ⟨ws', console⟩)

theorem launch_alike (hL : L.Lawful) (around : Surroundings) (console : Console)
    (fuel : Nat) (source : String) {v v' : Workspace} (h : v.Alike L d w v')
    (hv : L.Enough (supply (v.launch around console fuel source).2))
    (hv' : L.Enough (supply (v'.launch around console fuel source).2)) :
    ∃ w', w ≤ w' ∧ (v.launch around console fuel source).2.Alike L d w'
        (v'.launch around console fuel source).2 ∧
      Results (Options (Results (Value.Matches d))) w' (v.launch around console fuel source).1
        (v'.launch around console fuel source).1 := by
  obtain ⟨w₁, hw₁, hl, hr⟩ := Program.sim_parse hL source le_rfl h
    (hv.of_le (parse_le_launch around console fuel source v))
    (hv'.of_le (parse_le_launch around console fuel source v'))
  unfold launch at hv hv' ⊢
  generalize Program.parse source v = x at hv hl hr ⊢
  generalize Program.parse source v' = y at hv' hl hr ⊢
  obtain ⟨r, ws⟩ := x
  obtain ⟨r', ws'⟩ := y
  cases hr with
  | error e => exact ⟨w₁, hw₁, ⟨hl, rfl⟩, .error e⟩
  | ok hp =>
    obtain ⟨w₂, hw₂, hs, hr⟩ := Program.advance_alike hL around fuel hp
      (s := ⟨ws, console⟩) (t := ⟨ws', console⟩) ⟨hl, rfl⟩ hv hv'
    exact ⟨w₂, hw₁.trans hw₂, hs, .ok hr⟩

end Workspace

inductive Shown
  | null
  | bool (b : Bool)
  | int (n : Int64)
  | string (text : String)
  | block (rendering : String)
  deriving DecidableEq, Repr

def Value.shown : Value → Shown
  | null => .null
  | bool b => .bool b
  | int n => .int n
  | str s => .string s.text
  | block body => .block body.render

/-- What there is to see once a source was parsed and executed: an error of the source, or else how the
run ended; the bytes written and where among them the flushes were; the numbers of variables and of
programs in the store. -/
structure Answer where
  result : Except CompileError (Except Stop Shown)
  written : ByteArray
  flushes : List Nat
  names : Nat
  programs : Nat

def State.answer (result : Except CompileError (Except Stop Shown)) (s : State) : Answer where
  result
  written := s.console.output.written
  flushes := s.console.flushPositions
  names := s.workspace.store.size
  programs := s.workspace.store.programCount

theorem State.answer_eq {s t : State} (h : s.Alike L d w t)
    (result : Except CompileError (Except Stop Shown)) : s.answer result = t.answer result := by
  simp only [State.answer, h.console, Store.size, h.workspace.store.names, Store.programCount,
    h.workspace.store.count]

theorem Results.map_eq {ε α β γ : Type} {R : Pairing → α → β → Prop} {r : Except ε α}
    {r' : Except ε β} (h : Results R w r r') {f : α → γ} {g : β → γ}
    (hfg : ∀ {a : α} {b : β}, R w a b → f a = g b) : r.map f = r'.map g := by
  cases h with
  | ok h => exact congrArg Except.ok (hfg h)
  | error e => rfl

theorem Value.Matches.shown_eq (hw : w.Faithful) {u v : Value} (h : u.Matches d w v) :
    u.shown = v.shown := by
  cases h with
  | str h => simp only [Value.shown, hw.text h]
  | block h => simp only [Value.shown, h.render_eq hw]
  | _ => rfl

namespace Workspace

def answer? (around : Surroundings) (console : Console) (fuel : Nat) (source : String)
    (ws : Workspace) : Option Answer :=
  match Program.parse source ws with
  | (.error e, ws) => some (State.answer (.error e) ⟨ws, console⟩)
  | (.ok p, ws) =>
    (p.execute around fuel ⟨ws, console⟩).map fun (result, s) => s.answer (.ok (result.map Value.shown))

def concluded? : Except CompileError (Option (Except Stop Value)) × State → Option Answer
  | (.error e, s) => some (s.answer (.error e))
  | (.ok result?, s) => result?.map fun result =>
    (Program.conclude result s).2.answer (.ok ((Program.conclude result s).1.map Value.shown))

theorem answer?_eq_concluded? (around : Surroundings) (console : Console) (fuel : Nat)
    (source : String) (ws : Workspace) :
    ws.answer? around console fuel source = concluded? (ws.launch around console fuel source) := by
  unfold answer? launch
  rcases Program.parse source ws with ⟨e | p, ws'⟩
  · rfl
  · simp only [Program.execute_eq, Option.map_map, concluded?]
    rfl

theorem answer?_eq (hL : L.Lawful) (around : Surroundings) (console : Console) (fuel : Nat)
    (source : String) {v v' : Workspace} (h : v.Alike L d w v')
    (hv : L.Enough (supply (v.launch around console fuel source).2))
    (hv' : L.Enough (supply (v'.launch around console fuel source).2)) :
    v.answer? around console fuel source = v'.answer? around console fuel source := by
  obtain ⟨w₁, -, hs, hr⟩ := launch_alike hL around console fuel source h hv hv'
  rw [answer?_eq_concluded?, answer?_eq_concluded?]
  generalize v.launch around console fuel source = x at hs hr ⊢
  generalize v'.launch around console fuel source = y at hs hr ⊢
  obtain ⟨r, s⟩ := x
  obtain ⟨r', t⟩ := y
  cases hr with
  | error e => exact congrArg some (State.answer_eq hs (.error e))
  | ok hr =>
    cases hr with
    | none => rfl
    | some hr =>
      obtain ⟨hr, hs⟩ := Program.conclude_alike hr hs
      have hw := hL.faithful hs.workspace.strings
      have hshown := hr.map_eq (f := Value.shown) (g := Value.shown) fun h => h.shown_eq hw
      simp only [concluded?, Option.map_some, hshown, State.answer_eq hs]

end Workspace

end KnightLang
