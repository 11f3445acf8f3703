import KnightLang.Proofs.Console.Turns

namespace KnightLang

namespace Output

def limit (capacity : Nat) (o : Output) : Output := { o with capacity := some capacity }

structure Unlimited (o : Output) : Prop where
  capacity : o.capacity = none
  flushes : ∀ n, o.flushes < n → o.failingFlush.fails n = false

structure Grows (o o' : Output) : Prop where
  written : ∃ more, o'.written = o.written ++ more
  unlimited : o.Unlimited → o'.Unlimited

variable {o o' : Output} {capacity : Nat}

theorem Grows.refl (o : Output) : o.Grows o := ⟨⟨.empty, by simp⟩, id⟩

theorem Grows.trans {o'' : Output} (h : o.Grows o') (h' : o'.Grows o'') : o.Grows o'' := by
  obtain ⟨⟨more, hw⟩, hu⟩ := h
  obtain ⟨⟨more', hw'⟩, hu'⟩ := h'
  refine ⟨⟨more ++ more', ?_⟩, hu' ∘ hu⟩
  rw [hw', hw, ByteArray.append_assoc]

theorem Grows.size_le (h : o.Grows o') : o.written.size ≤ o'.written.size := by
  obtain ⟨more, hw⟩ := h.written
  rw [hw, ByteArray.size_append]
  omega

theorem Grows.extract (h : o.Grows o') (hc : capacity ≤ o.written.size) :
    o'.written.extract 0 capacity = o.written.extract 0 capacity := by
  obtain ⟨more, hw⟩ := h.written
  rw [hw, ByteArray.extract_append]
  have hzero : capacity - o.written.size = 0 := by omega
  have hempty : more.extract 0 0 = .empty := by simp
  rw [hzero, Nat.zero_sub, hempty, ByteArray.append_empty]

theorem grows_write (data : ByteArray) (o : Output) : o.Grows (o.write data).2 := by
  obtain ⟨written, capacity, failing, flushes⟩ := o
  cases capacity with
  | none => exact ⟨⟨data, rfl⟩, fun h => ⟨rfl, h.flushes⟩⟩
  | some capacity =>
    refine ⟨?_, fun h => by cases h.capacity⟩
    simp only [write]
    split
    · exact ⟨_, rfl⟩
    · exact ⟨_, rfl⟩

theorem grows_flush (o : Output) : o.Grows o.flush.2 := by
  refine ⟨⟨.empty, by simp [flush]⟩, fun h => ⟨h.capacity, fun n hn => h.flushes n ?_⟩⟩
  simp only [flush] at hn
  omega

theorem Unlimited.write_eq (h : o.Unlimited) (data : ByteArray) :
    o.write data = (true, { o with written := o.written ++ data }) := by
  obtain ⟨written, c, failing, flushes⟩ := o
  obtain rfl : c = none := h.capacity
  rfl

theorem write_limit (data : ByteArray) (o : Output) : (o.limit capacity).write data =
    if data.size ≤ capacity - o.written.size then
      (true, { o.limit capacity with written := o.written ++ data })
    else
      (false, { o.limit capacity with
        written := o.written ++ data.extract 0 (capacity - o.written.size) }) := rfl

theorem Unlimited.write_fits (h : o.Unlimited) {data : ByteArray}
    (hfit : (o.write data).2.written.size ≤ capacity) :
    (o.limit capacity).write data = (true, (o.write data).2.limit capacity) := by
  rw [h.write_eq, ByteArray.size_append] at hfit
  have hroom : data.size ≤ capacity - o.written.size := by omega
  rw [write_limit, if_pos hroom, h.write_eq]
  rfl

theorem Unlimited.write_full (h : o.Unlimited) (hc : o.written.size ≤ capacity) {data : ByteArray}
    (hfull : capacity < (o.write data).2.written.size) :
    (o.limit capacity).write data =
      (false, { o.limit capacity with written := (o.write data).2.written.extract 0 capacity }) := by
  rw [h.write_eq, ByteArray.size_append] at hfull
  have hroom : ¬ data.size ≤ capacity - o.written.size := by omega
  have hold : o.written.extract 0 capacity = o.written := by
    apply ByteArray.ext
    rw [ByteArray.data_extract]
    exact Array.extract_eq_self_of_le hc
  rw [write_limit, if_neg hroom, h.write_eq, ByteArray.extract_append, hold, Nat.zero_sub]

theorem write_empty (o : Output) : o.write .empty = (true, o) := by
  obtain ⟨written, capacity, failing, flushes⟩ := o
  cases capacity <;> simp [write]

theorem write_append (a b : ByteArray) (o : Output) : o.write (a ++ b) =
    if (o.write a).1 then (o.write a).2.write b else (false, (o.write a).2) := by
  obtain ⟨written, capacity, failing, flushes⟩ := o
  cases capacity with
  | none => simp [write, ByteArray.append_assoc]
  | some capacity =>
    simp only [write, ByteArray.size_append]
    by_cases ha : a.size ≤ capacity - written.size
    · have hroom : capacity - (written.size + a.size) = capacity - written.size - a.size := by omega
      have hfit : a.extract 0 (capacity - written.size) = a := by
        apply ByteArray.ext
        rw [ByteArray.data_extract]
        exact Array.extract_eq_self_of_le ha
      simp only [ha, if_true, ByteArray.size_append, hroom]
      by_cases hb : a.size + b.size ≤ capacity - written.size
      · have hb' : b.size ≤ capacity - written.size - a.size := by omega
        simp only [hb, hb', if_true, ByteArray.append_assoc]
      · have hb' : ¬ b.size ≤ capacity - written.size - a.size := by omega
        simp only [hb, hb', if_false, ByteArray.extract_append, Nat.zero_sub, hfit,
          ByteArray.append_assoc]
    · have hab : ¬ a.size + b.size ≤ capacity - written.size := by omega
      have hzero : capacity - written.size - a.size = 0 := by omega
      have hempty : b.extract 0 0 = .empty := by simp
      simp only [ha, hab, if_false, ByteArray.extract_append, Nat.zero_sub, hzero, hempty,
        ByteArray.append_empty, Bool.false_eq_true]

end Output

namespace Console

def limit (capacity : Nat) (c : Console) : Console := { c with output := c.output.limit capacity }

def filled (capacity : Nat) (bytes : ByteArray) (c : Console) : Console :=
  { c with output := { c.output.limit capacity with written := bytes.extract 0 capacity } }

variable {c d : Console}

theorem output_flush (c : Console) : (flush.run c).2.output = c.output.flush.2 := by
  rw [flush_eq]
  split <;> rfl

theorem Leads.grows {K : Set Effect} (h : c.Leads K d) : c.output.Grows d.output := by
  refine h.holds (R := fun c d => c.output.Grows d.output) (fun c => .refl c.output) .trans
    (fun _ text c => ?_) (fun c => ?_) (fun c => .refl c.output) (fun _ c => .refl c.output)
    fun f c => .refl c.output
  · exact Output.grows_write text.toByteArray c.output
  · rw [output_flush]
    exact Output.grows_flush c.output

theorem Leads.written {K : Set Effect} (h : c.Leads K d) (hK : .write ∉ K) :
    d.output.written = c.output.written := by
  refine h.holds (R := fun c d => d.output.written = c.output.written) (fun _ => rfl)
    (fun h h' => h'.trans h) (fun hw => absurd hw hK) (fun c => ?_) (fun _ => rfl)
    (fun _ _ => rfl) fun _ _ => rfl
  rw [output_flush]
  rfl

theorem flush_limit (capacity : Nat) (c : Console) : flush.run (c.limit capacity) =
    ((flush.run c).1, (flush.run c).2.limit capacity) := by
  have hfails : (c.limit capacity).output.failingFlush.fails ((c.limit capacity).output.flushes + 1) =
      c.output.failingFlush.fails (c.output.flushes + 1) := rfl
  rw [flush_eq, flush_eq, hfails]
  by_cases hf : c.output.failingFlush.fails (c.output.flushes + 1) = true
  · rw [if_pos hf, if_pos hf]
    rfl
  · rw [if_neg hf, if_neg hf]
    rfl

end Console

def State.limit (capacity : Nat) (s : State) : State := ⟨s.workspace, s.console.limit capacity⟩

namespace Action

variable {α : Type} {x : Action α} {s : State} {capacity : Nat}

theorem Uses.commutes_limit (h : x.Uses Effect.silent) (capacity : Nat) :
    x.Commutes (State.limit capacity) := by
  have transferred {α : Type} {y : ExceptT Failure (StateM Console) α}
      (hy : ∀ c, y.run (c.limit capacity) = ((y.run c).1, (y.run c).2.limit capacity)) :
      (transfer y).Commutes (State.limit capacity) :=
    commutes_transfer id hy
  have hflush : flush.Commutes (State.limit capacity) := transferred (Console.flush_limit capacity)
  refine h.commutes (fun y s => rfl) fun e he γ y hy => ?_
  cases hy with
  | store x => exact fun _ => rfl
  | write text => exact absurd rfl he
  | flush => exact hflush
  | read => exact hflush.bind fun _ => transferred fun _ => rfl
  | draw => exact fun _ => rfl
  | command f => exact hflush.bind fun _ => fun _ => rfl

/-- What a state is after an action at it that found the place for the output full, where without the
limit it had come to `u`. -/
structure Stuck (capacity : Nat) (s u t : State) : Prop where
  store : t.workspace.store = s.workspace.store
  console : t.console = s.console.filled capacity u.console.output.written

def Limited (capacity : Nat) (x : Action α) (s : State) : Prop :=
  let u := (x.run s).2
  (u.console.output.written.size ≤ capacity ∧
    x.run (s.limit capacity) = ((x.run s).1, u.limit capacity)) ∨
  (capacity < u.console.output.written.size ∧ ∃ t, Stuck capacity s u t ∧
    x.run (s.limit capacity) = (.error (.error (.inputOutput .sinkFull)), t))

theorem Uses.limited (h : x.Uses Effect.silent) (hs : s.console.output.written.size ≤ capacity) :
    Limited capacity x s := by
  refine .inl ⟨?_, h.commutes_limit capacity s⟩
  rwa [(h.leads s).written fun hK => hK rfl]

theorem run_write (text : String) (s : State) : (write text).run s =
    (if (s.console.output.write text.toByteArray).1 then .ok ()
      else .error (.error (.inputOutput .sinkFull)),
      ⟨s.workspace, { s.console with output := (s.console.output.write text.toByteArray).2 }⟩) := by
  have hw : (write text).run s = _ := run_transfer (Console.write text) s
  rw [hw, Console.write_eq]
  cases (s.console.output.write text.toByteArray).1 <;> rfl

theorem write_append (a b : String) : write (a ++ b) = (write a >>= fun _ => write b) := by
  funext s
  have ha := run_write a s
  have hab : (write (a ++ b)).run s = (write a >>= fun _ => write b).run s := by
    rw [run_write, String.toByteArray_append, Output.write_append]
    by_cases h : (s.console.output.write a.toByteArray).1 = true
    · rw [if_pos h] at ha
      rw [run_bind_of_ok ha, run_write, if_pos h]
    · rw [if_neg h] at ha
      rw [run_bind_of_error ha, if_neg h]
      rfl
  exact hab

/-- A text may be written in any pieces: the output, and whether all of it fits, are the same. -/
theorem write_join (texts : List String) : write (String.join texts) = texts.forM write := by
  induction texts with
  | nil =>
    funext s
    have hnil : (write "").run s = (pure () : Action Unit).run s := by
      rw [run_write, String.toByteArray_empty, Output.write_empty]
      rfl
    exact hnil
  | cons text texts ih =>
    rw [String.join_cons, write_append, ih]
    rfl

theorem display_join (texts : List String) : display (String.join texts) = (do
    texts.forM write
    flush
    return .null) := by
  rw [display, write_join]

theorem output_eq_pieces (v : Value) : output v = (do
    let s ← toStr v
    if s.text.endsWith "\\" then display (s.text.dropEnd 1).copy
    else
      write s.text
      write "\n"
      return .null) := by
  unfold output
  congr 1
  funext s
  split
  · rfl
  · rw [write_append, bind_assoc]

theorem limited_write (text : String) (hx : x.Uses Effect.silent) (hu : s.console.output.Unlimited)
    (hs : s.console.output.written.size ≤ capacity) :
    Limited capacity (write text >>= fun _ => x) s := by
  let data := text.toByteArray
  let u : State := ⟨s.workspace, { s.console with output := (s.console.output.write data).2 }⟩
  have hrun : (write text).run s = (.ok (), u) := by
    have hall : (s.console.output.write data).1 = true := by rw [hu.write_eq]
    rw [run_write, if_pos hall]
  -- the write is the only one, so whether all fits is decided at `u`
  have hwritten : (x.run u).2.console.output.written = u.console.output.written :=
    (hx.leads u).written fun hK => hK rfl
  have hlimit := run_write text (s.limit capacity)
  unfold Limited
  rw [run_bind_of_ok hrun]
  by_cases hfit : u.console.output.written.size ≤ capacity
  · left
    have hw : (s.limit capacity).console.output.write data = _ := hu.write_fits hfit
    rw [hw] at hlimit
    have hu' : (write text).run (s.limit capacity) = (.ok (), u.limit capacity) := hlimit
    rw [run_bind_of_ok hu', hwritten]
    exact ⟨hfit, hx.commutes_limit capacity u⟩
  · right
    have hfull : capacity < u.console.output.written.size := Nat.lt_of_not_le hfit
    have hw : (s.limit capacity).console.output.write data = _ := hu.write_full hs hfull
    rw [hw] at hlimit
    rw [hwritten]
    refine ⟨hfull, ⟨s.workspace, s.console.filled capacity u.console.output.written⟩, ?_, ?_⟩
    · exact ⟨rfl, by rw [hwritten]⟩
    · exact run_bind_of_error hlimit

theorem Turn.limited (h : x.Turn) (hu : s.console.output.Unlimited)
    (hs : s.console.output.written.size ≤ capacity) : Limited capacity x s := by
  induction h generalizing s with
  | silent h => exact h.limited hs
  | @prepare _ _ x f h _ ih =>
    have hconsole := h.console_eq s
    have hstore := h.store_eq (Set.notMem_empty _) s
    have hcommutes := (h.mono (Set.empty_subset _)).commutes_limit capacity s
    rcases hr : x.run s with ⟨stop | a, u⟩
    · rw [hr] at hconsole hcommutes
      unfold Limited
      rw [run_bind_of_error hr, run_bind_of_error hcommutes]
      exact .inl ⟨by rwa [hconsole], rfl⟩
    · rw [hr] at hconsole hstore hcommutes
      have ha := ih a (s := u) (by rwa [hconsole]) (by rwa [hconsole])
      unfold Limited at ha ⊢
      rw [run_bind_of_ok hr, run_bind_of_ok hcommutes]
      rcases ha with ha | ⟨hfull, t, ht, ha⟩
      · exact .inl ha
      · refine .inr ⟨hfull, t, ⟨ht.store.trans hstore, ?_⟩, ha⟩
        rw [ht.console, hconsole]
  | write text h => exact limited_write text h hu hs

end Action

def Config.limit (capacity : Nat) (c : Config) : Config :=
  ⟨c.control, c.frames, c.state.limit capacity⟩

def Step.limit (capacity : Nat) : Step → Step
  | .next c => .next (c.limit capacity)
  | .halt result s => .halt result (s.limit capacity)

namespace Machine

variable {around : Surroundings} {c : Config} {capacity : Nat}

theorem step_limited (around : Surroundings) (hu : c.state.console.output.Unlimited)
    (hc : c.state.console.output.written.size ≤ capacity) :
    let u := (step around c).state
    (u.console.output.written.size ≤ capacity ∧
      step around (c.limit capacity) = (step around c).limit capacity) ∨
    (capacity < u.console.output.written.size ∧ ∃ t, Action.Stuck capacity c.state u t ∧
      step around (c.limit capacity) = .halt (.error (.error (.inputOutput .sinkFull))) t) := by
  obtain ⟨control, frames, s⟩ := c
  obtain ⟨m, hm, hs⟩ := exists_step_eq_perform around control frames
  have hlimited : Action.Limited capacity m s := hm.limited hu hc
  dsimp only [Config.limit]
  rw [hs, hs, state_perform]
  unfold perform
  rcases hlimited with ⟨hfit, hrun⟩ | ⟨hfull, t, ht, hrun⟩
  · left
    refine ⟨hfit, ?_⟩
    rcases hr : m.run s with ⟨stop | move, u⟩
    · rw [hr] at hrun
      rw [after_of_error hr, after_of_error hrun]
      rfl
    · rw [hr] at hrun
      rw [after_of_ok hr, after_of_ok hrun]
      cases move <;> rfl
  · right
    exact ⟨hfull, t, ht, after_of_error hrun⟩

/-- Where a run would write more than fits, it ends at the step that does. -/
structure Ends (around : Surroundings) (capacity : Nat) (c : Config) (bytes : ByteArray) (e : Config)
    (t : State) : Prop where
  reaches : Reaches around c e
  fits : e.state.console.output.written.size ≤ capacity
  exceeds : capacity < (step around e).state.console.output.written.size
  store : t.workspace.store = e.state.workspace.store
  console : t.console = e.state.console.filled capacity bytes

theorem advance_limited (around : Surroundings) (fuel : Nat)
    (hu : c.state.console.output.Unlimited) (hc : c.state.console.output.written.size ≤ capacity) :
    let u := (advance around fuel c).2
    (u.console.output.written.size ≤ capacity →
      advance around fuel (c.limit capacity) = ((advance around fuel c).1, u.limit capacity)) ∧
    (capacity < u.console.output.written.size → ∃ e t,
      Ends around capacity c u.console.output.written e t ∧
      advance around fuel (c.limit capacity) =
        (some (.error (.error (.inputOutput .sinkFull))), t)) := by
  induction fuel generalizing c with
  | zero =>
    refine ⟨fun _ => rfl, fun hfull => ?_⟩
    have hc' : (advance around 0 c).2.console.output.written.size ≤ capacity := hc
    omega
  | succ fuel ih =>
    have hlimited := step_limited around hu hc
    cases hstep : step around c with
    | halt result u =>
      have ha : advance around (fuel + 1) c = (some result, u) := by simp only [advance, hstep]
      rw [hstep] at hlimited
      rw [ha]
      rcases hlimited with ⟨hfit, hl⟩ | ⟨hfull, t, ht, hl⟩
      · refine ⟨fun _ => ?_, fun hfull => absurd hfit (Nat.not_le.2 hfull)⟩
        simp only [advance, hl, Step.limit]
      · refine ⟨fun hfit => absurd hfit (Nat.not_le.2 hfull), fun _ => ⟨c, t, ?_, ?_⟩⟩
        · exact ⟨.refl, hc, by rw [hstep]; exact hfull, ht.store, ht.console⟩
        · simp only [advance, hl]
    | next e =>
      have ha : advance around (fuel + 1) c = advance around fuel e := by simp only [advance, hstep]
      have hgrows := (leads_advance around fuel e).grows
      have hle : c.state.console.output.Grows e.state.console.output := by
        have hl := (leads_step around c).grows
        rwa [hstep] at hl
      rw [hstep] at hlimited
      rw [ha]
      rcases hlimited with ⟨hfit, hl⟩ | ⟨hfull, t, ht, hl⟩
      · have hadvance : advance around (fuel + 1) (c.limit capacity) =
            advance around fuel (e.limit capacity) := by simp only [advance, hl, Step.limit]
        obtain ⟨hfits, hfulls⟩ := ih (hle.unlimited hu) hfit
        rw [hadvance]
        refine ⟨hfits, fun hfull => ?_⟩
        obtain ⟨d, t, hd, ht⟩ := hfulls hfull
        exact ⟨d, t, ⟨hd.reaches.head hstep, hd.fits, hd.exceeds, hd.store, hd.console⟩, ht⟩
      · -- without the limit the run goes on from `e`, and only adds to what is already too much
        have hsize := hgrows.size_le
        refine ⟨fun hfit => ?_, fun _ => ⟨c, t, ?_, ?_⟩⟩
        · have hfull' : capacity < e.state.console.output.written.size := hfull
          omega
        · refine ⟨.refl, hc, by rw [hstep]; exact hfull, ht.store, ?_⟩
          rw [ht.console]
          have hbytes := hgrows.extract hfull.le
          simp only [Console.filled]
          rw [hbytes]
          rfl
        · simp only [advance, hl]

end Machine

namespace Program

variable {around : Surroundings} {fuel capacity : Nat} {p : Program} {s t : State}
  {result : Except Stop Value}

theorem conclude_limit (capacity : Nat) (result : Except Stop Value) (s : State) :
    conclude result (s.limit capacity) =
      ((conclude result s).1, (conclude result s).2.limit capacity) := by
  have hflushed : flushed result (s.limit capacity) =
      ((flushed result s).1, (flushed result s).2.limit capacity) := by
    have hf : Console.flush.run (s.limit capacity).console = _ :=
      Console.flush_limit capacity s.console
    rw [flushed_eq, flushed_eq, hf]
    rcases Console.flush.run s.console with ⟨failure | _, c⟩ <;> rfl
  rcases result with stop | v
  · cases stop with
    | error e => exact hflushed
    | panic p => rfl
  · exact hflushed

theorem written_conclude (result : Except Stop Value) (s : State) :
    (conclude result s).2.console.output.written = s.console.output.written := by
  rcases conclude_cases result s with ⟨p, -, hc⟩ | hc
  · rw [hc]
  · have hw := congrArg Output.written (Console.output_flush s.console)
    rw [hc, flushed_eq]
    rcases hf : Console.flush.run s.console with ⟨failure | _, c⟩ <;> rwa [hf] at hw

theorem conclude_stuck {capacity : Nat} {c : Console} {bytes : ByteArray} {t : State}
    (hu : c.output.Unlimited) (ht : t.console = c.filled capacity bytes)
    (hb : capacity < bytes.size) {e : RuntimeError} :
    ∃ output, conclude (.error (.error e)) t = (.error (.error e), ⟨t.workspace,
        { c with output, events := .flushed capacity :: c.events }⟩) ∧
      output.written = bytes.extract 0 capacity := by
  have hsize : (bytes.extract 0 capacity).size = capacity := by
    rw [ByteArray.size_extract]
    omega
  have hfails : ¬ (c.filled capacity bytes).output.failingFlush.fails
      ((c.filled capacity bytes).output.flushes + 1) = true := by
    have hf := hu.flushes (c.output.flushes + 1) (Nat.lt_succ_self _)
    exact Bool.not_eq_true _ ▸ hf
  have hconclude : conclude (.error (.error e)) t = flushed (.error (.error e)) t := rfl
  refine ⟨(c.filled capacity bytes).output.flush.2, ?_, rfl⟩
  rw [hconclude, flushed_eq, ht, Console.flush_eq, if_neg hfails]
  have hposition : (c.filled capacity bytes).output.written.size = capacity := hsize
  rw [hposition]
  rfl

/-- A full place for output only cuts a run short. If all that the run writes fits, it makes no
difference. If not, the run fails at the step that writes past the limit, with the first bytes written,
and has done what it would have done without the limit before that step, and nothing else. -/
theorem execute_limit (hu : s.console.output.Unlimited)
    (hs : s.console.output.written.size ≤ capacity)
    (h : p.execute around fuel s = some (result, t)) :
    (t.console.output.written.size ≤ capacity →
      p.execute around fuel (s.limit capacity) = some (result, t.limit capacity)) ∧
    (capacity < t.console.output.written.size → ∃ c output ws,
      Machine.Reaches around (p.opening s) c ∧
      c.state.console.output.written.size ≤ capacity ∧
      capacity < (Machine.step around c).state.console.output.written.size ∧
      p.execute around fuel (s.limit capacity) =
        some (.error (.error (.inputOutput .sinkFull)), ⟨ws, { c.state.console with
          output
          events := .flushed capacity :: c.state.console.events }⟩) ∧
      ws.store = c.state.workspace.store ∧
      output.written = t.console.output.written.extract 0 capacity) := by
  obtain ⟨hfits, hfulls⟩ := Machine.advance_limited (c := p.opening s) around fuel hu hs
  rw [execute_eq] at h
  obtain ⟨r, hr, ht⟩ := Option.map_eq_some_iff.1 h
  have hadvance : p.advance around fuel s = Machine.advance around fuel (p.opening s) := rfl
  have hlimit : p.advance around fuel (s.limit capacity) =
    Machine.advance around fuel ((p.opening s).limit capacity) := rfl
  rw [hadvance] at hr ht
  have hwritten := written_conclude r (Machine.advance around fuel (p.opening s)).2
  rw [ht] at hwritten
  rw [execute_eq, hlimit, hwritten]
  refine ⟨fun hfit => ?_, fun hfull => ?_⟩
  · rw [hfits hfit, Option.map_eq_some_iff]
    exact ⟨r, hr, by rw [conclude_limit, ht]⟩
  · obtain ⟨c, u, hends, hu'⟩ := hfulls hfull
    have hunlimited := (Machine.leads_reaches hends.reaches).grows.unlimited hu
    obtain ⟨output, hc, hw⟩ := conclude_stuck (e := .inputOutput .sinkFull) hunlimited hends.console
      hfull
    refine ⟨c, output, u.workspace, hends.reaches, hends.fits, hends.exceeds, ?_, hends.store, hw⟩
    rw [hu', Option.map_some, hc]

theorem execute_limit_line :
    let around : Surroundings := ⟨fun _ => 0, fun _ _ files => ((.exited 0, []), files)⟩
    let p : Program := ⟨.call 1 "OUTPUT" .output [.literal 0 (.str ⟨"ab", .unique 0⟩)]⟩
    let s : State := ⟨⟨.create { least := 0, greatest := 0 } {}, .empty, 0⟩, {}⟩
    s.console.output.Unlimited ∧ ∃ u,
      p.execute around 5 (s.limit 1) = some (.error (.error (.inputOutput .sinkFull)), u) ∧
      u.console.output.written.data.toList = [97] := by
  intro around p s
  have hu : s.console.output.Unlimited := ⟨rfl, fun _ _ => rfl⟩
  have hrun : ((p.execute around 5 s).map fun r => r.2.console.output.written.data.toList) =
      some [97, 98, 10] := by decide +kernel
  obtain ⟨⟨result, t⟩, h, ht⟩ := Option.map_eq_some_iff.1 hrun
  obtain ⟨-, hfull⟩ := execute_limit hu (Nat.zero_le 1) h
  have hbytes : t.console.output.written = ⟨#[97, 98, 10]⟩ := by
    apply ByteArray.ext
    exact Array.toList_inj.1 ht
  rw [hbytes] at hfull
  obtain ⟨c, output, ws, -, -, -, hlimited, -, hwritten⟩ := hfull (by decide)
  refine ⟨hu, _, hlimited, ?_⟩
  rw [hwritten]
  rfl

end Program

end KnightLang
