import KnightLang.Proofs.Console.Truncation
import KnightLang.Proofs.Execution.Footprint

namespace KnightLang

def Builtin.effects : Builtin → Set Effect
  | output | dump | dumpTree => {.write, .flush}
  | prompt => {.read}
  | random => {.draw}
  | eval => {.store}
  | _ => ∅

def UnaryOp.effects : UnaryOp → Set Effect
  | system => {.flush, .command}
  | _ => ∅

def BinaryOp.effects : BinaryOp → Set Effect
  | assign => {.store}
  | _ => ∅

def Node.effects : Node → Set Effect
  | .literal _ _ => ∅
  | .var _ _ => {.store}
  | .unary _ op _ => op.effects
  | .binary _ op _ _ => op.effects
  | .call _ _ builtin _ => builtin.effects

def Frame.effects : Frame → Set Effect
  | .unary op => op.effects
  | .assign _ => {.store}
  | .argument builtin _ _ => builtin.effects
  | _ => ∅

def effectsOf (F : List Node) : Set Effect := {e | ∃ n ∈ F, e ∈ n.effects}

theorem Frame.Opened.effects_subset {F : List Node} {f : Frame} (h : f.Opened F) :
    f.effects ⊆ effectsOf F := by
  intro e he
  cases f with
  | unary op =>
    obtain ⟨id, n, hn⟩ := h
    exact ⟨_, hn, he⟩
  | assign target =>
    obtain ⟨n, hn, htarget⟩ := h
    refine ⟨n, hn, ?_⟩
    unfold Node.target? at htarget
    split at htarget
    · exact he
    · cases htarget
  | argument builtin args done =>
    obtain ⟨n, hn, hbuiltin⟩ := h
    refine ⟨n, hn, ?_⟩
    unfold Node.builtin? at hbuiltin
    split at hbuiltin
    · obtain rfl := Option.some.inj hbuiltin
      exact he
    · cases hbuiltin
  | _ => exact absurd he id

namespace Machine

variable {K L : Set Effect} {go : State → Step} {frames : List Frame}

theorem Performs.mono (hK : K ⊆ L) (h : Using K go) : Using L go := by
  obtain ⟨m, hm, hs⟩ := h
  exact ⟨m, hm.mono hK, hs⟩

theorem Performs.leads (h : Using K go) (s : State) : s.console.Leads K (go s).state.console := by
  obtain ⟨m, hm, hs⟩ := h
  rw [hs, state_perform]
  exact hm.leads s

theorem uses_apply (builtin : Builtin) (vs : List Value) (frames : List Frame) :
    Using builtin.effects (apply builtin vs frames) := by
  unfold apply
  split
  · exact uses_act (.ascii _)
  · exact uses_force _ _
  · exact uses_act (.display _ (by simp [Builtin.effects]) (by simp [Builtin.effects]))
  · refine uses_after ?_ fun program : Program => uses_eval program.root frames
    exact (Action.Uses.toStr _).bind fun source => .sourceProgram source (by simp [Builtin.effects])
  · exact uses_act (.get _ _ _)
  · exact uses_after (.toStr _) fun _ => uses_give _ _
  · exact uses_act (.output _ (by simp [Builtin.effects]) (by simp [Builtin.effects]))
  · exact uses_after (.toInt _) fun _ => uses_halt _
  · exact uses_act (.substitute _ _ _ _)
  · exact uses_halt _

theorem uses_call (around : Surroundings) (builtin : Builtin) (args : List Node)
    (frames : List Frame) : Using builtin.effects (call around builtin args frames) := by
  cases builtin with
  | block => exact uses_withArgument fun body => uses_give (.block body) frames
  | dumpTree =>
    exact uses_withArgument fun tree =>
      uses_act (.display tree.render (by simp [Builtin.effects]) (by simp [Builtin.effects]))
  | prompt => exact uses_act (.prompt (by simp [Builtin.effects]))
  | random => exact uses_act (.random around (by simp [Builtin.effects]))
  | branch => exact uses_withArgument fun n => uses_eval n _
  | loop => exact uses_withArgument fun n => uses_eval n _
  | _ => exact uses_withArgument fun n => uses_eval n _

theorem uses_enter (around : Surroundings) (n : Node) (frames : List Frame) :
    Using n.effects (enter around n frames) := by
  cases n with
  | literal id v => exact uses_give v frames
  | var id v => exact uses_var (Set.mem_singleton _) around id v frames
  | unary id op operand => exact uses_eval operand _
  | binary id op left right =>
    cases op with
    | assign =>
      cases left with
      | var id v => exact uses_eval right _
      | _ => exact uses_halt _
    | _ => exact uses_eval left _
  | call id word builtin args => exact uses_call around builtin args frames

theorem uses_resume (around : Surroundings) (v : Value) (frame : Frame) (frames : List Frame) :
    Using frame.effects (resume around v frame frames) := by
  cases frame with
  | unary op =>
    cases op with
    | system =>
      exact uses_act (.unary around .system v (by simp [Frame.effects, UnaryOp.effects])
        (by simp [Frame.effects, UnaryOp.effects]))
    | not => exact uses_act (.bind (.toBool v) fun _ => .pure _)
    | noop => exact uses_act (.pure _)
  | left op right => exact uses_eval right _
  | right op left => exact uses_act (.binary left v op)
  | chain next => exact uses_eval next frames
  | and right =>
    refine uses_decided v fun b => ?_
    cases b with
    | true => exact uses_eval right frames
    | false => exact uses_give v frames
  | or right =>
    refine uses_decided v fun b => ?_
    cases b with
    | true => exact uses_give v frames
    | false => exact uses_eval right frames
  | assign target => exact uses_write (by simp [Frame.effects]) target v frames
  | branch args => exact uses_decided v fun b => uses_withArgument fun n => uses_eval n frames
  | loopTest args =>
    refine uses_decided v fun b => ?_
    cases b with
    | true => exact uses_withArgument fun n => uses_eval n _
    | false => exact uses_give .null frames
  | loopBody args => exact uses_withArgument fun n => uses_eval n _
  | argument builtin args done =>
    by_cases hlt : (done ++ [v]).length < builtin.arity
    · have hs : Using builtin.effects fun s => withArgument args (done ++ [v]).length s
          (eval · (.argument builtin args (done ++ [v]) :: frames) s) :=
        uses_withArgument fun n => uses_eval n _
      exact hs.of_eq fun s => if_pos hlt
    · exact (uses_apply builtin (done ++ [v]) frames).of_eq fun s => if_neg hlt

end Machine

theorem Console.Leads.input {K : Set Effect} {c d : Console} (h : c.Leads K d) (hK : .read ∉ K) :
    d.input = c.input := by
  refine h.holds (R := fun c d => d.input = c.input) (fun _ => rfl) (fun h h' => h'.trans h)
    (fun _ _ _ => rfl) (fun c => ?_) (fun _ => rfl) (fun hr => absurd hr hK) fun _ _ => rfl
  rw [flush_eq]
  split <;> rfl

namespace Config.Stays

variable {F : List Node} {around : Surroundings} {c e : Config}

theorem leads_step (h : c.Stays F) (around : Surroundings) :
    c.state.console.Leads (effectsOf F) (Machine.step around c).state.console := by
  obtain ⟨control, frames, s⟩ := c
  cases control with
  | node n =>
    have hn : n.effects ⊆ effectsOf F := fun e he => ⟨n, h.control n n.mem_parts_self, he⟩
    exact ((Machine.uses_enter around n frames).mono hn).leads s
  | value v =>
    cases frames with
    | nil => exact .refl
    | cons frame frames =>
      have hframe := (h.opened frame List.mem_cons_self).effects_subset
      exact ((Machine.uses_resume around v frame frames).mono hframe).leads s

theorem leads_reaches (h : c.Stays F) (hF : ¬ Calls F .eval) (he : Machine.Reaches around c e) :
    c.state.console.Leads (effectsOf F) e.state.console := by
  induction he with
  | refl => exact .refl
  | @tail b e hb hs ih =>
    have hstep := (h.reaches hF hb).leads_step around
    rw [hs] at hstep
    exact ih.trans hstep

theorem leads_advance (h : c.Stays F) (hF : ¬ Calls F .eval) (around : Surroundings) (fuel : Nat) :
    c.state.console.Leads (effectsOf F) (Machine.advance around fuel c).2.console := by
  obtain ⟨e, he, ha | ha⟩ := Machine.exists_state_advance around fuel c
  · rw [ha]
    exact h.leads_reaches hF he
  · rw [ha]
    exact (h.leads_reaches hF he).trans ((h.reaches hF he).leads_step around)

end Config.Stays

theorem Node.exists_builtin {n : Node} {e : Effect} (h : e ∈ n.effects)
    (he : e = .read ∨ e = .write) : ∃ builtin, n.builtin? = some builtin ∧ e ∈ builtin.effects := by
  cases n with
  | call id word builtin args => exact ⟨builtin, rfl, h⟩
  | literal id v => exact h.elim
  | var id v => rcases he with rfl | rfl <;> cases h
  | unary id op operand =>
    cases op <;> rcases he with rfl | rfl <;> simp [effects, UnaryOp.effects] at h
  | binary id op left right =>
    cases op <;> rcases he with rfl | rfl <;> simp [effects, BinaryOp.effects] at h

theorem Builtin.eq_prompt_of_read {builtin : Builtin} (h : .read ∈ builtin.effects) :
    builtin = .prompt := by
  cases builtin <;> simp [effects] at h ⊢

theorem calls_of_read {F : List Node} (h : .read ∈ effectsOf F) : Calls F .prompt := by
  obtain ⟨n, hn, he⟩ := h
  obtain ⟨builtin, hb, he⟩ := Node.exists_builtin he (.inl rfl)
  obtain rfl := Builtin.eq_prompt_of_read he
  exact ⟨n, hn, hb⟩

theorem calls_of_write {F : List Node} (h : .write ∈ effectsOf F) :
    Calls F .output ∨ Calls F .dump ∨ Calls F .dumpTree := by
  obtain ⟨n, hn, he⟩ := h
  obtain ⟨builtin, hb, he⟩ := Node.exists_builtin he (.inr rfl)
  have hbuiltin : builtin = .output ∨ builtin = .dump ∨ builtin = .dumpTree := by
    cases builtin <;> simp [Builtin.effects] at he ⊢
  rcases hbuiltin with rfl | rfl | rfl
  · exact .inl ⟨n, hn, hb⟩
  · exact .inr (.inl ⟨n, hn, hb⟩)
  · exact .inr (.inr ⟨n, hn, hb⟩)

/-- From one state to another nothing happened but what the trees name. -/
structure State.Spares (F : List Node) (s t : State) : Prop where
  store : s.workspace.store.Spares F t.workspace.store
  input (h : ¬ Calls F .prompt) : t.console.input = s.console.input
  written (h : ¬ (Calls F .output ∨ Calls F .dump ∨ Calls F .dumpTree)) :
    t.console.output.written = s.console.output.written

theorem State.Spares.of_leads {F : List Node} {s t : State}
    (h : s.workspace.store.Spares F t.workspace.store)
    (hl : s.console.Leads (effectsOf F) t.console) : s.Spares F t where
  store := h
  input hn := hl.input (mt calls_of_read hn)
  written hn := hl.written (mt calls_of_write hn)

theorem State.Spares.conclude {F : List Node} {s t : State} (h : s.Spares F t)
    (result : Except Stop Value) : s.Spares F (Program.conclude result t).2 where
  store := by
    rw [Program.workspace_conclude]
    exact h.store
  input hn := (Program.input_conclude result t).trans (h.input hn)
  written hn := (Program.written_conclude result t).trans (h.written hn)

namespace Session

/-- Where no part of the footprint is an `EVAL`, a run spares what these parts do not name, at every
step and in the end, whether it comes to a value, an error or a panic. -/
theorem runs_spare_what_no_tree_names (acts : List Act) {root : Node}
    (hroot : (run acts).Runs root) (around : Surroundings) (ws : Workspace) (console : Console)
    (heval : ¬ Calls ((run acts).store.footprint root) .eval) :
    let start : State := ⟨ws.withStore (run acts).store, console⟩
    let F := (run acts).store.footprint root
    (∀ c, Machine.Reaches around (Program.opening ⟨root⟩ start) c → start.Spares F c.state) ∧
      ∀ fuel result t, Program.execute around fuel ⟨root⟩ start = some (result, t) →
        start.Spares F t := by
  intro start F
  have hstays : (Program.opening ⟨root⟩ start).Stays F := Config.Stays.opening ⟨root⟩ start
  have hkeyed : (Program.opening ⟨root⟩ start).state.workspace.store.Keyed := keyed_run acts
  have hlinked : start.workspace.store.linking.OfConfig (Program.opening ⟨root⟩ start) :=
    ⟨node_of_runs (Store.enduring_linking.run acts) hroot, nofun,
      (Store.enduring_linking.run acts).store⟩
  constructor
  · intro c hc
    exact .of_leads (hstays.spares_reaches heval hkeyed hlinked hc) (hstays.leads_reaches heval hc)
  · intro fuel result t h
    rw [Program.execute_eq] at h
    obtain ⟨r, -, hr⟩ := Option.map_eq_some_iff.1 h
    have hrun : start.Spares F (Program.advance around fuel ⟨root⟩ start).2 :=
      .of_leads (hstays.spares_advance heval hkeyed hlinked fuel)
        (hstays.leads_advance heval around fuel)
    have hend := hrun.conclude r
    rwa [hr] at hend

theorem runs_spare_what_no_tree_names_count :
    let around : Surroundings := ⟨fun _ => 0, fun _ _ files => ((.exited 0, []), files)⟩
    let acts : List Act := [.parse "; = x 0 = y 5" .fresh, .parse "CALL BLOCK = x + x 1" .fresh]
    let s := run acts
    ∃ root ∈ s.trees, ¬ Calls (s.store.footprint root) .eval ∧
      Assigns (s.store.footprint root) "x" ∧ ¬ Assigns (s.store.footprint root) "y" ∧
      ∀ fuel result t, Program.execute around fuel ⟨root⟩ ⟨Workspace.fresh.withStore s.store, {}⟩ =
        some (result, t) → t.workspace.store.value? "y" = s.store.value? "y" := by
  intro around acts
  have hnames : (run acts).trees[1]?.map (fun root =>
      let F := (run acts).store.footprint root
      (decide (Calls F .eval), decide (Assigns F "x"), decide (Assigns F "y"))) =
        some (false, true, false) := by decide +kernel
  have hspares (root : Node) (hr : (run acts).Runs root) :=
    runs_spare_what_no_tree_names acts hr around .fresh {}
  generalize run acts = s at hnames hspares ⊢
  intro s
  obtain ⟨root, hroot, hnames⟩ := Option.map_eq_some_iff.1 hnames
  have hmem : root ∈ s.trees := List.mem_of_getElem? hroot
  simp only [Prod.mk.injEq, decide_eq_true_eq, decide_eq_false_iff_not] at hnames
  obtain ⟨heval, hx, hy⟩ := hnames
  refine ⟨root, hmem, heval, hx, hy, fun fuel result t ht => ?_⟩
  exact ((hspares root (.held hmem) heval).2 fuel result t ht).store.values hy

end Session

end KnightLang
