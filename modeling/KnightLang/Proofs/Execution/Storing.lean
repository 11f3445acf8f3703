import KnightLang.Proofs.Execution.Keeping
import KnightLang.Proofs.Execution.Reaching
import KnightLang.Proofs.Grammar.Trees

namespace KnightLang

open Workspace

def Store.lookupAll (s : Store) (names : List String) : Store :=
  names.foldl (fun s name => ((Store.lookup name : StateM Store Variable) s).2) s

theorem Store.widens_lookupAll (s : Store) (names : List String) : s.Widens (s.lookupAll names) := by
  induction names generalizing s with
  | nil => exact .refl s
  | cons name names ih => exact (s.lookup_widens name).trans (ih _)

def Workspace.LooksUp {α : Type} (N : String → Prop) (x : StateM Workspace α) : Prop :=
  ∀ ws : Workspace, ∃ names : List String, (∀ name ∈ names, N name) ∧
    (x ws).2.store = ws.store.lookupAll names

namespace Workspace.LooksUp

variable {α β : Type} {N N' : String → Prop} {x : StateM Workspace α} {f : α → StateM Workspace β}

theorem mono (h : LooksUp N x) (hN : ∀ name, N name → N' name) : LooksUp N' x := by
  intro ws
  obtain ⟨names, hn, hs⟩ := h ws
  exact ⟨names, fun name hm => hN name (hn name hm), hs⟩

theorem pure (a : α) : LooksUp N (pure a : StateM Workspace α) := fun _ => ⟨[], nofun, rfl⟩

theorem bind (h : LooksUp N x) (hf : ∀ a, LooksUp N (f a)) : LooksUp N (x >>= f) := by
  intro ws
  obtain ⟨names, hn, hs⟩ := h ws
  obtain ⟨more, hm, hs'⟩ := hf (x ws).1 (x ws).2
  refine ⟨names ++ more, List.forall_mem_append.2 ⟨hn, hm⟩, ?_⟩
  rw [Store.lookupAll, List.foldl_append]
  exact hs'.trans (congrArg (·.lookupAll more) hs)

theorem number : LooksUp N number := fun _ => ⟨[], nofun, rfl⟩

theorem onStrings (x : StateM Interner α) : LooksUp N (Workspace.onStrings x) :=
  fun _ => ⟨[], nofun, rfl⟩

theorem lookup {name : String} (h : N name) : LooksUp N (onStore (Store.lookup name)) :=
  fun _ => ⟨[name], by simpa using h, rfl⟩

end Workspace.LooksUp

namespace Parse

theorem looksUp_start (l : Lexeme) : LooksUp (fun name => l.token = .name name) (start l) := by
  have numbered {N : String → Prop} (n : Nat → Node) : LooksUp N
      (do return .ok (.inr (n (← number))) : StateM Workspace (Except CompileError (Pending ⊕ Node))) :=
    .bind .number fun _ => .pure _
  unfold start
  cases l.token with
  | integer digits =>
    dsimp only
    split
    · exact numbered _
    · exact .pure _
  | text content => exact .bind (.onStrings _) fun _ => numbered _
  | name spelling => exact .bind (.lookup rfl) fun _ => numbered _
  | word spelling =>
    dsimp only
    split
    · exact .pure _
    · split
      · exact numbered _
      · exact .pure _
  | unary op => exact .pure _
  | binary op => exact .pure _
  | _ => exact numbered _

theorem looksUp_deliver {N : String → Prop} (n : Node) (stack : List Pending) :
    LooksUp N (deliver n stack) := by
  induction stack generalizing n with
  | nil => exact .pure _
  | cons p stack ih =>
    cases p with
    | unary op => exact .bind .number fun _ => ih _
    | left op => exact .pure _
    | right op left => exact .bind .number fun _ => ih _
    | call word builtin done more =>
      cases more with
      | zero => exact .bind .number fun _ => ih _
      | succ more => exact .pure _

theorem looksUp_finish (length : Nat) (stack : List Pending) (ls : List Lexeme) :
    LooksUp (fun name => .name name ∈ ls.map Lexeme.token) (finish length stack ls) := by
  induction ls generalizing stack with
  | nil => cases stack <;> exact .pure _
  | cons l rest ih =>
    have hrest (stack : List Pending) :
        LooksUp (fun name => .name name ∈ (l :: rest).map Lexeme.token) (finish length stack rest) :=
      (ih stack).mono fun name hn => List.mem_cons_of_mem _ hn
    rw [finish_cons]
    refine .bind ((looksUp_start l).mono fun name hn => ?_) fun started => ?_
    · exact hn ▸ List.mem_cons_self
    cases started with
    | error e => exact .pure _
    | ok started =>
      cases started with
      | inl pending => exact hrest _
      | inr n =>
        refine .bind (looksUp_deliver n stack) fun delivered => ?_
        cases delivered with
        | inl root => exact .pure _
        | inr stack => exact hrest stack

end Parse

def Token.Mentions (source name : String) : Prop :=
  ∃ ls, scan source = .ok ls ∧ .name name ∈ ls.map Lexeme.token

theorem Program.looksUp_parse (source : String) :
    LooksUp (Token.Mentions source) (Program.parse source) := by
  unfold Program.parse
  cases hs : Token.scan source with
  | error e => exact .pure _
  | ok ls =>
    refine .bind ((Parse.looksUp_finish _ _ ls).mono fun name hn => ⟨ls, hs, hn⟩) fun parsed => ?_
    cases parsed <;> exact .pure _

theorem Program.widens_parse (source : String) (ws : Workspace) :
    ws.store.Widens (Program.parse source ws).2.store := by
  obtain ⟨names, -, hs⟩ := Program.looksUp_parse source ws
  rw [hs]
  exact ws.store.widens_lookupAll names

theorem Program.widens_of_parse {source : String} {ws ws' : Workspace}
    {parsed : Except CompileError Program} (h : Program.parse source ws = (parsed, ws')) :
    ws.store.Widens ws'.store := by
  have hw := Program.widens_parse source ws
  rwa [h] at hw

theorem Store.slots_of_write {target : Variable} {v u : Value} {s : Store} {k : Nat}
    (h : ((Store.write target v : StateM Store Unit) s).2.slots[k]?.join = some u) :
    u = v ∨ s.slots[k]?.join = some u := by
  rw [Store.write_eq, Array.getElem?_setIfInBounds] at h
  split at h
  · split at h
    · exact .inl (Option.some.inj h).symm
    · cases h
  · exact .inr h

namespace Action

inductive Finds (source : Str) (s : State) : Except Stop Program → State → Prop
  | known {e : Str × Program} (h : s.workspace.store.programs[source.identity.key]? = some e) :
      Finds source s (.ok e.2) s
  | parsed {q : Program} {ws : Workspace}
      (h : s.workspace.store.programs[source.identity.key]? = none)
      (hp : Program.parse source.text s.workspace = (.ok q, ws)) :
      Finds source s (.ok q) ⟨{ ws with store := { ws.store with
        programs := ws.store.programs.insert source.identity.key (source, q) } }, s.console⟩
  | wrong {e : CompileError} {ws : Workspace}
      (h : s.workspace.store.programs[source.identity.key]? = none)
      (hp : Program.parse source.text s.workspace = (.error e, ws)) :
      Finds source s (.error (.error (.ofCompileError e))) ⟨ws, s.console⟩

theorem onWorkspace_eq {α : Type} (x : StateM Workspace α) (s : State) :
    onWorkspace x s = (.ok (x s.workspace).1, ⟨(x s.workspace).2, s.console⟩) := rfl

theorem run_read? (v : Variable) (s : State) : (onStore (Store.read? v)).run s =
    (.ok s.workspace.store.slots[v.slot]?.join, s) := rfl

theorem finds_sourceProgram (source : Str) (s : State) :
    Finds source s ((sourceProgram source).run s).1 ((sourceProgram source).run s).2 := by
  simp only [sourceProgram, bind, ExceptT.bind, ExceptT.mk, StateT.bind, onStore, onWorkspace_eq,
    Workspace.onStore, Store.program?_eq, ExceptT.run, ExceptT.bindCont]
  cases h : s.workspace.store.programs[source.identity.key]? with
  | some e => exact .known h
  | none =>
    rcases hp : Program.parse source.text s.workspace with ⟨e | q, ws⟩
    · simp only [Option.map_none, StateT.bind, onWorkspace_eq, hp]
      exact .wrong h hp
    · simp only [Option.map_none, StateT.bind, onWorkspace_eq, hp]
      exact .parsed h hp

end Action

namespace Machine

/-- What a step does to the store: nothing, or the value at hand is assigned, or a program is found for
the string that it stands for. -/
inductive Stores (c : Config) (t : State) : Prop
  | keeps (h : t.workspace.store = c.state.workspace.store)
  | assigns (target : Variable) {v : Value} {frames : List Frame} (hc : c.control = .value v)
      (hf : c.frames = .assign target :: frames)
      (h : t.workspace.store =
        ((Store.write target v : StateM Store Unit) c.state.workspace.store).2)
  | finds {v : Value} {source : Str} {s : State} {result : Except Stop Program} {args : List Node}
      {frames : List Frame} (hc : c.control = .value v)
      (hf : c.frames = .argument .eval args [] :: frames)
      (hv : (Action.toStr v).run c.state = (.ok source, s))
      (h : Action.Finds source s result t)

section

variable {α : Type} {x : Action α} {Q : α → Prop} {R : Stop → Prop} {s : State}
  {frames : List Frame}

theorem after_cases {P : Step → Prop} {go : α → State → Step} (h : x.Keeps Q R)
    (hok : ∀ a t, t.workspace.store = s.workspace.store → Q a → P (go a t))
    (hstop : ∀ stop t, t.workspace.store = s.workspace.store → R stop → P (.halt (.error stop) t)) :
    P (after x s go) := by
  obtain ⟨hs, hr⟩ := h s
  unfold after
  simp only [ExceptT.run] at hs hr
  generalize x s = r at hs hr ⊢
  obtain ⟨stop | a, t⟩ := r
  · exact hstop stop t hs hr
  · exact hok a t hs hr

theorem store_after {go : α → State → Step} (h : x.Keeps Q R)
    (hgo : ∀ a t, (go a t).state.workspace.store = t.workspace.store) :
    (after x s go).state.workspace.store = s.workspace.store :=
  after_cases (P := fun step => step.state.workspace.store = s.workspace.store) h
    (fun a t ht _ => (hgo a t).trans ht) fun _ _ ht _ => ht

theorem store_withArgument {args : List Node} {i : Nat} {go : Node → Step}
    (hgo : ∀ n, (go n).state.workspace.store = s.workspace.store) :
    (withArgument args i s go).state.workspace.store = s.workspace.store := by
  unfold withArgument
  split
  · exact hgo _
  · rfl

theorem store_force (v : Value) :
    (force v frames s).state.workspace.store = s.workspace.store := by
  cases v <;> rfl

theorem store_apply (builtin : Builtin) (vs : List Value) :
    (apply builtin vs frames s).state.workspace.store = s.workspace.store ∨
      ∃ v, builtin = .eval ∧ vs = [v] := by
  unfold apply
  split
  · exact .inl (store_after (.ascii _) fun _ _ => rfl)
  · exact .inl (store_force _)
  · exact .inl (store_after (R := Stop.Due []) (.display _) fun _ _ => rfl)
  · exact .inr ⟨_, rfl, rfl⟩
  · exact .inl (store_after (.get _ _ _) fun _ _ => rfl)
  · exact .inl (store_after (.toStr_self _) fun _ _ => rfl)
  · exact .inl (store_after (.output _) fun _ _ => rfl)
  · exact .inl (store_after (.toInt (List.mem_singleton.2 rfl)) fun _ _ => rfl)
  · exact .inl (store_after (.substitute _ _ _ _) fun _ _ => rfl)
  · exact .inl rfl

theorem store_call (around : Surroundings) (builtin : Builtin) (args : List Node) :
    (call around builtin args frames s).state.workspace.store = s.workspace.store := by
  cases builtin with
  | dumpTree => exact store_withArgument fun n => store_after (R := Stop.Due []) (.display _) fun _ _ => rfl
  | prompt => exact store_after (R := Stop.Due []) .prompt fun _ _ => rfl
  | random =>
    have h : (Action.random around).Keeps _ (Stop.Due []) := .random around
    refine store_after (s := s) h (?_ : ∀ v t, (give v frames t).state.workspace.store = _)
    exact fun _ _ => rfl
  | _ => exact store_withArgument fun _ => rfl

theorem enter_var_of_some {around : Surroundings} {id : Nat} {v : Variable} {value : Value}
    (h : s.workspace.store.slots[v.slot]?.join = some value) :
    enter around (.var id v) frames s = force value frames s := by
  have hr := Action.run_read? v s
  rw [h] at hr
  rw [enter, after_of_ok hr]

theorem enter_var_of_none {around : Surroundings} {id : Nat} {v : Variable}
    (h : s.workspace.store.slots[v.slot]?.join = none) :
    enter around (.var id v) frames s = .halt (.error (.error (.undefinedVariable v.name))) s := by
  have hr := Action.run_read? v s
  rw [h] at hr
  rw [enter, after_of_ok hr]

theorem store_enter (around : Surroundings) (n : Node) :
    (enter around n frames s).state.workspace.store = s.workspace.store := by
  cases n with
  | literal id v => rfl
  | var id v =>
    cases hv : s.workspace.store.slots[v.slot]?.join with
    | some value =>
      rw [enter_var_of_some hv]
      exact store_force value
    | none =>
      rw [enter_var_of_none hv]
      rfl
  | unary id op operand => rfl
  | binary id op left right =>
    cases op with
    | assign => cases left <;> rfl
    | _ => rfl
  | call id word builtin args => exact store_call around builtin args

end

inductive Evals (v : Value) (frames : List Frame) (s : State) : Step → Prop
  | unfit {stop : Stop} {t : State} (hv : (Action.toStr v).run s = (.error stop, t)) :
      Evals v frames s (.halt (.error stop) t)
  | found {source : Str} {q : Program} {t u : State} (hv : (Action.toStr v).run s = (.ok source, t))
      (h : Action.Finds source t (.ok q) u) : Evals v frames s (.next ⟨.node q.root, frames, u⟩)
  | wrong {source : Str} {stop : Stop} {t u : State}
      (hv : (Action.toStr v).run s = (.ok source, t)) (h : Action.Finds source t (.error stop) u) :
      Evals v frames s (.halt (.error stop) u)

theorem evals_apply (v : Value) (frames : List Frame) (s : State) :
    Evals v frames s (apply .eval [v] frames s) := by
  change Evals v frames s (after (Action.toStr v >>= Action.sourceProgram) s
    fun q t => eval q.root frames t)
  rcases hv : (Action.toStr v).run s with ⟨stop | source, t⟩
  · rw [after_of_error (Action.run_bind_of_error hv)]
    exact .unfit hv
  · have h := Action.finds_sourceProgram source t
    have hrun := Action.run_bind_of_ok (f := Action.sourceProgram) hv
    rcases hp : (Action.sourceProgram source).run t with ⟨stop | q, u⟩
    · rw [after_of_error (hrun.trans hp)]
      rw [hp] at h
      exact .wrong hv h
    · rw [after_of_ok (hrun.trans hp)]
      rw [hp] at h
      exact .found hv h

theorem stores_source (args : List Node) (frames : List Frame) (s : State) (v : Value) :
    Stores ⟨.value v, .argument .eval args [] :: frames, s⟩ (apply .eval [v] frames s).state := by
  have h := evals_apply v frames s
  generalize apply .eval [v] frames s = step at h ⊢
  cases h with
  | unfit hv => exact .keeps (Action.store_of_toStr hv)
  | found hv h => exact .finds rfl rfl hv h
  | wrong hv h => exact .finds rfl rfl hv h

theorem stores_resume (around : Surroundings) (v : Value) (frame : Frame) (frames : List Frame)
    (s : State) : Stores ⟨.value v, frame :: frames, s⟩ (resume around v frame frames s).state := by
  have decided {go : Bool → State → Step}
      (hgo : ∀ b t, (go b t).state.workspace.store = t.workspace.store) :
      Stores ⟨.value v, frame :: frames, s⟩ (after (Action.toBool v) s go).state :=
    .keeps (store_after (.toBool (List.mem_singleton.2 rfl)) hgo)
  cases frame with
  | unary op => exact .keeps (store_after (.unary v around op) fun _ _ => rfl)
  | right op left => exact .keeps (store_after (.binary left v op) fun _ _ => rfl)
  | and right => exact decided fun b _ => by cases b <;> rfl
  | or right => exact decided fun b _ => by cases b <;> rfl
  | assign target => exact .assigns target rfl rfl rfl
  | branch args => exact decided fun _ _ => store_withArgument fun _ => rfl
  | loopTest args =>
    refine decided fun b _ => ?_
    cases b with
    | true => exact store_withArgument fun _ => rfl
    | false => rfl
  | loopBody args => exact .keeps (store_withArgument fun _ => rfl)
  | argument builtin args done =>
    simp only [resume]
    split
    · exact .keeps (store_withArgument fun _ => rfl)
    · rcases store_apply builtin (done ++ [v]) with h | ⟨u, rfl, hu⟩
      · exact .keeps h
      · obtain rfl : done = [] := by
          cases done with
          | nil => rfl
          | cons w done => simp at hu
        obtain rfl := List.singleton_inj.1 hu
        exact stores_source _ frames s v
  | left op right => exact .keeps rfl
  | chain next => exact .keeps rfl

theorem stores_step (around : Surroundings) (c : Config) : Stores c (step around c).state := by
  obtain ⟨control, frames, s⟩ := c
  cases control with
  | node n => exact .keeps (store_enter around n)
  | value v =>
    cases frames with
    | nil => exact .keeps rfl
    | cons frame frames => exact stores_resume around v frame frames s

end Machine

end KnightLang
