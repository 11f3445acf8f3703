import KnightLang.Proofs.Execution.Defined
import KnightLang.Proofs.Execution.Reaching
import KnightLang.Proofs.Execution.Storing

namespace KnightLang

open Std (TreeMap)

mutual

/-- Whatever is called anywhere in a value has as many arguments as it needs. -/
inductive Value.Complete : Value → Prop
  | null : Value.Complete .null
  | bool (b : Bool) : Value.Complete (.bool b)
  | int (n : Int64) : Value.Complete (.int n)
  | str (s : Str) : Value.Complete (.str s)
  | block {body : Node} (h : Node.Complete body) : Value.Complete (.block body)

inductive Node.Complete : Node → Prop
  | literal (id : Nat) {v : Value} (h : Value.Complete v) : Node.Complete (.literal id v)
  | var (id : Nat) (v : Variable) : Node.Complete (.var id v)
  | unary (id : Nat) (op : UnaryOp) {n : Node} (h : Node.Complete n) : Node.Complete (.unary id op n)
  | binary (id : Nat) (op : BinaryOp) {m n : Node} (h : Node.Complete m) (h' : Node.Complete n) :
      Node.Complete (.binary id op m n)
  | call (id : Nat) (word : String) {builtin : Builtin} {args : List Node}
      (hl : args.length = builtin.arity) (h : ∀ n ∈ args, Node.Complete n) :
      Node.Complete (.call id word builtin args)

end

def Builtin.IsApplied : Builtin → Prop
  | .block | .branch | .loop | .dumpTree | .prompt | .random => False
  | _ => True

inductive Frame.Complete : Frame → Prop
  | unary (op : UnaryOp) : Frame.Complete (.unary op)
  | left {op : BinaryOp} {right : Node} (ho : op.IsStrict) (h : right.Complete) :
      Frame.Complete (.left op right)
  | right {op : BinaryOp} {left : Value} (ho : op.IsStrict) (h : left.Complete) :
      Frame.Complete (.right op left)
  | chain {n : Node} (h : n.Complete) : Frame.Complete (.chain n)
  | and {n : Node} (h : n.Complete) : Frame.Complete (.and n)
  | or {n : Node} (h : n.Complete) : Frame.Complete (.or n)
  | assign (target : Variable) : Frame.Complete (.assign target)
  | branch {args : List Node} (hl : args.length = 3) (h : ∀ n ∈ args, n.Complete) :
      Frame.Complete (.branch args)
  | loopTest {args : List Node} (hl : args.length = 2) (h : ∀ n ∈ args, n.Complete) :
      Frame.Complete (.loopTest args)
  | loopBody {args : List Node} (hl : args.length = 2) (h : ∀ n ∈ args, n.Complete) :
      Frame.Complete (.loopBody args)
  | argument {builtin : Builtin} {args : List Node} {done : List Value} (hb : builtin.IsApplied)
      (hl : args.length = builtin.arity) (hd : done.length < builtin.arity)
      (h : ∀ n ∈ args, n.Complete) (hv : ∀ v ∈ done, v.Complete) :
      Frame.Complete (.argument builtin args done)

inductive Control.Complete : Control → Prop
  | node {n : Node} (h : n.Complete) : Control.Complete (.node n)
  | value {v : Value} (h : v.Complete) : Control.Complete (.value v)

structure Store.Complete (s : Store) : Prop where
  slots {k : Nat} {v : Value} : s.slots[k]?.join = some v → v.Complete
  programs {k : Nat} {e : Str × Program} : s.programs[k]? = some e → e.2.root.Complete

structure Config.Complete (c : Config) : Prop where
  control : c.control.Complete
  frames : ∀ f ∈ c.frames, f.Complete
  store : c.state.workspace.store.Complete

theorem Value.Complete.of_kind {v : Value} (h : v.kind ≠ .block) : v.Complete := by
  cases v with
  | null => exact .null
  | bool b => exact .bool b
  | int n => exact .int n
  | str s => exact .str s
  | block body => exact absurd rfl h

namespace Phrase

theorem WellFormed.complete_build {p : Phrase} (hp : p.WellFormed) (ws : Workspace) :
    (p.build ws).1.Complete := by
  induction hp generalizing ws with
  | integer h => exact .literal _ (.int _)
  | text content => exact .literal _ (.str _)
  | true => exact .literal _ (.bool _)
  | false => exact .literal _ (.bool _)
  | null => exact .literal _ .null
  | name spelling => exact .var _ _
  | unary op h ih => exact .unary _ op (ih ws)
  | binary op h h' ih ih' => exact .binary _ op (ih ws) (ih' _)
  | call hw hl h ih =>
    obtain ⟨hn, hc⟩ := forall_buildAll ih ws
    exact .call _ _ (hn.trans hl) hc

end Phrase

theorem Program.complete_of_parse {source : String} {ws ws' : Workspace} {q : Program}
    (h : parse source ws = (.ok q, ws')) : q.root.Complete := by
  obtain ⟨ls, rest, p, -, hb, rfl, -⟩ := exists_begins_of_parse h
  exact hb.1.complete_build ws

namespace Store.Complete

variable {s t : Store}

theorem widen (h : s.Complete) (hw : s.Widens t) : t.Complete where
  slots hv := h.slots ((hw.slots _).symm.trans hv)
  programs he := h.programs (hw.programs ▸ he)

theorem write (h : s.Complete) (target : Variable) {v : Value} (hv : v.Complete) :
    ((Store.write target v : StateM Store Unit) s).2.Complete where
  slots {k u} hu := by
    rcases slots_of_write hu with rfl | hu
    · exact hv
    · exact h.slots hu
  programs := h.programs

theorem insert (h : s.Complete) (k : Nat) {e : Str × Program} (he : e.2.root.Complete) :
    Store.Complete { s with programs := s.programs.insert k e } where
  slots := h.slots
  programs {l f} hf := by
    rw [TreeMap.getElem?_insert] at hf
    split at hf
    · obtain rfl := Option.some.inj hf
      exact he
    · exact h.programs hf

end Store.Complete

namespace Action

namespace Finds

variable {source : Str} {s t : State} {result : Except Stop Program}

theorem store_complete (h : Finds source s result t) (hs : s.workspace.store.Complete) :
    t.workspace.store.Complete := by
  cases h with
  | known he => exact hs
  | parsed _ hp =>
    exact (hs.widen (Program.widens_of_parse hp)).insert _ (Program.complete_of_parse hp)
  | wrong _ hp => exact hs.widen (Program.widens_of_parse hp)

theorem complete {q : Program} (h : Finds source s (.ok q) t) (hs : s.workspace.store.Complete) :
    q.root.Complete := by
  cases h with
  | known he => exact hs.programs he
  | parsed _ hp => exact Program.complete_of_parse hp

theorem due {stop : Stop} (h : Finds source s (.error stop) t) (us : List Value) :
    stop.Due us := by
  cases h with
  | @wrong e ws _ hp =>
    refine .error fun op => ?_
    cases e <;> exact nofun

end Finds

end Action

namespace Machine

inductive Proper (R : Stop → Prop) : Step → Prop
  | next {c : Config} (hc : c.control.Complete) (hf : ∀ f ∈ c.frames, f.Complete) :
      Proper R (.next c)
  | value {v : Value} {s : State} (h : v.Complete) : Proper R (.halt (.ok v) s)
  | stop {stop : Stop} {s : State} (h : R stop) : Proper R (.halt (.error stop) s)

section

variable {α : Type} {x : Action α} {Q : α → Prop} {R : Stop → Prop} {s : State} {frames : List Frame}
  (hf : ∀ f ∈ frames, f.Complete)

include hf

theorem proper_eval {n : Node} (hn : n.Complete) : Proper R (eval n frames s) := .next (.node hn) hf

theorem proper_give {v : Value} (hv : v.Complete) : Proper R (give v frames s) := .next (.value hv) hf

theorem proper_force {v : Value} (hv : v.Complete) : Proper R (force v frames s) := by
  cases hv with
  | null => exact proper_give hf .null
  | bool b => exact proper_give hf (.bool b)
  | int n => exact proper_give hf (.int n)
  | str a => exact proper_give hf (.str a)
  | block h => exact proper_eval hf h

theorem proper_act {x : Action Value} {Q : Value → Prop} (h : x.Keeps Q R)
    (hQ : ∀ v, Q v → v.Complete) : Proper R (after x s (give · frames)) :=
  after_cases h (fun v _ _ hv => proper_give hf (hQ v hv)) fun _ _ _ => .stop

omit hf

theorem proper_after {go : α → State → Step} (h : x.Keeps Q R)
    (hgo : ∀ a t, Q a → Proper R (go a t)) : Proper R (after x s go) :=
  after_cases h (fun a t _ => hgo a t) fun _ _ _ => .stop

theorem proper_withArgument {args : List Node} {i : Nat} {go : Node → Step} (hi : i < args.length)
    (h : ∀ n ∈ args, n.Complete) (hgo : ∀ n, n.Complete → Proper R (go n)) :
    Proper R (withArgument args i s go) := by
  unfold withArgument
  rw [List.getElem?_eq_getElem hi]
  exact hgo _ (h _ (List.getElem_mem hi))

theorem Proper.mono {R' : Stop → Prop} {step : Step} (h : Proper R step)
    (hR : ∀ stop, R stop → R' stop) : Proper R' step := by
  cases h with
  | next hc hf => exact .next hc hf
  | value hv => exact .value hv
  | stop hs => exact .stop (hR _ hs)

end

variable {s : State} {frames : List Frame}

theorem proper_source (hs : s.workspace.store.Complete) (hf : ∀ f ∈ frames, f.Complete) (v : Value) :
    Proper (Stop.Due [v]) (apply .eval [v] frames s) := by
  obtain ⟨hstore, hr⟩ := Action.Keeps.toStr_self v s
  have h := evals_apply v frames s
  generalize apply .eval [v] frames s = step at h ⊢
  cases h with
  | unfit hv =>
    rw [hv] at hr
    exact .stop hr
  | found hv h =>
    rw [hv] at hstore
    exact .next (.node (h.complete (by rwa [hstore]))) hf
  | wrong hv h => exact .stop (h.due [v])

theorem proper_apply (hs : s.workspace.store.Complete) (hf : ∀ f ∈ frames, f.Complete)
    {builtin : Builtin} (hb : builtin.IsApplied) {vs : List Value}
    (hl : vs.length = builtin.arity) (hvs : ∀ v ∈ vs, v.Complete) :
    Proper (Stop.Due vs) (apply builtin vs frames s) := by
  have single (h : vs.length = 1) : ∃ v, vs = [v] ∧ v.Complete := by
    obtain ⟨v, rfl⟩ := List.length_eq_one_iff.1 h
    exact ⟨v, rfl, hvs v (List.mem_singleton.2 rfl)⟩
  cases builtin with
  | ascii =>
    obtain ⟨v, rfl, -⟩ := single hl
    exact proper_act hf (.ascii v) fun _ => .of_kind
  | call =>
    obtain ⟨v, rfl, hv⟩ := single hl
    exact proper_force hf hv
  | dump =>
    obtain ⟨v, rfl, -⟩ := single hl
    exact proper_act hf (.display _) fun _ => .of_kind
  | eval =>
    obtain ⟨v, rfl, -⟩ := single hl
    exact proper_source hs hf v
  | get =>
    obtain ⟨u, v, w, rfl⟩ := List.length_eq_three.1 hl
    exact proper_act hf (.get u v w) fun _ => .of_kind
  | length =>
    obtain ⟨v, rfl, -⟩ := single hl
    exact proper_after (.toStr_self _) fun _ _ _ => proper_give hf (.int _)
  | output =>
    obtain ⟨v, rfl, -⟩ := single hl
    exact proper_act hf (.output v) fun _ => .of_kind
  | quit =>
    obtain ⟨v, rfl, -⟩ := single hl
    exact proper_after (.toInt (List.mem_singleton.2 rfl)) fun _ _ _ => .stop (.error nofun)
  | substitute =>
    match vs, hl with
    | [string, start, count, replacement], _ =>
      refine proper_act hf (.substitute string start count replacement) fun v hv => ?_
      rcases hv with rfl | hv
      · exact hvs v (by simp)
      · exact .of_kind hv
  | _ => exact hb.elim

theorem proper_call (around : Surroundings) (hf : ∀ f ∈ frames, f.Complete) {builtin : Builtin}
    {args : List Node} (hl : args.length = builtin.arity) (h : ∀ n ∈ args, n.Complete) :
    Proper (Stop.Due []) (call around builtin args frames s) := by
  have waits {f : Frame} (hi : 0 < args.length) (hc : f.Complete) :
      Proper (Stop.Due []) (withArgument args 0 s (eval · (f :: frames) s)) :=
    proper_withArgument hi h fun n hn => proper_eval (List.forall_mem_cons.2 ⟨hc, hf⟩) hn
  have applied {builtin : Builtin} (hb : builtin.IsApplied) (hl : args.length = builtin.arity)
      (hi : 0 < builtin.arity) : Proper (Stop.Due [])
        (withArgument args 0 s (eval · (.argument builtin args [] :: frames) s)) :=
    waits (by omega) (.argument hb hl hi h nofun)
  cases builtin with
  | block =>
    exact proper_withArgument (by rw [hl]; decide) h fun n hn => proper_give hf (.block hn)
  | dumpTree =>
    exact proper_withArgument (by rw [hl]; decide) h fun n _ =>
      proper_act hf (.display _) fun _ => .of_kind
  | prompt => exact proper_act hf .prompt fun _ => .of_kind
  | random => exact proper_act hf (.random around) fun _ => .of_kind
  | branch => exact waits (by rw [hl]; decide) (.branch hl h)
  | loop => exact waits (by rw [hl]; decide) (.loopTest hl h)
  | _ => exact applied trivial hl (by decide)

theorem proper_enter (around : Surroundings) (hs : s.workspace.store.Complete)
    (hf : ∀ f ∈ frames, f.Complete) {n : Node} (hn : n.Complete) :
    Proper (Stop.Due []) (enter around n frames s) := by
  have waits {f : Frame} {m : Node} (hm : m.Complete) (hc : f.Complete) :
      Proper (Stop.Due []) (eval m (f :: frames) s) :=
    proper_eval (List.forall_mem_cons.2 ⟨hc, hf⟩) hm
  cases hn with
  | literal id hv => exact proper_give hf hv
  | var id v =>
    cases hv : s.workspace.store.slots[v.slot]?.join with
    | some value =>
      rw [enter_var_of_some hv]
      exact proper_force hf (hs.slots hv)
    | none =>
      rw [enter_var_of_none hv]
      exact .stop (.error nofun)
  | unary id op h => exact waits h (.unary op)
  | binary id op h h' =>
    cases op with
    | chain => exact waits h (.chain h')
    | and => exact waits h (.and h')
    | or => exact waits h (.or h')
    | assign =>
      cases h with
      | var id v => exact waits h' (.assign v)
      | _ => exact .stop (.error nofun)
    | _ => exact waits h (.left trivial h')
  | call id word hl h => exact proper_call around hf hl h

end Machine

def Config.values : Config → List Value
  | ⟨.value v, .right _ left :: _, _⟩ => [left, v]
  | ⟨.value v, .argument _ _ done :: _, _⟩ => done ++ [v]
  | ⟨.value v, _, _⟩ => [v]
  | ⟨.node _, _, _⟩ => []

/-- Why a configuration may stop: over the values that it works on, or because a text is to be repeated
so often that it would have 2^63 bytes or more, though less than 2^64. -/
inductive Config.Stops (c : Config) : Stop → Prop
  | due {stop : Stop} (h : stop.Due c.values) : Stops c stop
  | repeated {a : Str} {v : Value} {count : Int64} {frames : List Frame} {s : State}
      (hc : c = ⟨.value v, .right .mul (.str a) :: frames, s⟩) (hv : v.toInt = .ok count)
      (h0 : 0 ≤ count) (hle : 0x8000000000000000 ≤ a.length * count.toInt.toNat)
      (hlt : a.length * count.toInt.toNat < 0x10000000000000000) :
      Stops c (.panic .capacityOverflow)

namespace Machine

theorem proper_resume (around : Surroundings) {v : Value} {frame : Frame} {frames : List Frame}
    {s : State} (hs : s.workspace.store.Complete) (hf : ∀ f ∈ frames, f.Complete)
    (hv : v.Complete) (hc : frame.Complete) :
    Proper (Config.Stops ⟨.value v, frame :: frames, s⟩) (resume around v frame frames s) := by
  have decided {go : Bool → State → Step}
      (hgo : ∀ b t, Proper (Stop.Due [v]) (go b t)) :
      Proper (Stop.Due [v]) (after (Action.toBool v) s go) :=
    proper_after (.toBool (List.mem_singleton.2 rfl)) fun b t _ => hgo b t
  cases hc with
  | unary op =>
    refine (proper_act hf (.unary v around op) fun u hu => ?_).mono fun _ h => .due h
    rcases hu with rfl | hu
    · exact hv
    · exact .of_kind hu
  | left ho h => exact proper_eval (List.forall_mem_cons.2 ⟨.right ho hv, hf⟩) h
  | @right op left ho h =>
    refine (proper_act hf (.binary left v op) fun _ => .of_kind).mono fun stop hstop => ?_
    cases hstop with
    | due h => exact .due h
    | repeated ha hc h0 hle hlt =>
      subst ha
      exact .repeated rfl hc h0 hle hlt
    | unfit hn => exact absurd ho hn
  | chain h => exact proper_eval hf h
  | and h =>
    refine (decided fun b t => ?_).mono fun _ h => .due h
    cases b with
    | true => exact proper_eval hf h
    | false => exact proper_give hf hv
  | or h =>
    refine (decided fun b t => ?_).mono fun _ h => .due h
    cases b with
    | true => exact proper_give hf hv
    | false => exact proper_eval hf h
  | assign target => exact proper_give hf hv
  | branch hl h =>
    refine (decided fun b t => ?_).mono fun _ h => .due h
    exact proper_withArgument (by rw [hl]; cases b <;> decide) h fun n hn => proper_eval hf hn
  | loopTest hl h =>
    refine (decided fun b t => ?_).mono fun _ h => .due h
    cases b with
    | true =>
      exact proper_withArgument (by rw [hl]; decide) h fun n hn =>
        proper_eval (List.forall_mem_cons.2 ⟨.loopBody hl h, hf⟩) hn
    | false => exact proper_give hf .null
  | loopBody hl h =>
    exact proper_withArgument (by rw [hl]; decide) h fun n hn =>
      proper_eval (List.forall_mem_cons.2 ⟨.loopTest hl h, hf⟩) hn
  | @argument builtin args done hb hl hd h hdone =>
    have hdone : ∀ u ∈ done ++ [v], u.Complete := by
      intro u hu
      rcases List.mem_append.1 hu with hu | hu
      · exact hdone u hu
      · obtain rfl := List.mem_singleton.1 hu
        exact hv
    simp only [resume]
    split
    · rename_i hmore
      exact proper_withArgument (by rwa [hl]) h fun n hn =>
        proper_eval (List.forall_mem_cons.2 ⟨.argument hb hl hmore h hdone, hf⟩) hn
    · rename_i hlast
      have hlen : (done ++ [v]).length = builtin.arity := by
        simp only [List.length_append, List.length_singleton] at hlast ⊢
        omega
      exact (proper_apply hs hf hb hlen hdone).mono fun _ h => .due h

theorem proper_step (around : Surroundings) {c : Config} (h : c.Complete) :
    Proper c.Stops (step around c) := by
  obtain ⟨control, frames, s⟩ := c
  obtain ⟨hc, hf, hs⟩ := h
  cases hc with
  | node hn => exact (proper_enter around hs hf hn).mono fun _ h => .due h
  | value hv =>
    cases frames with
    | nil => exact .value hv
    | cons frame frames =>
      rw [List.forall_mem_cons] at hf
      exact proper_resume around hs hf.2 hv hf.1

theorem complete_stores {c : Config} {t : State} (h : c.Complete) (ht : Stores c t) :
    t.workspace.store.Complete := by
  cases ht with
  | keeps ht =>
    rw [ht]
    exact h.store
  | @assigns target v frames hc hf ht =>
    have hv := h.control
    rw [hc] at hv
    cases hv with
    | value hv =>
      rw [ht]
      exact h.store.write target hv
  | @finds v source s result args frames hc hf hv ht =>
    have hcomplete : s.workspace.store.Complete := by
      rw [Action.store_of_toStr hv]
      exact h.store
    exact ht.store_complete hcomplete

end Machine

namespace Past

theorem invariant_complete : Invariant Store.Complete (·.root.Complete) Config.Complete where
  empty := by
    refine ⟨fun hv => ?_, fun he => ?_⟩
    · simp [Store.empty] at hv
    · simp [Store.empty] at he
  assign name a s h := (h.widen (s.lookup_widens name)).write _ (.str a)
  parse source ws _ h :=
    ⟨h.widen (Program.widens_parse source ws), fun _ hq => Program.complete_of_parse (Prod.ext hq rfl)⟩
  opening hq hs := ⟨.node hq, nofun, hs⟩
  store h := h.store
  next around c e _ h hs := by
    have hp := Machine.proper_step around h
    have ht := Machine.stores_step around c
    rw [hs] at hp ht
    cases hp with
    | next hc hf => exact ⟨hc, hf, Machine.complete_stores h ht⟩
  halt around c result s _ h hs := by
    have ht := Machine.stores_step around c
    rw [hs] at ht
    exact Machine.complete_stores h ht

end Past

namespace Program

theorem conclude_panic {result : Except Stop Value} {s t : State} {p : Panic}
    (h : conclude result s = (.error (.panic p), t)) : result = .error (.panic p) := by
  have hflush (r : Except Stop Value) (hf : flushed r s = (.error (.panic p), t)) :
      r = .error (.panic p) := by
    simp only [flushed, flush_eq] at hf
    generalize Console.flush s.console = x at hf
    obtain ⟨f | f, c⟩ := x
    · cases hf
    · exact (Prod.mk.inj hf).1
  rcases result with stop | v
  · cases stop with
    | error e => exact hflush _ h
    | panic reason =>
      obtain ⟨hr, -⟩ := Prod.mk.inj h
      exact hr
  · exact hflush _ h

theorem reaches_of_panic {around : Surroundings} {fuel : Nat} {q : Program} {s t : State} {p : Panic}
    (h : q.execute around fuel s = some (.error (.panic p), t)) :
    ∃ c u, Machine.Reaches around (q.opening s) c ∧
      Machine.step around c = .halt (.error (.panic p)) u := by
  rw [execute_eq] at h
  obtain ⟨c, hc, ha | ⟨result, u, hs, ha⟩⟩ := Machine.reaches_advance around fuel (q.opening s)
  · have hnone : (q.advance around fuel s).1 = none := congrArg Prod.fst ha
    rw [hnone] at h
    cases h
  · have hsome : (q.advance around fuel s).1 = some result := congrArg Prod.fst ha
    rw [hsome] at h
    obtain rfl := conclude_panic (Option.some.inj h)
    exact ⟨c, u, hc, hs⟩

end Program

namespace Past

/-- Whatever a program comes to is complete, so that each call has its arguments and each operator and
function only what it takes. It stops with an error, over a block that has no such form, or because of
a text repeated too often; a panic of the whole execution is one of these. Divisions, differences and
cuts are never undefined. -/
theorem panics_only_over_blocks_and_repeats (deeds : List Deed) {n k : Nat} {store : Store}
    {q : Program} (hn : (run deeds).program? n = some (k, store, q)) (around : Surroundings)
    (console : Console) :
    let s : State := ⟨(run deeds).share.workspace store, console⟩
    (∀ c, Machine.Reaches around (q.opening s) c →
      c.Complete ∧ ∀ stop t, Machine.step around c = .halt (.error stop) t → c.Stops stop) ∧
    (∀ fuel p t, q.execute around fuel s = some (.error (.panic p), t) →
      ∃ c u, Machine.Reaches around (q.opening s) c ∧
        Machine.step around c = .halt (.error (.panic p)) u) ∧
    (∀ undefined : {α : Type} → Action α,
      Action.divOr undefined = Action.div ∧ Action.modOr undefined = Action.mod ∧
      Action.getOr undefined = Action.get ∧ Action.substituteOr undefined = Action.substitute) ∧
    ∀ line, Text.slice? line 0 (Text.dropLineEnd line).utf8ByteSize =
      some (Text.dropLineEnd line) := by
  intro s
  refine ⟨fun c hc => ?_, fun fuel p t => Program.reaches_of_panic, fun undefined => ?_,
    Text.slice?_dropLineEnd⟩
  · obtain ⟨-, hcomplete⟩ := invariant_complete.holds_reached deeds hn hc
    refine ⟨hcomplete, fun stop t hs => ?_⟩
    have hp := Machine.proper_step around hcomplete
    rw [hs] at hp
    cases hp with
    | stop h => exact h
  · refine ⟨?_, ?_, ?_, ?_⟩
    · exact funext fun l => funext fun r => Action.divOr_eq undefined l r
    · exact funext fun l => funext fun r => Action.modOr_eq undefined l r
    · exact funext fun u => funext fun v => funext fun w => Action.getOr_eq undefined u v w
    · exact funext fun t => funext fun u => funext fun v => funext fun w =>
        Action.substituteOr_eq undefined t u v w

theorem panics_only_over_blocks_and_repeats_sum :
    let around : Surroundings := ⟨fun _ => 0, fun _ _ files => ((.exited 0, []), files)⟩
    let deeds : List Deed := [.openStore, .parse 0 "+ 1 BLOCK x"]
    ∃ k store q c u, (run deeds).program? 0 = some (k, store, q) ∧
      Machine.Reaches around (q.opening ⟨(run deeds).share.workspace store, {}⟩) c ∧
      Machine.step around c = .halt (.error (.panic .blockAsInt)) u ∧
      c.Stops (.panic .blockAsInt) := by
  intro around deeds
  have hpanics : (((run deeds).program? 0).bind fun (_, store, q) =>
      (q.advance around 10 ⟨(run deeds).share.workspace store, {}⟩).1.bind fun result =>
        match result with
        | .error stop => some stop
        | .ok _ => none) = some (.panic .blockAsInt) := by decide +kernel
  obtain ⟨⟨k, store, q⟩, hn, hr⟩ := Option.bind_eq_some_iff.1 hpanics
  obtain ⟨result, hx, hr⟩ := Option.bind_eq_some_iff.1 hr
  obtain ⟨hreached, hpanic, -⟩ := panics_only_over_blocks_and_repeats deeds hn around {}
  cases result with
  | ok v => cases hr
  | error stop =>
    obtain rfl := Option.some.inj hr
    obtain ⟨c, u, hc, hs⟩ := hpanic 10 .blockAsInt _ (by rw [Program.execute_eq, hx]; rfl)
    exact ⟨k, store, q, c, u, hn, hc, hs, (hreached c hc).2 _ _ hs⟩

end Past

end KnightLang
