import KnightLang.Proofs.Execution.Meaning
import KnightLang.Proofs.Execution.Storing

namespace KnightLang

namespace Node

/-- From a state on the two nodes come to the same, whatever waits for their values: one ends with a
result in some state exactly when the other does, and one goes on for ever exactly when the other does. -/
structure Equivalent (around : Surroundings) (s : State) (m n : Node) : Prop where
  ends (frames : List Frame) (result : Except Stop Value) (t : State) :
    (∃ fuel, Machine.run around fuel ⟨.node m, frames, s⟩ = some (result, t)) ↔
      ∃ fuel, Machine.run around fuel ⟨.node n, frames, s⟩ = some (result, t)
  endless (frames : List Frame) :
    (∀ fuel, Machine.run around fuel ⟨.node m, frames, s⟩ = none) ↔
      ∀ fuel, Machine.run around fuel ⟨.node n, frames, s⟩ = none

section

variable {around : Surroundings} {s : State} {m n : Node}

theorem equivalent_of_meaning (h : (m.meaning around).run s = (n.meaning around).run s) :
    Equivalent around s m n := by
  have hrun (frames : List Frame) (y : Except Stop Value × State) :
      (∃ fuel, Machine.run around fuel ⟨.node m, frames, s⟩ = some y) ↔
        ∃ fuel, Machine.run around fuel ⟨.node n, frames, s⟩ = some y := by
    simp only [exists_run_iff_meaning, h]
  refine ⟨fun frames result t => hrun frames (result, t), fun frames => ?_⟩
  simp only [Option.eq_none_iff_forall_ne_some]
  constructor
  · intro hm fuel y hy
    obtain ⟨fuel', hy'⟩ := (hrun frames y).2 ⟨fuel, hy⟩
    exact hm fuel' y hy'
  · intro hn fuel y hy
    obtain ⟨fuel', hy'⟩ := (hrun frames y).1 ⟨fuel, hy⟩
    exact hn fuel' y hy'

end

section

variable (around : Surroundings) (id id' : Nat) (word word' : String)

theorem meaning_literal (v : Value) : (literal id v).meaning around = pure v := meaning_eq around _

theorem meaning_chain (l r : Node) : (binary id .chain l r).meaning around =
    l.meaning around >>= fun _ => r.meaning around := meaning_eq around _

theorem meaning_block (body : Node) :
    (call id word .block [body]).meaning around = pure (.block body) := meaning_eq around _

theorem meaning_call (x : Node) : (call id word .call [x]).meaning around =
    x.meaning around >>= Evaluation.force (meaning around) := meaning_eq around _

theorem meaning_branch (c x y : Node) : (call id word .branch [c, x, y]).meaning around =
    c.meaning around >>= fun v => Evaluation.perform (Action.toBool v) >>= fun b =>
      if b then x.meaning around else y.meaning around := by
  rw [meaning_eq]
  refine congrArg (c.meaning around >>= ·) (funext fun v => ?_)
  refine congrArg (Evaluation.perform (Action.toBool v) >>= ·) (funext fun b => ?_)
  cases b <;> rfl

theorem meaning_loop (c b : Node) : (call id word .loop [c, b]).meaning around =
    c.meaning around >>= fun v => Evaluation.perform (Action.toBool v) >>= fun more =>
      if more then b.meaning around >>= fun _ => (call id word .loop [c, b]).meaning around
      else pure .null := meaning_eq around _

theorem evaluate_call (depth : Nat) (builtin : Builtin) (args : List Node) :
    (call id word builtin args).evaluate around depth =
      (call id' word' builtin args).evaluate around depth := by
  induction depth with
  | zero => rfl
  | succ depth ih =>
    exact congrArg (Evaluation.call (evaluate around depth) around · args builtin) ih

theorem meaning_of_call (builtin : Builtin) (args : List Node) :
    (call id word builtin args).meaning around = (call id' word' builtin args).meaning around := by
  have h := tends_meaning around (call id word builtin args)
  simp only [evaluate_call around id id' word word' _ builtin args] at h
  exact h.unique (tends_meaning around (call id' word' builtin args))

theorem meaning_var (v : Variable) : (var id v).meaning around =
    Evaluation.perform (Action.onStore (Store.read? v)) >>= fun
      | some value => Evaluation.force (meaning around) value
      | none => throw (.error (.undefinedVariable v.name)) := meaning_eq around _

theorem meaning_assign (v : Variable) (x : Node) :
    (binary id .assign (var id' v) x).meaning around = x.meaning around >>= fun value =>
      Evaluation.perform (Action.onStore (Store.write v value)) >>= fun _ => pure value :=
  meaning_eq around _

end

section

variable (around : Surroundings) (a b c : Node) (id : Nat → Nat) (word : Nat → String)

theorem meaning_unrolled : (call (id 0) (word 0) .loop [c, b]).meaning around =
    (call (id 1) (word 1) .branch [c,
      binary (id 2) .chain b (call (id 3) (word 2) .loop [c, b]),
      literal (id 4) .null]).meaning around := by
  rw [meaning_loop, meaning_branch, meaning_chain, meaning_literal,
    meaning_of_call around (id 0) (id 3) (word 0) (word 2)]

theorem meaning_regrouped :
    (binary (id 0) .chain (binary (id 1) .chain a b) c).meaning around =
      (binary (id 2) .chain a (binary (id 3) .chain b c)).meaning around := by
  simp only [meaning_chain, bind_assoc]

theorem meaning_called :
    (call (id 0) (word 0) .call [call (id 1) (word 1) .block [a]]).meaning around =
      a.meaning around := by
  rw [meaning_call, meaning_block, pure_bind]
  rfl

theorem meaning_assign_block (f : Variable) (next : Node) :
    (binary (id 0) .chain
      (binary (id 1) .assign (var (id 2) f) (call (id 3) (word 0) .block [a])) next).meaning around =
    Evaluation.perform (Action.onStore (Store.write f (.block a))) >>= fun _ => next.meaning around := by
  rw [meaning_chain, meaning_assign, meaning_block, pure_bind, bind_assoc]
  rfl

theorem exists_run_write {s : State} {f : Variable} (hf : f.slot < s.workspace.store.slots.size)
    (v : Value) : ∃ t, (Action.onStore (Store.write f v)).run s = (.ok (), t) ∧
      (Action.onStore (Store.read? f)).run t = (.ok (some v), t) := by
  refine ⟨_, rfl, ?_⟩
  rw [Action.run_read?]
  have hslot : (s.workspace.store.slots.setIfInBounds f.slot (some v))[f.slot]?.join = some v := by
    simp [hf]
  exact congrArg (fun read => (Except.ok read, _)) hslot

theorem run_meaning_var_of_assign {s : State} {f : Variable}
    (hf : f.slot < s.workspace.store.slots.size) (i : Nat) :
    (Evaluation.perform (Action.onStore (Store.write f (.block a))) >>= fun _ =>
      (var i f).meaning around).run s =
    (Evaluation.perform (Action.onStore (Store.write f (.block a))) >>= fun _ =>
      a.meaning around).run s := by
  obtain ⟨t, hwrite, hread⟩ := exists_run_write hf (.block a)
  have hwrite' : (Evaluation.perform (Action.onStore (Store.write f (.block a)))).run s =
      some (.ok (), t) := congrArg some hwrite
  have hread' : (Evaluation.perform (Action.onStore (Store.read? f))).run t =
      some (.ok (some (.block a)), t) := congrArg some hread
  rw [Evaluation.run_bind_of_ok hwrite', Evaluation.run_bind_of_ok hwrite', meaning_var,
    Evaluation.run_bind_of_ok hread']
  rfl

/-- Four pairs of trees with the same outcomes, whatever the parts `a`, `b` and `c` do, and whatever the
nodes around them are numbered and spelled: `WHILE c b` and `IF c (; b WHILE c b) NULL`; `; ; a b c` and
`; a ; b c`; `CALL BLOCK a` and `a`; `; = f BLOCK a f` and `; = f BLOCK a CALL BLOCK a`, where `f` is one
of the variables of the store. -/
theorem equivalent_trees (s : State) :
    Equivalent around s (call (id 0) (word 0) .loop [c, b])
      (call (id 1) (word 1) .branch [c,
        binary (id 2) .chain b (call (id 3) (word 2) .loop [c, b]),
        literal (id 4) .null]) ∧
    Equivalent around s (binary (id 0) .chain (binary (id 1) .chain a b) c)
      (binary (id 2) .chain a (binary (id 3) .chain b c)) ∧
    Equivalent around s (call (id 0) (word 0) .call [call (id 1) (word 1) .block [a]]) a ∧
    ∀ f : Variable, f.slot < s.workspace.store.slots.size → Equivalent around s
      (binary (id 0) .chain
        (binary (id 1) .assign (var (id 2) f) (call (id 3) (word 0) .block [a]))
        (var (id 4) f))
      (binary (id 5) .chain
        (binary (id 6) .assign (var (id 7) f) (call (id 8) (word 1) .block [a]))
        (call (id 9) (word 2) .call [call (id 10) (word 3) .block [a]])) := by
  refine ⟨?_, ?_, ?_, fun f hf => ?_⟩
  · apply equivalent_of_meaning
    rw [meaning_unrolled]
  · apply equivalent_of_meaning
    rw [meaning_regrouped]
  · apply equivalent_of_meaning
    rw [meaning_called around a id word]
  · apply equivalent_of_meaning
    rw [meaning_assign_block around a id word, run_meaning_var_of_assign around a hf]
    rw [meaning_assign_block around a (fun k => id (k + 5)) (fun k => word (k + 1)),
      meaning_called around a (fun k => id (k + 9)) fun k => word (k + 2)]

end

theorem equivalent_trees_reassigned :
    let around : Surroundings := ⟨fun _ => 0, fun _ _ files => ((.exited 0, []), files)⟩
    let f : Variable := ⟨"f", 0⟩
    let s : State := ⟨⟨.create {} {}, ⟨{("f", 0)}, #[none], {}⟩, 16⟩, {}⟩
    let a := binary 0 .chain (binary 1 .assign (var 2 f) (literal 3 (.int 5))) (var 4 f)
    let assigned := binary 5 .assign (var 6 f) (call 7 "BLOCK" .block [a])
    let read := binary 8 .chain assigned (var 9 f)
    let called := binary 10 .chain assigned (call 11 "CALL" .call [call 12 "BLOCK" .block [a]])
    f.slot < s.workspace.store.slots.size ∧ Equivalent around s read called ∧
      ∃ t, (∃ fuel, read.eval around fuel s = some (.ok (.int 5), t)) ∧
        ∃ fuel, called.eval around fuel s = some (.ok (.int 5), t) := by
  intro around f s a assigned read called
  have hf : f.slot < s.workspace.store.slots.size := by decide
  have heq : Equivalent around s read called :=
    (equivalent_trees around a a a (fun k => [8, 5, 6, 7, 9, 10, 5, 6, 7, 11, 12].getD k 0)
      (fun k => ["BLOCK", "BLOCK", "CALL", "BLOCK"].getD k "") s).2.2.2 f hf
  have hread : ∃ t, ∃ fuel, read.eval around fuel s = some (.ok (.int 5), t) := ⟨_, 13, rfl⟩
  obtain ⟨t, hread⟩ := hread
  exact ⟨hf, heq, t, hread, (heq.ends [] (.ok (.int 5)) t).1 hread⟩

end Node

namespace Program

variable {around : Surroundings} {s : State}

theorem exists_execute_iff (p : Program) (y : Except Stop Value × State) :
    (∃ fuel, p.execute around fuel s = some y) ↔
      ∃ result t, (∃ fuel, p.root.eval around fuel s.warmed = some (result, t)) ∧
        conclude result t = y := by
  simp only [execute_eq, advance, Node.eval, Machine.run_eq_advance, Option.map_eq_some_iff,
    Prod.mk.injEq]
  constructor
  · rintro ⟨fuel, result, hr, rfl⟩
    exact ⟨result, _, ⟨fuel, result, hr, rfl, rfl⟩, rfl⟩
  · rintro ⟨result, t, ⟨fuel, result', hr, rfl, rfl⟩, rfl⟩
    exact ⟨fuel, result', hr, rfl⟩

/-- Programs with equivalent roots have the same results, with the flush at their end. -/
theorem exists_execute_of_equivalent {p q : Program}
    (h : Node.Equivalent around s.warmed p.root q.root) (y : Except Stop Value × State) :
    (∃ fuel, p.execute around fuel s = some y) ↔ ∃ fuel, q.execute around fuel s = some y := by
  rw [exists_execute_iff, exists_execute_iff]
  exact exists_congr fun result => exists_congr fun t => and_congr_left fun _ => h.ends [] result t

end Program

end KnightLang
