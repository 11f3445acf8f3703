import KnightLang.Proofs.Guarding.Acquiring
import KnightLang.Proofs.Strings.History

namespace KnightLang

inductive CacheOperation
  | ask (request : Request Str)
  | warm
  | interned

inductive StoreOperation
  | lookup (name : String)
  | read (v : Variable)
  | write (v : Variable) (value : Value)
  | program (source : Str)
  | insertProgram (source : Str) (p : Program)

inductive Reply
  | done
  | handle (a? : Option Str)
  | count (n : Nat)
  | variable (v : Variable)
  | value (v? : Option Value)
  | program (p? : Option Program)

section

variable {m : Type → Type} [Monad m] [Guarded m]

def CacheOperation.act [MonadStateOf Interner m] : CacheOperation → m Reply
  | .ask request => .handle <$> request.ask
  | .warm => (fun _ => .done) <$> (Cache.warm : m Unit)
  | .interned => .count <$> Cache.interned

def StoreOperation.act [MonadStateOf Store m] : StoreOperation → m Reply
  | .lookup name => .variable <$> Store.lookup name
  | .read v => .value <$> Store.read? v
  | .write v value => (fun _ => .done) <$> (Store.write v value : m Unit)
  | .program source => .program <$> Store.program? source
  | .insertProgram source p => (fun _ => .done) <$> (Store.insertProgram source p : m Unit)

end

structure SharedState where
  supply : Supply := {}
  caches : List Cache := []
  stores : List Store := []

inductive Operation
  | create (options : CacheOptions)
  | openStore
  | unique (text : String)
  | cache (k : Nat) (op : CacheOperation)
  | store (k : Nat) (op : StoreOperation)

structure Runner (F : Type → Type) where
  cache : CacheOperation → Interner → F (Reply × Interner)
  store : StoreOperation → Store → F (Reply × Store)

namespace Runner

variable {F : Type → Type} [Monad F]

def step (runner : Runner F) (s : SharedState) : Operation → F (Reply × SharedState)
  | .create options =>
    let (c, supply) := Cache.create options s.supply
    return (.done, { s with supply, caches := s.caches ++ [c] })
  | .openStore => return (.done, { s with stores := s.stores ++ [.empty] })
  | .unique text =>
    let (a, supply) := s.supply.unique text
    return (.handle (some a), { s with supply })
  | .cache k op =>
    match s.caches[k]? with
    | none => return (.done, s)
    | some c => do
      let (reply, i) ← runner.cache op ⟨s.supply, c⟩
      return (reply, { s with supply := i.supply, caches := s.caches.set k i.cache })
  | .store k op =>
    match s.stores[k]? with
    | none => return (.done, s)
    | some t => do
      let (reply, t) ← runner.store op t
      return (reply, { s with stores := s.stores.set k t })

def run (runner : Runner F) : List Operation → SharedState → F (List Reply × SharedState)
  | [], s => return ([], s)
  | op :: ops, s => do
    let (reply, t) ← runner.step s op
    let (replies, u) ← runner.run ops t
    return (reply :: replies, u)

def guarded (strategy : Strategy) : Runner Option where
  cache op i := strategy.run op.act i
  store op s := strategy.run op.act s

def watched : Runner (StateM (List Acquisition)) where
  cache op i := (op.act : Watched Interner Reply) [] i
  store op s := (op.act : Watched Store Reply) [] s

end Runner

def Settles {α : Type} (a : α) (x : Strategy → Option α) (y : StateM (List Acquisition) α) : Prop :=
  (∀ strategy, x strategy = some a) ∧
    ∃ more, (∀ b ∈ more, Acquisition.Orderly b) ∧ ∀ record, y record = (a, record ++ more)

namespace Settles

variable {α β : Type} {a : α} {b : β} {x : Strategy → Option α} {y : StateM (List Acquisition) α}

theorem pure (a : α) : Settles a (fun _ => some a) (pure a) :=
  ⟨fun _ => rfl, [], nofun, fun record => by rw [List.append_nil]; rfl⟩

theorem bind {f : Strategy → α → Option β} {g : α → StateM (List Acquisition) β}
    (h : Settles a x y) (hf : Settles b (fun strategy => f strategy a) (g a)) :
    Settles b (fun strategy => x strategy >>= f strategy) (y >>= g) := by
  obtain ⟨hx, first, hfirst, hy⟩ := h
  obtain ⟨hfa, second, hsecond, hg⟩ := hf
  refine ⟨fun strategy => ?_, first ++ second, List.forall_mem_append.2 ⟨hfirst, hsecond⟩, ?_⟩
  · simp only [hx, Option.bind_eq_bind, Option.bind_some, hfa]
  · intro record
    calc (y >>= g) record
      _ = g (y record).1 (y record).2 := rfl
      _ = (b, record ++ (first ++ second)) := by rw [hy, hg, List.append_assoc]

theorem of_accords {σ : Type} {x : StateM σ α} {y : Locked σ α} {z : Watched σ α}
    (h : Accords [] x y z) {s : σ} {r : Strategy → Option (α × σ)} (hs : r .safe = y [] s)
    (hr : r .reckless = some (x s)) : Settles (x s) r (z [] s) := by
  refine ⟨fun strategy => ?_, h.watched s⟩
  cases strategy with
  | safe => rw [hs, h.locked]
  | reckless => exact hr

end Settles

theorem Request.accords_ask (r : Request Str) :
    Accords [] (r.ask : StateM Interner (Option Str)) r.ask r.ask := by
  have free : Cache.CanIntern [] := .inl rfl
  cases r with
  | text t => exact (Cache.accords_string free t).map some
  | ownedText t => exact (Cache.accords_ownedString free t).map some
  | special which =>
    cases which with
    | empty | null | yes | no => exact (Accords.get.bind fun _ => .pure _).map some
  | part source start stop => exact Cache.accords_substring source start stop
  | join left right => exact (Cache.accords_concat left right).map some
  | integer n => exact (Cache.accords_intString n).map some

theorem CacheOperation.accords_act (op : CacheOperation) :
    Accords [] (op.act : StateM Interner Reply) op.act op.act := by
  cases op with
  | ask request => exact request.accords_ask.map _
  | warm => exact Cache.accords_warm.map _
  | interned => exact Cache.accords_interned.map _

theorem StoreOperation.accords_act (op : StoreOperation) :
    Accords [] (op.act : StateM Store Reply) op.act op.act := by
  cases op with
  | lookup name => exact (Store.accords_lookup name).map _
  | read v => exact (Store.accords_read? v).map _
  | write v value => exact (Store.accords_write v value).map _
  | program source => exact (Store.accords_program? source).map _
  | insertProgram source p => exact (Store.accords_insertProgram source p).map _

namespace Runner

theorem cache_settles (op : CacheOperation) (i : Interner) :
    ∃ a, Settles a (fun strategy => (guarded strategy).cache op i) (watched.cache op i) :=
  ⟨_, .of_accords op.accords_act rfl rfl⟩

theorem store_settles (op : StoreOperation) (s : Store) :
    ∃ a, Settles a (fun strategy => (guarded strategy).store op s) (watched.store op s) :=
  ⟨_, .of_accords op.accords_act rfl rfl⟩

theorem step_settles (s : SharedState) (op : Operation) :
    ∃ a, Settles a (fun strategy => (guarded strategy).step s op) (watched.step s op) := by
  cases op with
  | create options => exact ⟨_, .pure _⟩
  | openStore => exact ⟨_, .pure _⟩
  | unique text => exact ⟨_, .pure _⟩
  | cache k op =>
    simp only [step]
    cases s.caches[k]? with
    | none => exact ⟨_, .pure _⟩
    | some c =>
      obtain ⟨a, ha⟩ := cache_settles op ⟨s.supply, c⟩
      exact ⟨_, ha.bind (.pure _)⟩
  | store k op =>
    simp only [step]
    cases s.stores[k]? with
    | none => exact ⟨_, .pure _⟩
    | some t =>
      obtain ⟨a, ha⟩ := store_settles op t
      exact ⟨_, ha.bind (.pure _)⟩

theorem run_settles (ops : List Operation) (s : SharedState) :
    ∃ a, Settles a (fun strategy => (guarded strategy).run ops s) (watched.run ops s) := by
  induction ops generalizing s with
  | nil => exact ⟨_, .pure _⟩
  | cons op ops ih =>
    obtain ⟨⟨reply, t⟩, hstep⟩ := step_settles s op
    obtain ⟨⟨replies, u⟩, hrun⟩ := ih t
    exact ⟨(reply :: replies, u), hstep.bind (hrun.bind (.pure _))⟩

/-- Whatever is done with the caches and stores, nothing blocks, both strategies give the same answers
and the same state, and no cell is acquired again while it is held, nor anything but the pool from a
memo table. -/
theorem cells_are_not_reentered (ops : List Operation) (s : SharedState) :
    ∃ replies t record, (∀ strategy, (guarded strategy).run ops s = some (replies, t)) ∧
      watched.run ops s [] = ((replies, t), record) ∧
      ∀ a ∈ record, a.cell ∉ a.held ∧
        (a.held = [] ∨ ∃ memo : Cell, memo.IsMemo ∧ a.held = [memo] ∧ a.cell = .pool) := by
  obtain ⟨⟨replies, t⟩, hs, record, ho, hw⟩ := run_settles ops s
  exact ⟨replies, t, record, hs, hw [], fun a ha => ⟨(ho a ha).notMem, (ho a ha).nested⟩⟩

-- An integer that is not remembered is interned from within the memo, and one that is, is not.
example : (watched.run [.create {}, .cache 0 (.ask (.integer 7)), .cache 0 (.ask (.integer 7))] {}
    []).2 = [⟨[], .integers⟩, ⟨[.integers], .pool⟩, ⟨[], .integers⟩] := by
  decide +kernel

end Runner

end KnightLang
