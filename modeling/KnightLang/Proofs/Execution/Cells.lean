import KnightLang.Proofs.Execution.Session

namespace KnightLang

open Std (TreeMap)

namespace Store

def value? (s : Store) (name : String) : Option Value :=
  let (v, t) := (Store.lookup name : StateM Store Variable) s
  ((Store.read? v : StateM Store (Option Value)) t).1

variable {s t : Store} {name : String}

theorem value?_eq (s : Store) (name : String) :
    s.value? name = s.names[name]?.bind fun slot => s.slots[slot]?.join := by
  have hread (v : Variable) (t : Store) :
      ((Store.read? v : StateM Store (Option Value)) t).1 = t.slots[v.slot]?.join := rfl
  unfold value?
  rw [lookup_eq]
  cases h : s.names[name]? with
  | some slot => exact hread _ _
  | none =>
    dsimp only
    rw [hread, getElem?_push_none]
    simp

theorem value?_of_links {v : Variable} (h : s.Links v) : s.value? v.name = s.slots[v.slot]?.join := by
  rw [value?_eq, h]
  rfl

theorem value?_lookup (other : String) (s : Store) (name : String) :
    ((Store.lookup other : StateM Store Variable) s).2.value? name = s.value? name := by
  rw [value?_eq, value?_eq, lookup_eq]
  cases h : s.names[other]? with
  | some slot => rfl
  | none =>
    simp only [getElem?_push_none, TreeMap.getElem?_insert, Std.compare_eq_iff_eq]
    split
    · rename_i heq
      subst heq
      simp [h]
    · rfl

theorem value?_lookupAll (s : Store) (names : List String) (name : String) :
    (s.lookupAll names).value? name = s.value? name := by
  induction names generalizing s with
  | nil => rfl
  | cons other names ih => exact (ih _).trans (value?_lookup other s name)

theorem value?_insert (s : Store) (programs : TreeMap Nat (Str × Program)) (name : String) :
    Store.value? { s with programs } name = s.value? name := by
  rw [value?_eq, value?_eq]

theorem value?_write (hs : s.Keyed) {target : Variable} (ht : s.Links target) (v : Value)
    (name : String) : ((Store.write target v : StateM Store Unit) s).2.value? name =
      if target.name = name then some v else s.value? name := by
  rw [value?_eq, value?_eq, write_eq]
  dsimp only
  split
  · rename_i heq
    subst heq
    rw [ht, Option.bind_some, Array.getElem?_setIfInBounds, if_pos rfl, if_pos (hs.lt ht)]
    rfl
  · rename_i hne
    cases hn : s.names[name]? with
    | none => rfl
    | some slot =>
      have hslot : target.slot ≠ slot := by
        rintro rfl
        exact hne (hs.inj ht hn)
      rw [Option.bind_some, Option.bind_some, Array.getElem?_setIfInBounds, if_neg hslot]

theorem value?_assign (hs : s.Keyed) (target : String) (v : Value) (name : String) :
    (Store.assign target v s).2.value? name = if target = name then some v else s.value? name := by
  have hw := value?_write (hs.lookup target) (s.links_lookup target) v name
  rw [variable_lookup, value?_lookup] at hw
  rw [assign_eq, variable_lookup]
  exact hw

inductive Runs (s : Store) : Node → Prop
  | cached {k : Nat} {e : Str × Program} (h : s.programs[k]? = some e) : Runs s e.2.root
  | stored {k : Nat} {n : Node} (h : s.slots[k]?.join = some (.block n)) : Runs s n

theorem node_of_runs {P : Trait} (h : P.OfStore s) {n : Node} (hn : s.Runs n) : P.node n := by
  cases hn with
  | cached he => exact h.programs he
  | stored hv => exact P.block.1 (h.slots hv)

end Store

theorem Program.value?_of_parse {source : String} {ws ws' : Workspace}
    {parsed : Except CompileError Program} (h : parse source ws = (parsed, ws')) (name : String) :
    ws'.store.value? name = ws.store.value? name := by
  obtain ⟨names, -, hs⟩ := looksUp_parse source ws
  rw [h] at hs
  rw [hs]
  exact ws.store.value?_lookupAll names name

theorem Program.mentions_of_parse {source : String} {ws ws' : Workspace}
    {parsed : Except CompileError Program} (h : parse source ws = (parsed, ws')) {name : String}
    (hn : name ∉ ws.store.names) (hn' : name ∈ ws'.store.names) : Token.Mentions source name := by
  obtain ⟨names, hm, hs⟩ := looksUp_parse source ws
  rw [h] at hs
  rw [hs] at hn'
  rcases Store.mem_of_mem_lookupAll hn' with hn' | hn'
  · exact absurd hn' hn
  · exact hm name hn'

namespace Config

inductive Runs (c : Config) : Node → Prop
  | node {n : Node} (h : c.control = .node n) : Runs c n
  | value {n : Node} (h : c.control = .value (.block n)) : Runs c n
  | frame {f : Frame} {n : Node} (hf : f ∈ c.frames) (h : n ∈ f.nodes) : Runs c n
  | held {f : Frame} {n : Node} (hf : f ∈ c.frames) (h : .block n ∈ f.values) : Runs c n
  | store {n : Node} (h : c.state.workspace.store.Runs n) : Runs c n

def Evals (c : Config) (source : String) : Prop :=
  ∃ v args frames a t, c.control = .value v ∧ c.frames = .argument .eval args [] :: frames ∧
    (Action.toStr v).run c.state = (.ok a, t) ∧ a.text = source

def written? (c : Config) (name : String) : Option Value :=
  match c with
  | ⟨.value v, .assign target :: _, _⟩ => if target.name = name then some v else none
  | _ => none

theorem node_of_runs {P : Trait} {c : Config} (h : P.OfConfig c) {n : Node} (hn : c.Runs n) :
    P.node n := by
  obtain ⟨hc, hf, hs⟩ := h
  cases hn with
  | node hn =>
    rw [hn] at hc
    exact hc
  | value hn =>
    rw [hn] at hc
    exact P.block.1 hc
  | frame hm hn => exact (hf _ hm).nodes n hn
  | held hm hn => exact P.block.1 ((hf _ hm).values _ hn)
  | store hn => exact Store.node_of_runs hs hn

/-- Trees, names and values are as they should be, now and in the next step. -/
structure Coherent (around : Surroundings) (c : Config) : Prop where
  bound : ∀ n, c.Runs n → ∀ v ∈ n.vars,
    (Store.lookup v.name : StateM Store Variable) c.state.workspace.store =
      (v, c.state.workspace.store)
  made : ∀ name, name ∉ c.state.workspace.store.names →
    name ∈ (Machine.step around c).state.workspace.store.names →
      ∃ source, c.Evals source ∧ Token.Mentions source name
  reads : ∀ id v frames s, c = ⟨.node (.var id v), frames, s⟩ →
    Machine.step around c = match s.workspace.store.value? v.name with
      | some value => Machine.force value frames s
      | none => .halt (.error (.error (.undefinedVariable v.name))) s
  writes : ∀ name, (Machine.step around c).state.workspace.store.value? name =
    (c.written? name).or (c.state.workspace.store.value? name)

variable {around : Surroundings} {c : Config}

theorem evals_of_made (around : Surroundings) {name : String}
    (hn : name ∉ c.state.workspace.store.names)
    (hn' : name ∈ (Machine.step around c).state.workspace.store.names) :
    ∃ source, c.Evals source ∧ Token.Mentions source name := by
  have hs := Machine.stores_step around c
  generalize (Machine.step around c).state = u at hs hn'
  cases hs with
  | keeps h =>
    rw [h] at hn'
    exact absurd hn' hn
  | assigns target hc hf h =>
    rw [h] at hn'
    exact absurd hn' hn
  | @finds v a t result args frames hc hf hv h =>
    rw [← Action.store_of_toStr hv] at hn
    refine ⟨a.text, ⟨v, args, frames, a, t, hc, hf, hv, rfl⟩, ?_⟩
    cases h with
    | known he => exact absurd hn' hn
    | parsed _ hp => exact Program.mentions_of_parse hp hn hn'
    | wrong _ hp => exact Program.mentions_of_parse hp hn hn'

theorem value?_step_assign (hk : c.state.workspace.store.Keyed) {v : Value} {target : Variable}
    {frames : List Frame} (hc : c = ⟨.value v, .assign target :: frames, c.state⟩)
    (ht : c.state.workspace.store.Links target) (around : Surroundings) (name : String) :
    (Machine.step around c).state.workspace.store.value? name =
      (c.written? name).or (c.state.workspace.store.value? name) := by
  have hw := Store.value?_write hk ht v name
  rw [hc]
  refine hw.trans ?_
  simp only [written?]
  split <;> rfl

theorem value?_step_of_not_assign
    (hc : ∀ v target frames, c.control = .value v → c.frames ≠ .assign target :: frames)
    (around : Surroundings) (name : String) :
    (Machine.step around c).state.workspace.store.value? name =
      c.state.workspace.store.value? name := by
  have hs := Machine.stores_step around c
  generalize (Machine.step around c).state = u at hs ⊢
  cases hs with
  | keeps h => rw [h]
  | assigns target hv hf h => exact absurd hf (hc _ _ _ hv)
  | @finds v a t result args frames _ hf hv h =>
    rw [← Action.store_of_toStr hv]
    cases h with
    | known he => rfl
    | parsed _ hp => exact (Store.value?_insert _ _ name).trans (Program.value?_of_parse hp name)
    | wrong _ hp => exact Program.value?_of_parse hp name

theorem coherent (around : Surroundings) (hk : c.state.workspace.store.Keyed)
    (h : c.state.workspace.store.linking.OfConfig c) : c.Coherent around where
  bound n hn v hv := Store.links_iff.1 (node_of_runs h hn v hv)
  made name := evals_of_made around
  reads := by
    rintro id v frames s rfl
    have hv : s.workspace.store.Links v := h.control v (List.mem_singleton.2 rfl)
    rw [Store.value?_of_links hv]
    change Machine.enter around (.var id v) frames s = _
    cases hvalue : s.workspace.store.slots[v.slot]?.join with
    | some value => exact Machine.enter_var_of_some hvalue
    | none => exact Machine.enter_var_of_none hvalue
  writes name := by
    obtain ⟨control, frames, s⟩ := c
    by_cases hc : ∃ v target rest, control = .value v ∧ frames = .assign target :: rest
    · obtain ⟨v, target, rest, rfl, rfl⟩ := hc
      have hf := h.frames (.assign target) List.mem_cons_self
      exact value?_step_assign hk rfl (hf.targets target (List.mem_singleton.2 rfl)) around name
    · have hnone : written? ⟨control, frames, s⟩ name = none := by
        unfold written?
        split
        · rename_i heq
          cases heq
          exact absurd ⟨_, _, _, rfl, rfl⟩ hc
        · rfl
      rw [hnone, Option.none_or]
      refine value?_step_of_not_assign (fun v target rest hv hf => ?_) around name
      exact hc ⟨v, target, rest, hv, hf⟩

end Config

namespace Session

inductive Runs (s : Session) : Node → Prop
  | held {n : Node} (h : n ∈ s.trees) : Runs s n
  | result {n : Node} (h : .block n ∈ s.results) : Runs s n
  | store {n : Node} (h : s.store.Runs n) : Runs s n

/-- How a name may come into the store: it is looked up, or it is mentioned in a source that is parsed,
now or at some step of a run. -/
inductive Makes (s : Session) (name : String) : Act → Prop
  | lookup : Makes s name (.lookup name)
  | assign (n : Nat) : Makes s name (.assign name n)
  | parse {source : String} (ws : Workspace) (h : Token.Mentions source name) :
      Makes s name (.parse source ws)
  | execute {n : Nat} {root : Node} {around : Surroundings} (fuel : Nat) {ws : Workspace}
      {console : Console} {c : Config} {source : String} (hn : s.trees[n]? = some root)
      (hc : Machine.Reaches around (s.opening root ws console) c)
      (h : name ∉ c.state.workspace.store.names)
      (h' : name ∈ (Machine.step around c).state.workspace.store.names)
      (he : c.Evals source) (hm : Token.Mentions source name) :
      Makes s name (.execute n around fuel ws console)

def Act.written? (s : Session) (name : String) : Act → Option Value
  | .assign target n => if target = name then s.results[n]? else none
  | _ => none

def Act.IsRun : Act → Prop
  | .execute .. => True
  | _ => False

/-- Trees, names and values are as they should be, now and after whatever is done next. -/
structure Coherent (s : Session) : Prop where
  bound : ∀ n, s.Runs n → ∀ v ∈ n.vars,
    (Store.lookup v.name : StateM Store Variable) s.store = (v, s.store)
  apart : ∀ a b, a ≠ b → ((Store.lookup a : StateM Store Variable) s.store).1.slot ≠
    ((Store.lookup b : StateM Store Variable)
      ((Store.lookup a : StateM Store Variable) s.store).2).1.slot
  made : ∀ (act : Act) name, name ∉ s.store.names → name ∈ (act.step s).store.names →
    s.Makes name act
  writes : ∀ (act : Act) name, ¬ act.IsRun →
    (act.step s).store.value? name = (act.written? s name).or (s.store.value? name)
  runs : ∀ n root around fuel ws console, s.trees[n]? = some root →
    ∃ c, Machine.Reaches around (s.opening root ws console) c ∧
      let t := ((Act.execute n around fuel ws console).step s).store
      t = c.state.workspace.store ∨ t = (Machine.step around c).state.workspace.store

variable {s : Session}

theorem node_of_runs {P : Store → Trait} (h : s.Has P) {n : Node} (hn : s.Runs n) :
    (P s.store).node n := by
  cases hn with
  | held hn => exact h.trees n hn
  | result hn => exact (P s.store).block.1 (h.results _ hn)
  | store hn => exact Store.node_of_runs h.store hn

theorem apart_of_keyed {s : Store} (hs : s.Keyed) {a b : String} (hab : a ≠ b) :
    ((Store.lookup a : StateM Store Variable) s).1.slot ≠
      ((Store.lookup b : StateM Store Variable)
        ((Store.lookup a : StateM Store Variable) s).2).1.slot := by
  have ha := s.names_lookup a
  have ht := hs.lookup a
  generalize (Store.lookup a : StateM Store Variable) s = r at ha ht ⊢
  have hb := r.2.names_lookup b
  have ha := (r.2.lookup_widens b).name ha
  intro he
  rw [he] at ha
  exact hab ((ht.lookup b).inj ha hb)

theorem store_keep (s : Session) (store : Store) (result : Option (Except Stop Value)) :
    (s.keep store result).store = store := by
  unfold keep
  split <;> rfl

theorem runs_execute (s : Session) {n : Nat} {root : Node} (around : Surroundings) (fuel : Nat)
    (ws : Workspace) (console : Console) (hn : s.trees[n]? = some root) :
    ∃ c, Machine.Reaches around (s.opening root ws console) c ∧
      let t := ((Act.execute n around fuel ws console).step s).store
      t = c.state.workspace.store ∨ t = (Machine.step around c).state.workspace.store := by
  have hstore : ((Act.execute n around fuel ws console).step s).store =
      (Machine.advance around fuel (s.opening root ws console)).2.workspace.store := by
    simp only [Act.step, hn]
    exact s.store_keep _ _
  rw [hstore]
  obtain ⟨c, hc, ha | ⟨result, t, hs, ha⟩⟩ :=
    Machine.reaches_advance around fuel (s.opening root ws console)
  · rw [ha]
    exact ⟨c, hc, .inl rfl⟩
  · rw [ha]
    refine ⟨c, hc, .inr ?_⟩
    rw [hs]
    rfl

theorem exists_making {around : Surroundings} {c e : Config} (h : Machine.Reaches around c e)
    {name : String} (hc : name ∉ c.state.workspace.store.names)
    (he : name ∈ e.state.workspace.store.names) :
    ∃ d, Machine.Reaches around c d ∧ name ∉ d.state.workspace.store.names ∧
      name ∈ (Machine.step around d).state.workspace.store.names := by
  induction h with
  | refl => exact absurd he hc
  | @tail b e hb hs ih =>
    by_cases hn : name ∈ b.state.workspace.store.names
    · exact ih hn
    · refine ⟨b, hb, hn, ?_⟩
      rw [hs]
      exact he

theorem makes_of_made {act : Act} {name : String} (hn : name ∉ s.store.names)
    (hn' : name ∈ (act.step s).store.names) : s.Makes name act := by
  cases act with
  | lookup other =>
    rcases Store.mem_lookup.1 hn' with rfl | h
    · exact .lookup
    · exact absurd h hn
  | assign other n =>
    simp only [Act.step] at hn'
    split at hn'
    · rw [Store.assign_eq] at hn'
      rcases Store.mem_lookup.1 hn' with rfl | h
      · exact .assign n
      · exact absurd h hn
    · exact absurd hn' hn
  | parse source ws =>
    apply Makes.parse
    simp only [Act.step] at hn'
    rcases hp : Program.parse source (ws.withStore s.store) with ⟨e | q, ws'⟩
    · rw [hp] at hn'
      exact Program.mentions_of_parse hp hn hn'
    · rw [hp] at hn'
      exact Program.mentions_of_parse hp hn hn'
  | execute n around fuel ws console =>
    cases hr : s.trees[n]? with
    | none =>
      simp only [Act.step, hr] at hn'
      exact absurd hn' hn
    | some root =>
      obtain ⟨e, he, hstore⟩ := s.runs_execute around fuel ws console hr
      obtain ⟨c, hc, h, h'⟩ : ∃ c, Machine.Reaches around (s.opening root ws console) c ∧
          name ∉ c.state.workspace.store.names ∧
          name ∈ (Machine.step around c).state.workspace.store.names := by
        by_cases hname : name ∈ e.state.workspace.store.names
        · exact exists_making he hn hname
        · rcases hstore with hstore | hstore
          · rw [hstore] at hn'
            exact absurd hn' hname
          · rw [hstore] at hn'
            exact ⟨e, he, hname, hn'⟩
      obtain ⟨source, hs, hm⟩ := Config.evals_of_made around h h'
      exact .execute fuel hr hc h h' hs hm

theorem value?_step (hs : s.store.Keyed) {act : Act} (ha : ¬ act.IsRun) (name : String) :
    (act.step s).store.value? name = (act.written? s name).or (s.store.value? name) := by
  cases act with
  | lookup other => exact Store.value?_lookup other s.store name
  | assign target n =>
    simp only [Act.step, Act.written?]
    cases hn : s.results[n]? with
    | none => simp
    | some v =>
      refine (Store.value?_assign hs target v name).trans ?_
      split <;> rfl
  | parse source ws =>
    simp only [Act.step]
    rcases hp : Program.parse source (ws.withStore s.store) with ⟨e | q, ws'⟩ <;>
      exact Program.value?_of_parse hp name
  | execute n around fuel ws console => exact absurd trivial ha

theorem coherent_run (acts : List Act) : (run acts).Coherent := by
  have hkeyed := keyed_run acts
  constructor
  · intro n hn v hv
    rw [← Store.links_iff]
    exact node_of_runs (Store.enduring_linking.run acts) hn v hv
  · intro a b hab
    exact apart_of_keyed hkeyed hab
  · intro act name
    exact makes_of_made
  · intro act name ha
    exact value?_step hkeyed ha name
  · intro n root around fuel ws console hn
    exact (run acts).runs_execute around fuel ws console hn

/-- Whatever is done with a store, each variable node is bound to the slot that its name has, now and
later, also in the middle of a run; no two names share one; names, slots and values are only added; and
what a name reads as is what was last assigned to it. -/
theorem one_slot_per_name (acts : List Act) :
    (run acts).Coherent ∧
    (∀ later, (run acts).store.size ≤ (run (acts ++ later)).store.size ∧
      (run acts).store.Lasts (run (acts ++ later)).store) ∧
    ∀ root ∈ (run acts).trees, ∀ around ws console c,
      Machine.Reaches around ((run acts).opening root ws console) c →
        c.Coherent around ∧ (run acts).store.size ≤ c.state.workspace.store.size ∧
          (run acts).store.Lasts c.state.workspace.store := by
  have hkeyed := keyed_run acts
  have size {t : Store} (h : (run acts).store.Edits t) : (run acts).store.size ≤ t.size := by
    have hle := h.lasts.size
    rw [← hkeyed.size, ← (h.keyed hkeyed).size] at hle
    exact hle
  refine ⟨coherent_run acts, fun later => ?_, ?_⟩
  · have h := edits_run acts later
    exact ⟨size h, h.lasts⟩
  · intro root hr around ws console c hc
    have h : (run acts).store.Edits c.state.workspace.store := Machine.edits_reaches hc
    have hopen := (Store.enduring_linking.run acts).opening hr ws console
    refine ⟨Config.coherent around (h.keyed hkeyed) ?_, size h, h.lasts⟩
    exact Store.enduring_linking.reaches hopen hc

theorem one_slot_per_name_shared :
    let around : Surroundings := ⟨fun _ => 0, fun _ _ files => ((.exited 0, []), files)⟩
    let acts : List Act := [.parse "= x 1" .fresh, .parse "OUTPUT x" .fresh]
    let s := run acts
    s.trees.map Node.vars = [[⟨"x", 0⟩], [⟨"x", 0⟩]] ∧
      (Store.lookup "x" : StateM Store Variable) s.store = (⟨"x", 0⟩, s.store) ∧
      ∃ root ∈ s.trees, (s.opening root .fresh {}).Coherent around := by
  intro around acts
  have hvars : (run acts).trees.map Node.vars = [[⟨"x", 0⟩], [⟨"x", 0⟩]] := by decide +kernel
  obtain ⟨hs, -, hc⟩ := one_slot_per_name acts
  generalize run acts = s at hvars hs hc ⊢
  intro s
  obtain ⟨root, roots, hroots, hroot, -⟩ := List.map_eq_cons_iff.1 hvars
  have hmem : root ∈ s.trees := by
    rw [hroots]
    exact List.mem_cons_self
  have hx : ⟨"x", 0⟩ ∈ root.vars := by
    rw [hroot]
    exact List.mem_singleton.2 rfl
  refine ⟨hvars, hs.bound root (.held hmem) _ hx, root, hmem, ?_⟩
  exact (hc root hmem around .fresh {} _ .refl).1

end Session

end KnightLang
