import KnightLang.Proofs.Execution.Cells

namespace KnightLang

mutual

def Value.parts : Value → List Node
  | .block body => body.parts
  | _ => []

def Node.parts : Node → List Node
  | .literal id value => .literal id value :: value.parts
  | .var id v => [.var id v]
  | .unary id op operand => .unary id op operand :: operand.parts
  | .binary id op left right => .binary id op left right :: (left.parts ++ right.parts)
  | .call id word builtin args => .call id word builtin args :: Node.partsAll args

def Node.partsAll : List Node → List Node
  | [] => []
  | n :: ns => n.parts ++ Node.partsAll ns

end

namespace Node

theorem mem_partsAll {ns : List Node} {m : Node} : m ∈ partsAll ns ↔ ∃ n ∈ ns, m ∈ n.parts := by
  induction ns with
  | nil => simp [partsAll]
  | cons n ns ih => simp [partsAll, ih]

theorem mem_parts_self (n : Node) : n ∈ n.parts := by
  cases n <;> exact List.mem_cons_self

def target? : Node → Option Variable
  | .binary _ .assign (.var _ v) _ => some v
  | _ => none

def builtin? : Node → Option Builtin
  | .call _ _ builtin _ => some builtin
  | _ => none

end Node

/-- A tree and the blocks that variables hold, with all their parts. -/
def Store.footprint (s : Store) (root : Node) : List Node :=
  root.parts ++ s.slots.toList.flatMap fun value => value.elim [] Value.parts

def Assigns (F : List Node) (name : String) : Prop := ∃ n ∈ F, n.target?.map Variable.name = some name

def Calls (F : List Node) (builtin : Builtin) : Prop := ∃ n ∈ F, n.builtin? = some builtin

instance (F : List Node) (name : String) : Decidable (Assigns F name) :=
  inferInstanceAs (Decidable (∃ n ∈ F, _))

instance (F : List Node) (builtin : Builtin) : Decidable (Calls F builtin) :=
  inferInstanceAs (Decidable (∃ n ∈ F, _))

def Trait.within (F : List Node) : Trait where
  node n := ∀ m ∈ n.parts, m ∈ F
  value v := ∀ m ∈ v.parts, m ∈ F
  target _ := True
  scalar {v} h := by
    cases v with
    | block body => exact absurd rfl h
    | _ => exact nofun
  block := Iff.rfl
  literal h m hm := h m (List.mem_cons_of_mem _ hm)
  var _ := trivial
  unary h m hm := h m (List.mem_cons_of_mem _ hm)
  binary h := List.forall_mem_append.1 fun m hm => h m (List.mem_cons_of_mem _ hm)
  call h n hn m hm := h m (List.mem_cons_of_mem _ (Node.mem_partsAll.2 ⟨n, hn, hm⟩))

/-- What waits for a value and will do something with it besides evaluation was put there for one of
the trees. -/
def Frame.Opened (F : List Node) : Frame → Prop
  | .unary op => ∃ id n, .unary id op n ∈ F
  | .assign target => ∃ n ∈ F, n.target? = some target
  | .argument builtin _ _ => Calls F builtin
  | _ => True

def Step.Opens (F : List Node) : Step → Prop
  | .next c => ∀ f ∈ c.frames, f.Opened F
  | .halt _ _ => True

namespace Machine

section

variable {F : List Node} {s : State} {frames : List Frame}

theorem opens_after {α : Type} {x : Action α} {go : α → State → Step}
    (hgo : ∀ a t, (go a t).Opens F) : (after x s go).Opens F := by
  unfold after
  split
  · exact hgo _ _
  · trivial

theorem opens_withArgument {args : List Node} {i : Nat} {go : Node → Step}
    (hgo : ∀ n, (go n).Opens F) : (withArgument args i s go).Opens F := by
  unfold withArgument
  split
  · exact hgo _
  · trivial

variable (hf : ∀ f ∈ frames, f.Opened F)
include hf

theorem opens_eval (n : Node) : (eval n frames s).Opens F := hf

theorem opens_give (v : Value) : (give v frames s).Opens F := hf

theorem opens_waits (n : Node) {f : Frame} (h : f.Opened F) : (eval n (f :: frames) s).Opens F :=
  List.forall_mem_cons.2 ⟨h, hf⟩

theorem opens_force (v : Value) : (force v frames s).Opens F := by
  cases v <;> exact hf

theorem opens_act (x : Action Value) : (after x s (give · frames)).Opens F :=
  opens_after fun _ _ => hf

theorem opens_apply (builtin : Builtin) (vs : List Value) : (apply builtin vs frames s).Opens F := by
  unfold apply
  split
  · exact opens_act hf _
  · exact opens_force hf _
  · exact opens_act hf _
  · exact opens_after fun q _ => opens_eval hf q.root
  · exact opens_act hf _
  · exact opens_after fun _ _ => opens_give hf _
  · exact opens_act hf _
  · exact opens_after fun _ _ => trivial
  · exact opens_act hf _
  · trivial

theorem opens_call (around : Surroundings) {builtin : Builtin} (args : List Node)
    (h : Calls F builtin) : (call around builtin args frames s).Opens F := by
  have waits {f : Frame} (h : f.Opened F) : (withArgument args 0 s (eval · (f :: frames) s)).Opens F :=
    opens_withArgument fun n => opens_waits hf n h
  cases builtin with
  | block => exact opens_withArgument fun n => opens_give hf _
  | dumpTree => exact opens_withArgument fun n => opens_act hf _
  | prompt => exact opens_act hf _
  | random => exact opens_act hf (Action.random around)
  | branch => exact waits trivial
  | loop => exact waits trivial
  | _ => exact waits h

theorem opens_enter (around : Surroundings) {n : Node} (hn : n ∈ F) :
    (enter around n frames s).Opens F := by
  cases n with
  | literal id v => exact hf
  | var id v =>
    rw [enter]
    refine opens_after fun value t => ?_
    cases value with
    | some value => exact opens_force hf value
    | none => trivial
  | unary id op m => exact opens_waits hf m ⟨id, m, hn⟩
  | binary id op left right =>
    cases op with
    | assign =>
      cases left with
      | var id v => exact opens_waits hf right ⟨_, hn, rfl⟩
      | _ => trivial
    | _ => exact opens_waits hf left trivial
  | call id word builtin args => exact opens_call hf around args ⟨_, hn, rfl⟩

theorem opens_resume (around : Surroundings) (v : Value) {frame : Frame} (h : frame.Opened F) :
    (resume around v frame frames s).Opens F := by
  cases frame with
  | unary op => exact opens_act hf _
  | left op right => exact opens_waits hf right trivial
  | right op left => exact opens_act hf _
  | chain n => exact opens_eval hf n
  | and n =>
    refine opens_after fun b _ => ?_
    cases b with
    | true => exact opens_eval hf n
    | false => exact opens_give hf v
  | or n =>
    refine opens_after fun b _ => ?_
    cases b with
    | true => exact opens_give hf v
    | false => exact opens_eval hf n
  | assign target =>
    rw [resume]
    exact opens_after fun _ _ => opens_give hf v
  | branch args => exact opens_after fun _ _ => opens_withArgument fun n => opens_eval hf n
  | loopTest args =>
    refine opens_after fun b _ => ?_
    cases b with
    | true => exact opens_withArgument fun n => opens_waits hf n trivial
    | false => exact opens_give hf .null
  | loopBody args => exact opens_withArgument fun n => opens_waits hf n trivial
  | argument builtin args done =>
    simp only [resume]
    split
    · exact opens_withArgument fun n => opens_waits hf n h
    · exact opens_apply hf builtin _

end

end Machine

structure Config.Stays (F : List Node) (c : Config) : Prop where
  control : (Trait.within F).control c.control
  frames : ∀ f ∈ c.frames, (Trait.within F).OfFrame f
  opened : ∀ f ∈ c.frames, f.Opened F
  slots {k : Nat} {v : Value} : c.state.workspace.store.slots[k]?.join = some v →
    (Trait.within F).value v

namespace Config.Stays

variable {F : List Node} {around : Surroundings} {c e : Config}

theorem opening (q : Program) (s : State) :
    (q.opening s).Stays (s.workspace.store.footprint q.root) := by
  refine ⟨?_, nofun, nofun, ?_⟩
  · intro m hm
    exact List.mem_append_left _ hm
  · intro k v hv m hm
    have hslot : s.workspace.store.slots[k]? = some (some v) := Option.join_eq_some_iff.1 hv
    have hmem : some v ∈ s.workspace.store.slots.toList :=
      List.mem_of_getElem? (Array.getElem?_toList ▸ hslot)
    exact List.mem_append_right _ (List.mem_flatMap.2 ⟨some v, hmem, hm⟩)

theorem passes (h : c.Stays F) (hF : ¬ Calls F .eval) (around : Surroundings) :
    (Trait.within F).Passes (Machine.step around c) := by
  apply Machine.passes_step around h.control h.frames h.slots
  intro args done frames hframes
  exact absurd (h.opened (.argument .eval args done) (hframes ▸ List.mem_cons_self)) hF

theorem opens (h : c.Stays F) (around : Surroundings) : (Machine.step around c).Opens F := by
  obtain ⟨control, frames, s⟩ := c
  cases control with
  | node n => exact Machine.opens_enter h.opened around (h.control n n.mem_parts_self)
  | value v =>
    cases frames with
    | nil => trivial
    | cons frame frames =>
      have hf := List.forall_mem_cons.1 h.opened
      exact Machine.opens_resume hf.2 around v hf.1

theorem writes (h : c.Stays F) (hF : ¬ Calls F .eval) {t : State} (ht : Machine.Stores c t) :
    t.workspace.store = c.state.workspace.store ∨ ∃ target v,
      (∃ n ∈ F, n.target? = some target) ∧ .assign target ∈ c.frames ∧ (Trait.within F).value v ∧
      t.workspace.store = ((Store.write target v : StateM Store Unit) c.state.workspace.store).2 := by
  cases ht with
  | keeps ht => exact .inl ht
  | @assigns target v frames hc hf ht =>
    have hmem : .assign target ∈ c.frames := hf ▸ List.mem_cons_self
    have hv := h.control
    rw [hc] at hv
    exact .inr ⟨target, v, h.opened _ hmem, hmem, hv, ht⟩
  | @finds v source s result args frames hc hf =>
    exact absurd (h.opened (.argument .eval args []) (hf ▸ List.mem_cons_self)) hF

theorem next (h : c.Stays F) (hF : ¬ Calls F .eval) (hs : Machine.step around c = .next e) :
    e.Stays F := by
  have hpass := h.passes hF around
  have hopen := h.opens around
  have hstore := Machine.stores_step around c
  rw [hs] at hpass hopen hstore
  cases hpass with
  | next hcontrol hframes =>
    refine ⟨hcontrol, hframes, hopen, ?_⟩
    intro k v hv
    rcases h.writes hF hstore with hsame | ⟨target, u, -, -, hu, hwrite⟩
    · exact h.slots (hsame ▸ hv)
    · rcases Store.slots_of_write (hwrite ▸ hv) with rfl | hv
      · exact hu
      · exact h.slots hv

theorem reaches (h : c.Stays F) (hF : ¬ Calls F .eval) (he : Machine.Reaches around c e) :
    e.Stays F := by
  induction he with
  | refl => exact h
  | tail _ hs ih => exact ih.next hF hs

end Config.Stays

structure Store.Spares (F : List Node) (s t : Store) : Prop where
  names : t.names = s.names
  programs : t.programs = s.programs
  values {name : String} (h : ¬ Assigns F name) : t.value? name = s.value? name

namespace Store.Spares

variable {F : List Node} {s t u : Store}

theorem refl (F : List Node) (s : Store) : s.Spares F s := ⟨rfl, rfl, fun _ => rfl⟩

theorem trans (h : s.Spares F t) (h' : t.Spares F u) : s.Spares F u where
  names := h'.names.trans h.names
  programs := h'.programs.trans h.programs
  values hn := (h'.values hn).trans (h.values hn)

theorem write (hs : s.Keyed) {target : Variable} (ht : s.Links target)
    (hF : ∃ n ∈ F, n.target? = some target) (v : Value) :
    s.Spares F ((Store.write target v : StateM Store Unit) s).2 where
  names := rfl
  programs := rfl
  values {name} hn := by
    rw [value?_write hs ht, if_neg]
    rintro rfl
    obtain ⟨n, hmem, htarget⟩ := hF
    exact hn ⟨n, hmem, by rw [htarget]; rfl⟩

end Store.Spares

namespace Config

variable {F : List Node} {around : Surroundings} {c e : Config}

theorem Stays.spares (h : c.Stays F) (hF : ¬ Calls F .eval) (hk : c.state.workspace.store.Keyed)
    (hl : c.state.workspace.store.linking.OfConfig c) {t : State} (ht : Machine.Stores c t) :
    c.state.workspace.store.Spares F t.workspace.store := by
  rcases h.writes hF ht with hsame | ⟨target, v, htarget, hmem, -, hwrite⟩
  · rw [hsame]
    exact .refl F _
  · rw [hwrite]
    exact .write hk ((hl.frames _ hmem).targets target (List.mem_singleton.2 rfl)) htarget v

theorem Stays.spares_reaches (h : c.Stays F) (hF : ¬ Calls F .eval)
    (hk : c.state.workspace.store.Keyed) (hl : c.state.workspace.store.linking.OfConfig c)
    (he : Machine.Reaches around c e) :
    c.state.workspace.store.Spares F e.state.workspace.store := by
  induction he with
  | refl => exact .refl F _
  | @tail b e hb hs ih =>
    have hkb := (Machine.edits_reaches hb).keyed hk
    have hlb := Store.enduring_linking.reaches hl hb
    have hstore := Machine.stores_step around b
    rw [hs] at hstore
    exact ih.trans ((h.reaches hF hb).spares hF hkb hlb hstore)

theorem Stays.spares_advance (h : c.Stays F) (hF : ¬ Calls F .eval)
    (hk : c.state.workspace.store.Keyed) (hl : c.state.workspace.store.linking.OfConfig c)
    (fuel : Nat) : c.state.workspace.store.Spares F
      (Machine.advance around fuel c).2.workspace.store := by
  obtain ⟨e, he, ha | ha⟩ := Machine.exists_state_advance around fuel c
  · rw [ha]
    exact h.spares_reaches hF hk hl he
  · have hke := (Machine.edits_reaches he).keyed hk
    have hle := Store.enduring_linking.reaches hl he
    have hstore := Machine.stores_step around e
    rw [ha]
    exact (h.spares_reaches hF hk hl he).trans ((h.reaches hF he).spares hF hke hle hstore)

end Config

end KnightLang
