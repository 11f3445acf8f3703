import KnightLang.Proofs.Spelling.Acting

namespace KnightLang

open List (Forall₂)

inductive RuntimeError.Respells : RuntimeError → RuntimeError → Prop
  | same (e : RuntimeError) : Respells e e
  | notAssignable (text text' : String) : Respells (.notAssignable text) (.notAssignable text')

inductive Stop.Respells : Stop → Stop → Prop
  | error {e e' : RuntimeError} (h : e.Respells e') : Respells (.error e) (.error e')
  | panic (p : Panic) : Respells (.panic p) (.panic p)

theorem Stop.respells_refl (stop : Stop) : stop.Respells stop := by
  cases stop with
  | error e => exact .error (.same e)
  | panic p => exact .panic p

structure Config.Respells (c e : Config) : Prop where
  control : c.control.Respells e.control
  frames : Forall₂ Frame.Respells c.frames e.frames
  state : c.state.Respells e.state

def Config.showsTree (c : Config) : Bool :=
  match c.control with
  | .node (.call _ _ .dumpTree _) => true
  | _ => false

inductive Step.Respells : Step → Step → Prop
  | next {c e : Config} (h : c.Respells e) : Step.Respells (.next c) (.next e)
  | halt {r r' : Except Stop Value} {s t : State} (h : Outcomes Stop.Respells Value.Respells r r')
      (hs : s.Respells t) : Step.Respells (.halt r s) (.halt r' t)

namespace Step.Respells

open Machine

variable {s t : State} {fs gs : List Frame} {ms ns : List Node} {m n : Node} {u v : Value}

section

variable (hs : s.Respells t)

include hs

theorem stop (stop : Stop) : Step.Respells (.halt (.error stop) s) (.halt (.error stop) t) :=
  .halt (.error stop.respells_refl) hs

theorem eval (h : m.Respells n) (hf : Forall₂ Frame.Respells fs gs) :
    (Machine.eval m fs s).Respells (Machine.eval n gs t) :=
  .next ⟨.node h, hf, hs⟩

theorem give (h : u.Respells v) (hf : Forall₂ Frame.Respells fs gs) :
    (Machine.give u fs s).Respells (Machine.give v gs t) :=
  .next ⟨.value h, hf, hs⟩

theorem force (h : u.Respells v) (hf : Forall₂ Frame.Respells fs gs) :
    (Machine.force u fs s).Respells (Machine.force v gs t) := by
  cases h with
  | block h => exact eval hs h hf
  | null => exact give hs .null hf
  | bool b => exact give hs (.bool b) hf
  | int n => exact give hs (.int n) hf
  | str a => exact give hs (.str a) hf

theorem after {α β : Type} {R : α → β → Prop} {x : Action α} {y : Action β} {f : α → State → Step}
    {g : β → State → Step} (h : Action.Agrees R x y)
    (hfg : ∀ {a b s t}, R a b → s.Respells t → (f a s).Respells (g b t)) :
    (Machine.after x s f).Respells (Machine.after y t g) := by
  obtain ⟨hst, hr⟩ := h hs
  rcases hx : x.run s with ⟨r, s'⟩
  rcases hy : y.run t with ⟨r', t'⟩
  rw [hx, hy] at hst hr
  cases hr with
  | ok hr =>
    rw [after_of_ok hx, after_of_ok hy]
    exact hfg hr hst
  | error he =>
    obtain rfl := he
    rw [after_of_error hx, after_of_error hy]
    exact stop hst _

theorem act {x y : Action Value} (h : Action.Agrees Value.Respells x y)
    (hf : Forall₂ Frame.Respells fs gs) :
    (Machine.after x s (Machine.give · fs)).Respells (Machine.after y t (Machine.give · gs)) :=
  after hs h fun hv hs => give hs hv hf

theorem decide (h : u.Respells v) {f g : Bool → State → Step}
    (hfg : ∀ b {s t}, s.Respells t → (f b s).Respells (g b t)) :
    (Machine.after (Action.toBool u) s f).Respells (Machine.after (Action.toBool v) t g) := by
  refine after hs (Action.agrees_toBool h) fun hb hs => ?_
  obtain rfl := hb
  exact hfg _ hs

theorem withArgument (h : Forall₂ Node.Respells ms ns) (i : Nat) {f g : Node → Step}
    (hfg : ∀ {m n}, m.Respells n → (f m).Respells (g n)) :
    (Machine.withArgument ms i s f).Respells (Machine.withArgument ns i t g) := by
  have hi := rel_getElem? h i
  unfold Machine.withArgument
  rw [h.length_eq]
  generalize ms[i]? = x at hi ⊢
  generalize ns[i]? = y at hi ⊢
  cases hi with
  | some h => exact hfg h
  | none => exact stop hs _

theorem apply (builtin : Builtin) {us vs : List Value} (h : Forall₂ Value.Respells us vs)
    (hf : Forall₂ Frame.Respells fs gs) :
    (Machine.apply builtin us fs s).Respells (Machine.apply builtin vs gs t) := by
  have halted : Step.Respells
      (.halt (.error (.panic (.missingArgument us.length us.length))) s)
      (.halt (.error (.panic (.missingArgument vs.length vs.length))) t) := by
    rw [h.length_eq]
    exact stop hs _
  -- with any other function, a list of arguments of this length is a panic
  cases h with
  | nil => cases builtin <;> exact halted
  | cons h h' =>
    cases h' with
    | nil =>
      cases builtin with
      | ascii => exact act hs (Action.agrees_ascii h) hf
      | call => exact force hs h hf
      | dump =>
        simp only [Machine.apply, h.dump_eq]
        exact act hs (Action.agrees_display _) hf
      | eval =>
        refine after hs ((Action.agrees_toStr h).bind fun hstr => ?_) fun hp hs => eval hs hp hf
        obtain rfl := hstr
        exact Action.agrees_sourceProgram _
      | length =>
        refine after hs (Action.agrees_toStr h) fun hstr hs => ?_
        obtain rfl := hstr
        exact give hs (.int _) hf
      | output => exact act hs (Action.agrees_output h) hf
      | quit =>
        refine after hs (Action.agrees_toInt h) fun hn hs => ?_
        obtain rfl := hn
        exact stop hs _
      | _ => exact halted
    | cons h₁ h' =>
      cases h' with
      | nil => cases builtin <;> exact halted
      | cons h₂ h' =>
        cases h' with
        | nil =>
          cases builtin with
          | get => exact act hs (Action.agrees_get h h₁ h₂) hf
          | _ => exact halted
        | cons h₃ h' =>
          cases h' with
          | nil =>
            cases builtin with
            | substitute => exact act hs (Action.agrees_substitute h h₁ h₂ h₃) hf
            | _ => exact halted
          | cons => cases builtin <;> exact halted

theorem call (around : Surroundings) {builtin : Builtin} (hb : builtin ≠ .dumpTree)
    (h : Forall₂ Node.Respells ms ns) (hf : Forall₂ Frame.Respells fs gs) :
    (Machine.call around builtin ms fs s).Respells (Machine.call around builtin ns gs t) := by
  have argued (builtin : Builtin) : Step.Respells
      (Machine.withArgument ms 0 s (Machine.eval · (.argument builtin ms [] :: fs) s))
      (Machine.withArgument ns 0 t (Machine.eval · (.argument builtin ns [] :: gs) t)) :=
    withArgument hs h 0 fun hm => eval hs hm (.cons (.argument builtin h .nil) hf)
  cases builtin with
  | dumpTree => exact absurd rfl hb
  | block => exact withArgument hs h 0 fun hm => give hs (.block hm) hf
  | prompt => exact act hs Action.agrees_prompt hf
  | random => exact act hs (Action.agrees_random around) hf
  | branch => exact withArgument hs h 0 fun hm => eval hs hm (.cons (.branch h) hf)
  | loop => exact withArgument hs h 0 fun hm => eval hs hm (.cons (.loopTest h) hf)
  | _ => exact argued _

theorem enter (around : Surroundings) (h : m.Respells n)
    (hm : Config.showsTree ⟨.node m, fs, s⟩ = false) (hf : Forall₂ Frame.Respells fs gs) :
    (Machine.enter around m fs s).Respells (Machine.enter around n gs t) := by
  cases h with
  | literal id h => exact give hs h hf
  | var id v =>
    have hread : Agree Store.Respells (Option.Rel Value.Respells) (Store.read? v)
        (Store.read? v) := fun _ _ hs => ⟨hs, hs.slots v.slot⟩
    simp only [Machine.enter]
    refine after hs (.onStore hread) fun hr hs => ?_
    cases hr with
    | some hr => exact force hs hr hf
    | none => exact stop hs _
  | unary id op h => exact eval hs h (.cons (.unary op) hf)
  | binary id op h h' =>
    cases op with
    | chain => exact eval hs h (.cons (.chain h') hf)
    | and => exact eval hs h (.cons (.and h') hf)
    | or => exact eval hs h (.cons (.or h') hf)
    | assign =>
      have refused (m n : Node) : Step.Respells
          (.halt (.error (.error (.notAssignable m.render))) s)
          (.halt (.error (.error (.notAssignable n.render))) t) :=
        .halt (.error (.error (.notAssignable _ _))) hs
      cases h with
      | var id v => exact eval hs h' (.cons (.assign v) hf)
      | literal id h => exact refused _ _
      | unary id op h => exact refused _ _
      | binary id op h h' => exact refused _ _
      | call id word word' builtin h => exact refused _ _
    | _ => exact eval hs h (.cons (.left _ h') hf)
  | call id word word' builtin h =>
    refine call hs around ?_ h hf
    rintro rfl
    cases hm

theorem resume (around : Surroundings) (h : u.Respells v) {f g : Frame} (hfg : f.Respells g)
    (hf : Forall₂ Frame.Respells fs gs) :
    (Machine.resume around u f fs s).Respells (Machine.resume around v g gs t) := by
  cases hfg with
  | unary op => exact act hs (Action.agrees_unary around op h) hf
  | left op hm => exact eval hs hm (.cons (.right op h) hf)
  | right op hv => exact act hs (Action.agrees_binary op hv h) hf
  | chain hm => exact eval hs hm hf
  | and hm =>
    refine decide hs h fun b _ _ hs => ?_
    cases b with
    | true => exact eval hs hm hf
    | false => exact give hs h hf
  | or hm =>
    refine decide hs h fun b _ _ hs => ?_
    cases b with
    | true => exact give hs h hf
    | false => exact eval hs hm hf
  | assign target =>
    have hwrite : Agree Store.Respells (fun _ _ => True) (Store.write target u)
        (Store.write target v) := fun _ _ hs => ⟨hs.write target h, trivial⟩
    exact after hs (.onStore hwrite) fun _ hs => give hs h hf
  | branch hms =>
    exact decide hs h fun b _ _ hs => withArgument hs hms _ fun hm => eval hs hm hf
  | loopTest hms =>
    refine decide hs h fun b _ _ hs => ?_
    cases b with
    | true => exact withArgument hs hms 1 fun hm => eval hs hm (.cons (.loopBody hms) hf)
    | false => exact give hs .null hf
  | loopBody hms => exact withArgument hs hms 0 fun hm => eval hs hm (.cons (.loopTest hms) hf)
  | argument builtin hms hvs =>
    have hvs := List.rel_append hvs (.cons h .nil)
    simp only [Machine.resume, hvs.length_eq]
    split
    · exact withArgument hs hms _ fun hm => eval hs hm (.cons (.argument builtin hms hvs) hf)
    · exact apply hs builtin hvs hf

end

theorem step (around : Surroundings) {c e : Config} (h : c.Respells e) (hc : c.showsTree = false) :
    (Machine.step around c).Respells (Machine.step around e) := by
  obtain ⟨control, frames, s⟩ := c
  obtain ⟨control', frames', t⟩ := e
  obtain ⟨hcontrol, hf, hs⟩ := h
  cases hcontrol with
  | node h => exact enter hs around h hc hf
  | value h =>
    cases hf with
    | nil => exact .halt (.ok h) hs
    | cons hfg hf => exact resume hs around h hfg hf

end Step.Respells

end KnightLang
