import KnightLang.Proofs.Lockstep.Acting

namespace KnightLang

open List (Forall₂)

variable {L : Link} {d : Int} {w : Pairing}

structure Config.Alike (L : Link) (d : Int) (w : Pairing) (c e : Config) : Prop where
  control : c.control.Matches d w e.control
  frames : Forall₂ (Frame.Matches d w) c.frames e.frames
  state : c.state.Alike L d w e.state

inductive Step.Alike (L : Link) (d : Int) (w : Pairing) : Step → Step → Prop
  | next {c e : Config} (h : c.Alike L d w e) : Step.Alike L d w (.next c) (.next e)
  | halt {r r' : Except Stop Value} {s t : State} (h : Results (Value.Matches d) w r r')
      (hs : s.Alike L d w t) : Step.Alike L d w (.halt r s) (.halt r' t)

def Link.Steps (L : Link) (d : Int) (w : Pairing) (x y : Step) : Prop :=
  L.Enough (supply x.state) → L.Enough (supply y.state) → ∃ w', w ≤ w' ∧ x.Alike L d w' y

theorem Frame.Matches.monoAll {w' : Pairing} (hw : w ≤ w') {fs gs : List Frame}
    (h : Forall₂ (Frame.Matches d w) fs gs) : Forall₂ (Frame.Matches d w') fs gs :=
  h.imp fun _ _ hf => hf.mono hw

theorem rel_getElem? {α β : Type} {R : α → β → Prop} {as : List α} {bs : List β}
    (h : Forall₂ R as bs) (i : Nat) : Option.Rel R as[i]? bs[i]? := by
  induction h generalizing i with
  | nil => exact .none
  | cons h _ ih =>
    cases i with
    | zero => exact .some h
    | succ i => exact ih i

namespace Machine

variable {s t : State} {fs gs : List Frame}

theorem steps_eval {m n : Node} (h : m.Matches d w n) (hf : Forall₂ (Frame.Matches d w) fs gs)
    (hs : s.Alike L d w t) : L.Steps d w (eval m fs s) (eval n gs t) :=
  fun _ _ => ⟨w, le_rfl, .next ⟨.node h, hf, hs⟩⟩

theorem steps_give {u v : Value} (h : u.Matches d w v) (hf : Forall₂ (Frame.Matches d w) fs gs)
    (hs : s.Alike L d w t) : L.Steps d w (give u fs s) (give v gs t) :=
  fun _ _ => ⟨w, le_rfl, .next ⟨.value h, hf, hs⟩⟩

theorem steps_halt {r r' : Except Stop Value} (h : Results (Value.Matches d) w r r')
    (hs : s.Alike L d w t) : L.Steps d w (.halt r s) (.halt r' t) :=
  fun _ _ => ⟨w, le_rfl, .halt h hs⟩

theorem steps_force {u v : Value} (h : u.Matches d w v) (hf : Forall₂ (Frame.Matches d w) fs gs)
    (hs : s.Alike L d w t) : L.Steps d w (force u fs s) (force v gs t) := by
  cases h with
  | null => exact steps_give .null hf hs
  | bool b => exact steps_give (.bool b) hf hs
  | int n => exact steps_give (.int n) hf hs
  | str h => exact steps_give (.str h) hf hs
  | block h => exact steps_eval h hf hs

theorem action_le {α : Type} {action : Action α} {go : α → State → Step}
    (hgo : ∀ a t, Advances t (go a t)) : Advances (action.run s).2 (after action s go) := by
  unfold after Advances
  change (supply (action s).2).nextTag.toNat ≤ _
  split
  · rename_i a t ht
    rw [ht]
    exact hgo a t
  · rename_i stop t ht
    rw [ht]
    exact le_rfl

theorem steps_after {α β : Type} {R : Pairing → α → β → Prop} {x : Action α} {y : Action β}
    {f : α → State → Step} {g : β → State → Step} (h : L.Acts d w R x y) (hs : s.Alike L d w t)
    (hf : ∀ a s, Advances s (f a s)) (hg : ∀ b t, Advances t (g b t))
    (hfg : ∀ {w' : Pairing} {a : α} {b : β} {s t : State}, w ≤ w' → R w' a b → s.Alike L d w' t →
      L.Steps d w' (f a s) (g b t)) : L.Steps d w (after x s f) (after y t g) := by
  intro hx hy
  have hx' := hx.of_le (action_le hf)
  have hy' := hy.of_le (action_le hg)
  obtain ⟨w₁, hw₁, hs₁, hr⟩ := h le_rfl hs hx' hy'
  unfold after at hx hy ⊢
  change (x s).2.Alike L d w₁ (y t).2 at hs₁
  change Results R w₁ (x s).1 (y t).1 at hr
  generalize x s = p at hx hs₁ hr ⊢
  generalize y t = q at hy hs₁ hr ⊢
  obtain ⟨r, s'⟩ := p
  obtain ⟨r', t'⟩ := q
  cases hr with
  | ok hr =>
    obtain ⟨w₂, hw₂, hst⟩ := hfg hw₁ hr hs₁ hx hy
    exact ⟨w₂, hw₁.trans hw₂, hst⟩
  | error stop => exact ⟨w₁, hw₁, .halt (.error stop) hs₁⟩

theorem steps_withArgument {ms ns : List Node} (h : Forall₂ (Node.Matches d w) ms ns) (i : Nat)
    (hs : s.Alike L d w t) {f g : Node → Step}
    (hfg : ∀ {m n : Node}, m.Matches d w n → L.Steps d w (f m) (g n)) :
    L.Steps d w (withArgument ms i s f) (withArgument ns i t g) := by
  have hi := rel_getElem? h i
  unfold withArgument
  rw [h.length_eq]
  generalize ms[i]? = x at hi ⊢
  generalize ns[i]? = y at hi ⊢
  cases hi with
  | some h => exact hfg h
  | none => exact steps_halt (.error _) hs

theorem steps_act {x y : Action Value} (h : L.Acts d w (Value.Matches d) x y)
    (hf : Forall₂ (Frame.Matches d w) fs gs) (hs : s.Alike L d w t) :
    L.Steps d w (after x s (give · fs)) (after y t (give · gs)) :=
  steps_after h hs (fun _ _ => le_rfl) (fun _ _ => le_rfl) fun hw hr hs =>
    steps_give hr (Frame.Matches.monoAll hw hf) hs

theorem steps_apply (hL : L.Lawful) (builtin : Builtin) {us vs : List Value}
    (h : Forall₂ (Value.Matches d w) us vs) (hf : Forall₂ (Frame.Matches d w) fs gs)
    (hs : s.Alike L d w t) : L.Steps d w (apply builtin us fs s) (apply builtin vs gs t) := by
  have halted : L.Steps d w
      (.halt (.error (.panic (.missingArgument us.length us.length))) s)
      (.halt (.error (.panic (.missingArgument vs.length vs.length))) t) := by
    rw [h.length_eq]
    exact steps_halt (.error _) hs
  cases h with
  | nil => cases builtin <;> exact halted
  | cons h h' =>
    cases h' with
    | nil =>
      cases builtin with
      | ascii => exact steps_act (hL.ascii h) hf hs
      | call => exact steps_force h hf hs
      | dump =>
        refine steps_act (hL.assumeActs fun hw => ?_) hf hs
        rw [h.dump_eq hw]
        exact Link.Lawful.display _
      | eval =>
        exact steps_after ((hL.toStr h).bind fun _ hab => hL.sourceProgram hab) hs
          (fun _ _ => le_rfl) (fun _ _ => le_rfl) fun hw hp hs =>
            steps_eval hp (Frame.Matches.monoAll hw hf) hs
      | length =>
        refine steps_after (hL.toStr h) hs (fun _ _ => le_rfl) (fun _ _ => le_rfl) fun hw hab hs => ?_
        rw [(hL.faithful hs.workspace.strings).length_eq hab]
        exact steps_give (.int _) (Frame.Matches.monoAll hw hf) hs
      | output => exact steps_act (hL.output h) hf hs
      | quit =>
        refine steps_after (hL.toInt h) hs (fun _ _ => le_rfl) (fun _ _ => le_rfl) fun _ hn hs => ?_
        obtain rfl := hn
        exact steps_halt (.error _) hs
      | _ => exact halted
    | cons h₁ h' =>
      cases h' with
      | nil => cases builtin <;> exact halted
      | cons h₂ h' =>
        cases h' with
        | nil =>
          cases builtin with
          | get => exact steps_act (hL.get h h₁ h₂) hf hs
          | _ => exact halted
        | cons h₃ h' =>
          cases h' with
          | nil =>
            cases builtin with
            | substitute => exact steps_act (hL.substitute h h₁ h₂ h₃) hf hs
            | _ => exact halted
          | cons => cases builtin <;> exact halted

theorem steps_call (hL : L.Lawful) (around : Surroundings) (builtin : Builtin) {ms ns : List Node}
    (h : Forall₂ (Node.Matches d w) ms ns) (hf : Forall₂ (Frame.Matches d w) fs gs)
    (hs : s.Alike L d w t) :
    L.Steps d w (call around builtin ms fs s) (call around builtin ns gs t) := by
  have argued (builtin : Builtin) : L.Steps d w
      (withArgument ms 0 s (eval · (.argument builtin ms [] :: fs) s))
      (withArgument ns 0 t (eval · (.argument builtin ns [] :: gs) t)) :=
    steps_withArgument h 0 hs fun hm => steps_eval hm (.cons (.argument builtin h .nil) hf) hs
  cases builtin with
  | block => exact steps_withArgument h 0 hs fun hm => steps_give (.block hm) hf hs
  | dumpTree =>
    refine steps_withArgument h 0 hs fun hm => steps_act (hL.assumeActs fun hw => ?_) hf hs
    rw [hm.render_eq hw]
    exact Link.Lawful.display _
  | prompt => exact steps_act hL.prompt hf hs
  | random => exact steps_act (Link.Lawful.random around) hf hs
  | branch =>
    exact steps_withArgument h 0 hs fun hm => steps_eval hm (.cons (.branch h) hf) hs
  | loop =>
    exact steps_withArgument h 0 hs fun hm => steps_eval hm (.cons (.loopTest h) hf) hs
  | _ => exact argued _

theorem steps_enter (hL : L.Lawful) (around : Surroundings) {m n : Node} (h : m.Matches d w n)
    (hf : Forall₂ (Frame.Matches d w) fs gs) (hs : s.Alike L d w t) :
    L.Steps d w (enter around m fs s) (enter around n gs t) := by
  cases h with
  | literal hid h => exact steps_give h hf hs
  | var hid v =>
    have hread : L.Acts d w (Options (Value.Matches d)) (Action.onStore (Store.read? v))
        (Action.onStore (Store.read? v)) := .onStore hL fun _ _ h => ⟨h, h.slots v.slot⟩
    simp only [enter]
    refine steps_after hread hs ?_ ?_ fun hw hr hs => ?_
    · rintro (_ | value) s
      · exact le_rfl
      · exact force_advances value fs
    · rintro (_ | value) s
      · exact le_rfl
      · exact force_advances value gs
    · cases hr with
      | some hr => exact steps_force hr (Frame.Matches.monoAll hw hf) hs
      | none => exact steps_halt (.error _) hs
  | unary hid op h => exact steps_eval h (.cons (.unary op) hf) hs
  | binary hid op h h' =>
    cases op with
    | chain => exact steps_eval h (.cons (.chain h') hf) hs
    | and => exact steps_eval h (.cons (.and h') hf) hs
    | or => exact steps_eval h (.cons (.or h') hf) hs
    | assign =>
      have refused {m n : Node} (hm : m.Matches d w n) : L.Steps d w
          (.halt (.error (.error (.notAssignable m.render))) s)
          (.halt (.error (.error (.notAssignable n.render))) t) := by
        rw [hm.render_eq (hL.faithful hs.workspace.strings)]
        exact steps_halt (.error _) hs
      cases h with
      | var hid v => exact steps_eval h' (.cons (.assign v) hf) hs
      | literal hid h => exact refused (.literal hid h)
      | unary hid op h => exact refused (.unary hid op h)
      | binary hid op h h' => exact refused (.binary hid op h h')
      | call hid word builtin h => exact refused (.call hid word builtin h)
    | _ => exact steps_eval h (.cons (.left _ h') hf) hs
  | call hid word builtin h => exact steps_call hL around builtin h hf hs

theorem steps_decide (hL : L.Lawful) {u v : Value} (h : u.Matches d w v) (hs : s.Alike L d w t)
    {f g : Bool → State → Step} (hf : ∀ b s, Advances s (f b s)) (hg : ∀ b t, Advances t (g b t))
    (hfg : ∀ {w' : Pairing} {s t : State} (b : Bool), w ≤ w' → s.Alike L d w' t →
      L.Steps d w' (f b s) (g b t)) :
    L.Steps d w (after (Action.toBool u) s f) (after (Action.toBool v) t g) := by
  refine steps_after (hL.toBool h) hs hf hg fun hw hb hs => ?_
  obtain rfl := hb
  exact hfg _ hw hs

theorem steps_resume (hL : L.Lawful) (around : Surroundings) {u v : Value} (h : u.Matches d w v)
    {f g : Frame} (hfg : f.Matches d w g) (hf : Forall₂ (Frame.Matches d w) fs gs)
    (hs : s.Alike L d w t) :
    L.Steps d w (resume around u f fs s) (resume around v g gs t) := by
  cases hfg with
  | unary op => exact steps_act (hL.unary around op h) hf hs
  | left op hm => exact steps_eval hm (.cons (.right op h) hf) hs
  | right op hv => exact steps_act (hL.binary op hv h) hf hs
  | chain hm => exact steps_eval hm hf hs
  | and hm =>
    refine steps_decide hL h hs ?_ ?_ fun b hw hs => ?_
    · rintro (_ | _) s <;> exact le_rfl
    · rintro (_ | _) s <;> exact le_rfl
    · have hf := Frame.Matches.monoAll hw hf
      cases b with
      | true => exact steps_eval (hm.mono hw) hf hs
      | false => exact steps_give (h.mono hw) hf hs
  | or hm =>
    refine steps_decide hL h hs ?_ ?_ fun b hw hs => ?_
    · rintro (_ | _) s <;> exact le_rfl
    · rintro (_ | _) s <;> exact le_rfl
    · have hf := Frame.Matches.monoAll hw hf
      cases b with
      | true => exact steps_give (h.mono hw) hf hs
      | false => exact steps_eval (hm.mono hw) hf hs
  | assign target =>
    have hwrite : L.Acts d w Same (Action.onStore (Store.write target u))
        (Action.onStore (Store.write target v)) :=
      .onStore hL fun hw _ hst => ⟨hst.write target (h.mono hw), rfl⟩
    exact steps_after hwrite hs (fun _ _ => le_rfl) (fun _ _ => le_rfl) fun hw _ hs =>
      steps_give (h.mono hw) (Frame.Matches.monoAll hw hf) hs
  | branch hms =>
    exact steps_decide hL h hs (fun _ _ => withArgument_advances fun _ => le_rfl)
      (fun _ _ => withArgument_advances fun _ => le_rfl) fun b hw hs =>
        steps_withArgument (Node.Matches.monoAll hw hms) _ hs fun hm =>
          steps_eval hm (Frame.Matches.monoAll hw hf) hs
  | loopTest hms =>
    refine steps_decide hL h hs ?_ ?_ fun b hw hs => ?_
    · rintro (_ | _) s
      · exact le_rfl
      · exact withArgument_advances fun _ => le_rfl
    · rintro (_ | _) s
      · exact le_rfl
      · exact withArgument_advances fun _ => le_rfl
    · have hf := Frame.Matches.monoAll hw hf
      have hms := Node.Matches.monoAll hw hms
      cases b with
      | true =>
        exact steps_withArgument hms 1 hs fun hm => steps_eval hm (.cons (.loopBody hms) hf) hs
      | false => exact steps_give .null hf hs
  | loopBody hms =>
    exact steps_withArgument hms 0 hs fun hm => steps_eval hm (.cons (.loopTest hms) hf) hs
  | argument builtin hms hvs =>
    have hvs := List.rel_append hvs (.cons h .nil)
    simp only [resume, hvs.length_eq]
    split
    · exact steps_withArgument hms _ hs fun hm =>
        steps_eval hm (.cons (.argument builtin hms hvs) hf) hs
    · exact steps_apply hL builtin hvs hf hs

theorem steps_step (hL : L.Lawful) (around : Surroundings) {c e : Config} (h : c.Alike L d w e) :
    L.Steps d w (step around c) (step around e) := by
  obtain ⟨control, frames, s⟩ := c
  obtain ⟨control', frames', t⟩ := e
  obtain ⟨hc, hf, hs⟩ := h
  cases hc with
  | node h => exact steps_enter hL around h hf hs
  | value h =>
    cases hf with
    | nil => exact steps_halt (.ok h) hs
    | cons hfg hf => exact steps_resume hL around h hfg hf hs

end Machine

end KnightLang
