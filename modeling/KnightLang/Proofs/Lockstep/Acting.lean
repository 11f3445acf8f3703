import KnightLang.Proofs.Lockstep.Parsing

namespace KnightLang

open Std (TreeMap)

variable {L : Link} {d : Int} {w : Pairing}

def Link.Acts {α β : Type} (L : Link) (d : Int) (w : Pairing) (R : Pairing → α → β → Prop)
    (x : Action α) (y : Action β) : Prop :=
  L.Sim d w (Results R) x.run y.run

def Lasting {α β : Type} (R : Pairing → α → β → Prop) : Prop :=
  ∀ ⦃w w' : Pairing⦄ ⦃a : α⦄ ⦃b : β⦄, w ≤ w' → R w a b → R w' a b

theorem lasting_same {α : Type} : Lasting (@Same α) := fun _ _ _ _ _ h => h

theorem lasting_strings : Lasting Strings := fun _ _ _ _ hw h => hw _ _ h

theorem lasting_value : Lasting (Value.Matches d) := fun _ _ _ _ hw h => h.mono hw

theorem lasting_program : Lasting (Program.Matches d) := fun _ _ _ _ hw h => h.mono hw

theorem Lasting.results {ε α β : Type} {R : Pairing → α → β → Prop} (hR : Lasting R) :
    Lasting (Results R : Pairing → Except ε α → Except ε β → Prop) := by
  rintro w w' r r' hw (h | e)
  · exact .ok (hR hw h)
  · exact .error e

theorem Lasting.options {α β : Type} {R : Pairing → α → β → Prop} (hR : Lasting R) :
    Lasting (Options R) := by
  rintro w w' x y hw (h | -)
  · exact .some (hR hw h)
  · exact .none

namespace Link

section

variable {α β γ δ : Type} {R : Pairing → α → β → Prop} {T : Pairing → γ → δ → Prop}

theorem Acts.pure {a : α} {b : β} (hR : Lasting R) (h : R w a b) :
    L.Acts d w R (pure a) (pure b) :=
  Sim.pure fun hw => .ok (hR hw h)

theorem Acts.throw (stop : Stop) : L.Acts d w R (throw stop) (throw stop) :=
  Sim.pure fun _ => .error stop

theorem Acts.fail (e : RuntimeError) : L.Acts d w R (Action.fail e) (Action.fail e) :=
  Acts.throw (.error e)

theorem Acts.bind {x : Action α} {y : Action β} {f : α → Action γ} {g : β → Action δ}
    [∀ a, Spends (f a).run] [∀ b, Spends (g b).run] (h : L.Acts d w R x y)
    (hfg : ∀ {w' : Pairing} {a : α} {b : β}, w ≤ w' → R w' a b → L.Acts d w' T (f a) (g b)) :
    L.Acts d w T (x >>= f) (y >>= g) := by
  refine Sim.bind (f := ExceptT.bindCont f) (g := ExceptT.bindCont g) h fun hw hr => ?_
  cases hr with
  | ok hr => exact hfg hw hr
  | error stop => exact Sim.pure fun _ => .error stop

theorem Acts.bindSame {x y : Action α} {f : α → Action γ} {g : α → Action δ}
    [∀ a, Spends (f a).run] [∀ a, Spends (g a).run] (h : L.Acts d w Same x y)
    (hfg : ∀ {w' : Pairing} (a : α), w ≤ w' → L.Acts d w' T (f a) (g a)) :
    L.Acts d w T (x >>= f) (y >>= g) := by
  refine h.bind fun hw hr => ?_
  obtain rfl := hr
  exact hfg _ hw

theorem Acts.ite {c : Prop} [Decidable c] {x x' : Action α} {y y' : Action β}
    (h : c → L.Acts d w R x y) (h' : ¬ c → L.Acts d w R x' y') :
    L.Acts d w R (if c then x else x') (if c then y else y') := by
  split
  · exact h ‹_›
  · exact h' ‹_›

theorem Sim.onWorkspace {x : StateM Workspace α} {y : StateM Workspace β} (h : L.Sim d w R x y) :
    L.Acts d w R (Action.onWorkspace x) (Action.onWorkspace y) := by
  intro w₁ s t hw hl hs ht
  obtain ⟨w₂, hw₂, hl₂, hr⟩ := h hw hl.workspace hs ht
  exact ⟨w₂, hw₂, ⟨hl₂, hl.console⟩, .ok hr⟩

theorem Acts.onStrings {x : StateM Interner α} {y : StateM Interner β} (h : L.Sim d w R x y) :
    L.Acts d w R (Action.onStrings x) (Action.onStrings y) :=
  (Sim.onStrings h).onWorkspace

theorem Acts.onStore (hL : L.Lawful) {x : StateM Store α} {y : StateM Store β}
    (h : ∀ {w' : Pairing} {s t : Store}, w ≤ w' → w'.Faithful → s.Matches d w' t →
      (x s).2.Matches d w' (y t).2 ∧ R w' (x s).1 (y t).1) :
    L.Acts d w R (Action.onStore x) (Action.onStore y) :=
  (Sim.onStore hL h).onWorkspace

theorem Acts.onConsole (x : StateM Console α) :
    L.Acts d w Same (Action.onConsole x) (Action.onConsole x) := by
  intro w₁ s t _ hl _ _
  refine ⟨w₁, le_rfl, ⟨hl.workspace, ?_⟩, .ok ?_⟩
  · change (x s.console).2 = (x t.console).2
    rw [hl.console]
  · change (x s.console).1 = (x t.console).1
    rw [hl.console]

theorem Acts.transfer (x : ExceptT Failure (StateM Console) α) :
    L.Acts d w Same (Action.transfer x) (Action.transfer x) := by
  have transferred := @Action.spends_transferred α
  unfold Action.transfer
  refine (Acts.onConsole x.run).bindSame fun r _ => ?_
  split
  · exact .pure lasting_same rfl
  · exact .fail _

theorem Acts.ofPanic {r : Except Panic α} {r' : Except Panic β} (hR : Lasting R)
    (h : Results R w r r') : L.Acts d w R (Action.ofPanic r) (Action.ofPanic r') := by
  cases h with
  | ok h => exact .pure hR h
  | error p => exact .throw (.panic p)

theorem Acts.unsupported (attempt : Attempt) {u v : Value} (h : u.Matches d w v) :
    L.Acts d w R (Action.unsupported attempt u) (Action.unsupported attempt v) := by
  simp only [Action.unsupported, h.kind_eq]
  exact .fail _

theorem Lawful.assumeActs (hL : L.Lawful) {x : Action α} {y : Action β}
    (h : w.Faithful → L.Acts d w R x y) : L.Acts d w R x y := hL.assume h

end

end Link

open Link

theorem results_same {ε α : Type} (r : Except ε α) : Results Same w r r := by
  cases r with
  | ok a => exact .ok rfl
  | error e => exact .error e

namespace Link.Lawful

variable (hL : L.Lawful) {u v u' v' : Value}

include hL

theorem toBool (h : u.Matches d w v) : L.Acts d w Same (Action.toBool u) (Action.toBool v) := by
  refine hL.assumeActs fun hw => ?_
  simp only [Action.toBool, h.toBool_eq hw]
  exact .ofPanic lasting_same (results_same _)

theorem toInt (h : u.Matches d w v) : L.Acts d w Same (Action.toInt u) (Action.toInt v) := by
  refine hL.assumeActs fun hw => ?_
  simp only [Action.toInt, h.toInt_eq hw]
  exact .ofPanic lasting_same (results_same _)

theorem valueToStr (h : u.Matches d w v) : L.Sim d w (Results Strings)
    (u.toStr : StateM Interner (Except Panic Str)) v.toStr := by
  cases h with
  | null => exact hL.nullString.map .ok
  | bool b => exact (hL.boolString b).map .ok
  | int n => exact (hL.intString n).map .ok
  | str h => exact .pure fun hw => .ok (hw _ _ h)
  | block h => exact .pure fun _ => .error _

theorem toStr (h : u.Matches d w v) : L.Acts d w Strings (Action.toStr u) (Action.toStr v) := by
  unfold Action.toStr
  exact (Acts.onStrings (hL.valueToStr h)).bind fun _ hr => .ofPanic lasting_strings hr

theorem stringValue (text : String) :
    L.Acts d w (Value.Matches d) (Action.string text) (Action.string text) := by
  unfold Action.string
  exact (Acts.onStrings (hL.string text)).bind fun _ h => .pure lasting_value (.str h)

theorem add (h : u.Matches d w v) (h' : u'.Matches d w v') :
    L.Acts d w (Value.Matches d) (Action.add u u') (Action.add v v') := by
  unfold Action.add
  cases h with
  | int a =>
    refine (hL.toInt h').bindSame fun _ _ => ?_
    exact .ite (fun _ => .pure lasting_value (.int _)) fun _ => .pure lasting_value (.int _)
  | str h =>
    refine (hL.toStr h').bind fun hw hb => hL.assumeActs fun hw' => ?_
    have ha := hw _ _ h
    simp only [hw'.isEmpty_eq ha, hw'.isEmpty_eq hb]
    refine .ite (fun _ => .pure lasting_value (.str hb)) fun _ => ?_
    refine .ite (fun _ => .pure lasting_value (.str ha)) fun _ => ?_
    exact (Acts.onStrings (hL.concat ha hb)).bind fun _ hab => .pure lasting_value (.str hab)
  | null => exact .unsupported _ .null
  | bool b => exact .unsupported _ (.bool b)
  | block h => exact .unsupported _ (.block h)

theorem sub (h : u.Matches d w v) (h' : u'.Matches d w v') :
    L.Acts d w (Value.Matches d) (Action.sub u u') (Action.sub v v') := by
  unfold Action.sub
  cases h with
  | int a => exact (hL.toInt h').bindSame fun _ _ => .pure lasting_value (.int _)
  | null => exact .unsupported _ .null
  | bool b => exact .unsupported _ (.bool b)
  | str h => exact .unsupported _ (.str h)
  | block h => exact .unsupported _ (.block h)

theorem mul (h : u.Matches d w v) (h' : u'.Matches d w v') :
    L.Acts d w (Value.Matches d) (Action.mul u u') (Action.mul v v') := by
  unfold Action.mul
  cases h with
  | int a => exact (hL.toInt h').bindSame fun _ _ => .pure lasting_value (.int _)
  | str h =>
    refine (hL.toInt h').bindSame fun count hw => hL.assumeActs fun hw' => ?_
    simp only [hw'.length_eq (hw _ _ h), hw'.text (hw _ _ h)]
    refine .ite (fun _ => .fail _) fun _ => ?_
    refine .ite (fun _ => .fail _) fun _ => ?_
    exact .ite (fun _ => .throw _) fun _ => hL.stringValue _
  | null => exact .unsupported _ .null
  | bool b => exact .unsupported _ (.bool b)
  | block h => exact .unsupported _ (.block h)

theorem div (h : u.Matches d w v) (h' : u'.Matches d w v') :
    L.Acts d w (Value.Matches d) (Action.div u u') (Action.div v v') := by
  unfold Action.div
  cases h with
  | int a =>
    refine (hL.toInt h').bindSame fun b _ => ?_
    exact .ite (fun _ => .fail _) fun _ => .pure lasting_value (.int _)
  | null => exact .unsupported _ .null
  | bool b => exact .unsupported _ (.bool b)
  | str h => exact .unsupported _ (.str h)
  | block h => exact .unsupported _ (.block h)

theorem mod (h : u.Matches d w v) (h' : u'.Matches d w v') :
    L.Acts d w (Value.Matches d) (Action.mod u u') (Action.mod v v') := by
  unfold Action.mod
  cases h with
  | int a =>
    refine (hL.toInt h').bindSame fun b _ => ?_
    exact .ite (fun _ => .fail _) fun _ => .pure lasting_value (.int _)
  | null => exact .unsupported _ .null
  | bool b => exact .unsupported _ (.bool b)
  | str h => exact .unsupported _ (.str h)
  | block h => exact .unsupported _ (.block h)

theorem exp (h : u.Matches d w v) (h' : u'.Matches d w v') :
    L.Acts d w (Value.Matches d) (Action.exp u u') (Action.exp v v') := by
  have powered := Action.spends_powered
  unfold Action.exp
  cases h with
  | int a =>
    refine (hL.toInt h').bindSame fun b _ => ?_
    split
    · exact .pure lasting_value (.int _)
    · exact .fail _
  | null => exact .unsupported _ .null
  | bool b => exact .unsupported _ (.bool b)
  | str h => exact .unsupported _ (.str h)
  | block h => exact .unsupported _ (.block h)

theorem less (h : u.Matches d w v) (h' : u'.Matches d w v') :
    L.Acts d w (Value.Matches d) (Action.less u u') (Action.less v v') := by
  unfold Action.less
  cases h with
  | bool a => exact (hL.toBool h').bindSame fun _ _ => .pure lasting_value (.bool _)
  | int a => exact (hL.toInt h').bindSame fun _ _ => .pure lasting_value (.bool _)
  | str h =>
    refine (hL.toStr h').bind fun hw hb => hL.assumeActs fun hw' => ?_
    rw [hw'.text (hw _ _ h), hw'.text hb]
    exact .pure lasting_value (.bool _)
  | null => exact .unsupported _ .null
  | block h => exact .unsupported _ (.block h)

theorem greater (h : u.Matches d w v) (h' : u'.Matches d w v') :
    L.Acts d w (Value.Matches d) (Action.greater u u') (Action.greater v v') := by
  unfold Action.greater
  cases h with
  | bool a => exact (hL.toBool h').bindSame fun _ _ => .pure lasting_value (.bool _)
  | int a => exact (hL.toInt h').bindSame fun _ _ => .pure lasting_value (.bool _)
  | str h =>
    refine (hL.toStr h').bind fun hw hb => hL.assumeActs fun hw' => ?_
    rw [hw'.text (hw _ _ h), hw'.text hb]
    exact .pure lasting_value (.bool _)
  | null => exact .unsupported _ .null
  | block h => exact .unsupported _ (.block h)

theorem binary (op : BinaryOp) (h : u.Matches d w v) (h' : u'.Matches d w v') :
    L.Acts d w (Value.Matches d) (Action.binary op u u') (Action.binary op v v') := by
  unfold Action.binary
  cases op with
  | add => exact hL.add h h'
  | sub => exact hL.sub h h'
  | mul => exact hL.mul h h'
  | div => exact hL.div h h'
  | mod => exact hL.mod h h'
  | exp => exact hL.exp h h'
  | less => exact hL.less h h'
  | greater => exact hL.greater h h'
  | equal =>
    refine hL.assumeActs fun hw => ?_
    simp only [h.equal_eq hw h']
    exact .pure lasting_value (.bool _)
  | _ => exact .fail _

omit hL in
theorem range (start count : Int64) (length : Nat) :
    L.Acts d w Same (Action.range start count length) (Action.range start count length) := by
  unfold Action.range
  split
  · exact .pure lasting_same rfl
  · exact .fail _

theorem slice {a b : Str} (h : w a b) (start stop : Nat) :
    L.Acts d w Strings (Action.slice a start stop) (Action.slice b start stop) := by
  have sliced := Action.spends_sliced start stop
  refine hL.assumeActs fun hw => ?_
  simp only [Action.slice, hw.length_eq h]
  refine (Acts.onStrings (hL.substring h start stop)).bind fun _ hr => ?_
  cases hr with
  | some hr => exact .pure lasting_strings hr
  | none => exact .fail _

theorem get {u₁ v₁ u₂ v₂ : Value} (h : u.Matches d w v) (h₁ : u₁.Matches d w v₁)
    (h₂ : u₂.Matches d w v₂) :
    L.Acts d w (Value.Matches d) (Action.get u u₁ u₂) (Action.get v v₁ v₂) := by
  unfold Action.get
  refine (hL.toStr h).bind fun hw hs => ?_
  refine (hL.toInt (h₁.mono hw)).bindSame fun start hw₁ => ?_
  refine (hL.toInt (h₂.mono (hw.trans hw₁))).bindSame fun count hw₂ => hL.assumeActs fun hf => ?_
  have hs := hw₂ _ _ (hw₁ _ _ hs)
  simp only [hf.length_eq hs]
  refine (range start count _).bindSame fun ends hw₃ => ?_
  refine .ite (fun _ => ?_) fun _ => .ite (fun _ => ?_) fun _ => ?_
  · exact (Acts.onStrings hL.emptyString).bind fun _ h => .pure lasting_value (.str h)
  · exact .pure lasting_value (.str (hw₃ _ _ hs))
  · exact (hL.slice (hw₃ _ _ hs) _ _).bind fun _ h => .pure lasting_value (.str h)

theorem delete {a b : Str} (h : w a b) (first last : Nat) :
    L.Acts d w Strings (Action.delete a first last) (Action.delete b first last) := by
  refine hL.assumeActs fun hf => ?_
  simp only [Action.delete, hf.length_eq h]
  refine .ite (fun _ => .ite (fun _ => ?_) fun _ => ?_) fun _ => .ite (fun _ => ?_) fun _ =>
    .ite (fun _ => ?_) fun _ => ?_
  · exact Acts.onStrings hL.emptyString
  · exact hL.slice h _ _
  · exact .pure lasting_strings h
  · exact hL.slice h _ _
  · refine (hL.slice h 0 first).bind fun hw hhead => ?_
    refine (hL.slice (hw _ _ h) last _).bind fun hw' htail => ?_
    exact Acts.onStrings (hL.concat (hw' _ _ hhead) htail)

theorem replace {a b a' b' : Str} (h : w a b) (h' : w a' b') (first last : Nat) :
    L.Acts d w Strings (Action.replace a first last a') (Action.replace b first last b') := by
  refine hL.assumeActs fun hf => ?_
  simp only [Action.replace, hf.length_eq h]
  refine (hL.slice h 0 first).bind fun hw hhead => ?_
  refine (Acts.onStrings (hL.concat hhead (hw _ _ h'))).bind fun hw₁ hhead => ?_
  refine (hL.slice (hw₁ _ _ (hw _ _ h)) last _).bind fun hw₂ htail => ?_
  exact Acts.onStrings (hL.concat (hw₂ _ _ hhead) htail)

theorem substitute {u₁ v₁ u₂ v₂ u₃ v₃ : Value} (h : u.Matches d w v) (h₁ : u₁.Matches d w v₁)
    (h₂ : u₂.Matches d w v₂) (h₃ : u₃.Matches d w v₃) :
    L.Acts d w (Value.Matches d) (Action.substitute u u₁ u₂ u₃)
      (Action.substitute v v₁ v₂ v₃) := by
  unfold Action.substitute
  refine (hL.toInt h₁).bindSame fun start hw₁ => ?_
  refine (hL.toInt (h₂.mono hw₁)).bindSame fun count hw₂ => ?_
  have hw₂ := hw₁.trans hw₂
  refine (hL.toStr (h₃.mono hw₂)).bind fun hw₃ hr => hL.assumeActs fun hf => ?_
  have h := h.mono (hw₂.trans hw₃)
  simp only [hf.isEmpty_eq hr]
  refine .ite (fun _ => .pure lasting_value h) fun _ => ?_
  refine (hL.toStr h).bind fun hw₄ hs => hL.assumeActs fun hf => ?_
  simp only [hf.length_eq hs]
  refine (range start count _).bindSame fun ends hw₅ => ?_
  have hs := hw₅ _ _ hs
  refine .ite (fun _ => ?_) fun _ => ?_
  · exact (hL.delete hs _ _).bind fun _ h => .pure lasting_value (.str h)
  · exact (hL.replace hs (hw₅ _ _ (hw₄ _ _ hr)) _ _).bind fun _ h => .pure lasting_value (.str h)

theorem ascii (h : u.Matches d w v) :
    L.Acts d w (Value.Matches d) (Action.ascii u) (Action.ascii v) := by
  refine hL.assumeActs fun hf => ?_
  unfold Action.ascii
  cases h with
  | int n => exact hL.stringValue _
  | str h =>
    simp only [hf.text h]
    split
    · exact .pure lasting_value (.int _)
    · exact .fail _
  | null => exact .fail _
  | bool b => exact .fail _
  | block h => exact .fail _

omit hL in
theorem write (text : String) : L.Acts d w Same (Action.write text) (Action.write text) :=
  .transfer _

omit hL in
theorem flush : L.Acts d w Same Action.flush Action.flush := .transfer _

omit hL in
theorem display (text : String) :
    L.Acts d w (Value.Matches d) (Action.display text) (Action.display text) := by
  unfold Action.display
  exact (write text).bindSame fun _ _ => flush.bindSame fun _ _ => .pure lasting_value .null

theorem output (h : u.Matches d w v) :
    L.Acts d w (Value.Matches d) (Action.output u) (Action.output v) := by
  unfold Action.output
  refine (hL.toStr h).bind fun _ hs => hL.assumeActs fun hf => ?_
  rw [hf.text hs]
  refine .ite (fun _ => display _) fun _ => ?_
  exact (write _).bindSame fun _ _ => .pure lasting_value .null

theorem prompt : L.Acts d w (Value.Matches d) Action.prompt Action.prompt := by
  have answered := Action.spends_answered
  unfold Action.prompt
  refine flush.bindSame fun _ _ => ?_
  refine (Acts.transfer Console.readLine).bindSame fun line _ => ?_
  cases line with
  | none => exact .pure lasting_value .null
  | some line => exact hL.stringValue line

omit hL in
theorem random (around : Surroundings) :
    L.Acts d w (Value.Matches d) (Action.random around) (Action.random around) := by
  unfold Action.random
  exact (Acts.onConsole Console.startDraw).bindSame fun _ _ => .pure lasting_value (.int _)

theorem system (around : Surroundings) (h : u.Matches d w v) :
    L.Acts d w (Value.Matches d) (Action.system around u) (Action.system around v) := by
  have commanded := Action.spends_commanded around
  have ended := Action.spends_ended
  unfold Action.system
  refine (hL.toStr h).bind fun _ hs => hL.assumeActs fun hf => ?_
  rw [hf.text hs]
  refine flush.bindSame fun _ _ => ?_
  split
  · exact .fail _
  · refine (Acts.onConsole _).bindSame fun r _ => ?_
    exact .ite (fun _ => hL.stringValue _) fun _ => .fail _

theorem unary (around : Surroundings) (op : UnaryOp) (h : u.Matches d w v) :
    L.Acts d w (Value.Matches d) (Action.unary around op u) (Action.unary around op v) := by
  unfold Action.unary
  cases op with
  | not => exact (hL.toBool h).bindSame fun _ _ => .pure lasting_value (.bool _)
  | noop => exact .pure lasting_value h
  | system => exact hL.system around h

end Link.Lawful

namespace Store

theorem program?_eq (source : Str) (s : Store) :
    (program? source : StateM Store (Option Program)) s =
      (s.programs[source.identity.key]?.map (·.2), s) := rfl

theorem write_eq (target : Variable) (v : Value) (s : Store) :
    (write target v : StateM Store Unit) s =
      ((), { s with slots := s.slots.setIfInBounds target.slot (some v) }) := rfl

variable {s t : Store} {a b : Str}

theorem Matches.write (h : s.Matches d w t) (target : Variable) {u v : Value}
    (hv : u.Matches d w v) : Store.Matches d w ((Store.write target u : StateM Store Unit) s).2
      ((Store.write target v : StateM Store Unit) t).2 where
  names := h.names
  size := by simp only [write_eq, Array.size_setIfInBounds, h.size]
  slots k := by
    simp only [write_eq, Array.getElem?_setIfInBounds, h.size]
    split
    · split
      · exact .some hv
      · exact .none
    · exact h.slots k
  program := h.program
  program' := h.program'
  count := h.count

theorem Matches.programs (h : s.Matches d w t) (hw : w.Faithful) (hab : w a b) :
    Option.Rel (fun p q => Program.Matches d w p.2 q.2) s.programs[a.identity.key]?
      t.programs[b.identity.key]? := by
  cases hs : s.programs[a.identity.key]? with
  | some p =>
    obtain ⟨q, hab', ha, hq, hm⟩ := h.program hs
    have hb := (hw.identity hab' hab).1 (Identity.key_inj.1 ha)
    rw [hb] at hq
    rw [hq]
    exact .some hm
  | none =>
    cases ht : t.programs[b.identity.key]? with
    | none => exact .none
    | some q =>
      obtain ⟨p, hab', hb, hp, -⟩ := h.program' ht
      have ha := (hw.identity hab' hab).2 (Identity.key_inj.1 hb)
      rw [ha, hs] at hp
      simp at hp

theorem Matches.insertProgram (h : s.Matches d w t) (hw : w.Faithful) (hab : w a b) {p q : Program}
    (hpq : p.Matches d w q) :
    Store.Matches d w { s with programs := s.programs.insert a.identity.key (a, p) }
      { t with programs := t.programs.insert b.identity.key (b, q) } where
  names := h.names
  size := h.size
  slots := h.slots
  program {k r} hr := by
    simp only [TreeMap.getElem?_insert, Std.compare_eq_iff_eq] at hr ⊢
    split at hr
    · rename_i hk
      obtain rfl := Option.some.inj hr
      exact ⟨(b, q), hab, hk, by simp, hpq⟩
    · rename_i hk
      obtain ⟨r', hab', ha, hr', hm⟩ := h.program hr
      refine ⟨r', hab', ha, ?_, hm⟩
      rw [if_neg]
      · exact hr'
      · intro hb
        exact hk (((Identity.key_inj.2 ((hw.identity hab hab').2 (Identity.key_inj.1 hb)))).trans ha)
  program' {k r} hr := by
    simp only [TreeMap.getElem?_insert, Std.compare_eq_iff_eq] at hr ⊢
    split at hr
    · rename_i hk
      obtain rfl := Option.some.inj hr
      exact ⟨(a, p), hab, hk, by simp, hpq⟩
    · rename_i hk
      obtain ⟨r', hab', hb, hr', hm⟩ := h.program' hr
      refine ⟨r', hab', hb, ?_, hm⟩
      rw [if_neg]
      · exact hr'
      · intro ha
        exact hk (((Identity.key_inj.2 ((hw.identity hab hab').1 (Identity.key_inj.1 ha)))).trans hb)
  count := by
    have hmem := rel_isSome (h.programs hw hab)
    simp only [TreeMap.size_insert, TreeMap.contains_eq_isSome_getElem?, hmem, h.count]

end Store

theorem Link.Lawful.sourceProgram (hL : L.Lawful) {a b : Str} (hab : w a b) :
    L.Acts d w (Program.Matches d) (Action.sourceProgram a) (Action.sourceProgram b) := by
  have parsed := Action.spends_parsed
  have found := Action.spends_found
  unfold Action.sourceProgram
  have hfind : L.Acts d w (Options (Program.Matches d)) (Action.onStore (Store.program? a))
      (Action.onStore (Store.program? b)) := .onStore hL fun hw hf h => by
    simp only [Store.program?_eq]
    refine ⟨h, rel_map (fun p q hpq => ?_) (h.programs hf (hw _ _ hab))⟩
    exact hpq
  refine hfind.bind fun hw hr => ?_
  cases hr with
  | some hr => exact .pure lasting_program hr
  | none =>
    refine hL.assumeActs fun hf => ?_
    have hab := hw _ _ hab
    rw [hf.text hab]
    refine (Program.sim_parse hL b.text).onWorkspace.bind fun hw hp => ?_
    cases hp with
    | error e => exact .fail _
    | ok hp =>
      have hab := hw _ _ hab
      refine (Acts.onStore (R := Same) hL fun hw hf h => ?_).bindSame fun _ hw => ?_
      · exact ⟨h.insertProgram hf (hw _ _ hab) (lasting_program hw hp), rfl⟩
      · exact .pure lasting_program (lasting_program hw hp)

end KnightLang
