import KnightLang.Proofs.Console.Effects
import KnightLang.Proofs.Spelling.Reading

namespace KnightLang

open List (Forall₂)

def State.withStore (store : Store) (s : State) : State :=
  ⟨s.workspace.withStore store, s.console⟩

theorem State.Respells.withStore_eq {s t : State} (h : s.Respells t) :
    s.withStore t.workspace.store = t := by
  obtain ⟨⟨strings, store, n⟩, console⟩ := s
  obtain ⟨⟨strings', store', n'⟩, console'⟩ := t
  obtain ⟨⟨hstrings, -, hn⟩, hconsole⟩ := h
  obtain rfl := hstrings
  obtain rfl := hn
  obtain rfl := hconsole
  rfl

namespace Action

variable {α β γ δ : Type} {R : α → β → Prop} {T : γ → δ → Prop} {K : Set Effect} {x : Action α}
  {y : Action β}

namespace Uses

theorem commutes_withStore (h : x.Uses K) (hK : .store ∉ K) (store : Store) :
    x.Commutes (State.withStore store) := by
  have transferred {γ : Type} (y : ExceptT Failure (StateM Console) γ) :
      (transfer y).Commutes (State.withStore store) :=
    commutes_transfer (·.withStore store) (g := id) fun _ => rfl
  refine h.commutes (fun y s => rfl) fun e he γ y hy => ?_
  cases hy with
  | store x => exact absurd he hK
  | write text => exact transferred _
  | flush => exact transferred _
  | read => exact (transferred _).bind fun _ => transferred _
  | draw => exact fun _ => rfl
  | command f => exact (transferred _).bind fun _ => fun _ => rfl

end Uses

def Agrees (R : α → β → Prop) (x : Action α) (y : Action β) : Prop :=
  Agree State.Respells (Outcomes Eq R) x.run y.run

namespace Agrees

theorem pure {a : α} {b : β} (h : R a b) : Agrees R (pure a) (pure b) := Agree.pure (.ok h)

theorem throw (stop : Stop) : Agrees R (throw stop) (throw stop) := Agree.pure (.error rfl)

theorem bind {f : α → Action γ} {g : β → Action δ} (h : Agrees R x y)
    (hfg : ∀ {a : α} {b : β}, R a b → Agrees T (f a) (g b)) : Agrees T (x >>= f) (y >>= g) := by
  unfold Agrees
  rw [ExceptT.run_bind, ExceptT.run_bind]
  refine Agree.bind h fun hr => ?_
  cases hr with
  | ok hr => exact hfg hr
  | error he => exact .pure (.error he)

theorem onWorkspace {x : StateM Workspace α} {y : StateM Workspace β}
    (h : Agree Workspace.Respells R x y) :
    Agrees R (Action.onWorkspace x) (Action.onWorkspace y) := by
  intro s t hst
  obtain ⟨hws, hr⟩ := h hst.workspace
  exact ⟨⟨hws, hst.console⟩, .ok hr⟩

theorem onStore {x : StateM Store α} {y : StateM Store β} (h : Agree Store.Respells R x y) :
    Agrees R (Action.onStore x) (Action.onStore y) :=
  .onWorkspace (.onStore h)

theorem of_uses (h : x.Uses K) (hK : .store ∉ K) : Agrees Eq x x := by
  intro s t hst
  have hrun := h.commutes_withStore hK t.workspace.store s
  have hstore := h.store_eq hK s
  rw [hst.withStore_eq] at hrun
  rw [hrun]
  refine ⟨⟨⟨rfl, ?_, rfl⟩, rfl⟩, ?_⟩
  · have hs := hst.workspace.store
    rwa [← hstore] at hs
  · rcases (x.run s).1 with stop | a
    · exact .error rfl
    · exact .ok rfl

theorem value_of_uses {x : Action Value} (h : x.Uses K) (hK : .store ∉ K) :
    Agrees Value.Respells x x := by
  rw [← bind_pure x]
  refine (of_uses h hK).bind fun hv => ?_
  obtain rfl := hv
  exact .pure (Value.respells_refl _)

end Agrees

section

variable {u v u' v' : Value}

theorem binary_eq {op : BinaryOp} (hop : op ≠ .equal) (h : u.Respells v) (h' : u'.Respells v') :
    Action.binary op u u' = Action.binary op v v' := by
  have hleft {m n : Node} (r : Value) :
      Action.binary op (.block m) r = Action.binary op (.block n) r := by
    cases op <;> first | rfl | contradiction
  have hright {m n : Node} (l : Value) :
      Action.binary op l (.block m) = Action.binary op l (.block n) := by
    cases op <;> first | contradiction | cases l <;> rfl
  obtain rfl | ⟨m, n, -, rfl, rfl⟩ := h.eq_or_blocks
  · obtain rfl | ⟨m', n', -, rfl, rfl⟩ := h'.eq_or_blocks
    · rfl
    · exact hright u
  · obtain rfl | ⟨m', n', -, rfl, rfl⟩ := h'.eq_or_blocks
    · exact hleft u'
    · exact (hleft _).trans (hright _)

theorem agrees_binary (op : BinaryOp) (h : u.Respells v) (h' : u'.Respells v') :
    Agrees Value.Respells (Action.binary op u u') (Action.binary op v v') := by
  by_cases hop : op = .equal
  · subst hop
    simp only [Action.binary, h.equal_eq h']
    exact .pure (.bool _)
  · rw [binary_eq hop h h']
    exact .value_of_uses (K := ∅) (.binary _ _ op) id

theorem agrees_unary (around : Surroundings) (op : UnaryOp) (h : u.Respells v) :
    Agrees Value.Respells (Action.unary around op u) (Action.unary around op v) := by
  have hsystem : Action.system around u = Action.system around v := by
    simp only [Action.system, h.toStr_eq]
  cases op with
  | not =>
    simp only [Action.unary, h.toBool_eq]
    exact .value_of_uses (K := ∅) (.bind (.toBool v) fun _ => .pure _) id
  | noop => exact .pure h
  | system =>
    simp only [Action.unary, hsystem]
    exact .value_of_uses (K := {.store}ᶜ) (.system around v (by simp) (by simp)) (by simp)

theorem agrees_ascii (h : u.Respells v) :
    Agrees Value.Respells (Action.ascii u) (Action.ascii v) := by
  have hascii : Action.ascii u = Action.ascii v := by
    obtain rfl | ⟨m, n, -, rfl, rfl⟩ := h.eq_or_blocks <;> rfl
  rw [hascii]
  exact .value_of_uses (K := ∅) (.ascii v) id

theorem agrees_get {start count start' count' : Value} (h : u.Respells v)
    (hs : start.Respells start') (hc : count.Respells count') :
    Agrees Value.Respells (Action.get u start count) (Action.get v start' count') := by
  have hget : Action.get u start count = Action.get v start' count' := by
    simp only [Action.get, h.toStr_eq, hs.toInt_eq, hc.toInt_eq]
  rw [hget]
  exact .value_of_uses (K := ∅) (.get _ _ _) id

theorem agrees_display (text : String) :
    Agrees Value.Respells (Action.display text) (Action.display text) :=
  .value_of_uses (K := {.store}ᶜ) (.display text (by simp) (by simp)) (by simp)

theorem agrees_output (h : u.Respells v) :
    Agrees Value.Respells (Action.output u) (Action.output v) := by
  have houtput : Action.output u = Action.output v := by
    simp only [Action.output, h.toStr_eq]
  rw [houtput]
  exact .value_of_uses (K := {.store}ᶜ) (.output v (by simp) (by simp)) (by simp)

theorem agrees_prompt : Agrees Value.Respells Action.prompt Action.prompt :=
  .value_of_uses (K := {.store}ᶜ) (.prompt (by simp)) (by simp)

theorem agrees_random (around : Surroundings) :
    Agrees Value.Respells (Action.random around) (Action.random around) :=
  .value_of_uses (K := {.store}ᶜ) (.random around (by simp)) (by simp)

theorem agrees_toBool (h : u.Respells v) : Agrees Eq (Action.toBool u) (Action.toBool v) := by
  rw [h.toBool_eq]
  exact .of_uses (K := ∅) (.toBool v) id

theorem agrees_toInt (h : u.Respells v) : Agrees Eq (Action.toInt u) (Action.toInt v) := by
  rw [h.toInt_eq]
  exact .of_uses (K := ∅) (.toInt v) id

theorem agrees_toStr (h : u.Respells v) : Agrees Eq (Action.toStr u) (Action.toStr v) := by
  rw [h.toStr_eq]
  exact .of_uses (K := ∅) (.toStr v) id

theorem agrees_substitute {start count replacement start' count' replacement' : Value}
    (h : u.Respells v) (hs : start.Respells start') (hc : count.Respells count')
    (hr : replacement.Respells replacement') :
    Agrees Value.Respells (Action.substitute u start count replacement)
      (Action.substitute v start' count' replacement') := by
  obtain rfl | ⟨m, n, hm, rfl, rfl⟩ := h.eq_or_blocks
  · have hsubstitute : Action.substitute u start count replacement =
        Action.substitute u start' count' replacement' := by
      simp only [Action.substitute, hs.toInt_eq, hc.toInt_eq, hr.toStr_eq]
    rw [hsubstitute]
    exact .value_of_uses (K := ∅) (.substitute _ _ _ _) id
  · unfold Action.substitute
    refine (agrees_toInt hs).bind fun hs => (agrees_toInt hc).bind fun hc => ?_
    refine (agrees_toStr hr).bind fun hr => ?_
    obtain rfl := hs
    obtain rfl := hc
    obtain rfl := hr
    split
    · exact .pure (.block hm)
    · exact .throw (.panic .blockAsString)

theorem agrees_sourceProgram (source : Str) :
    Agrees Program.Respells (Action.sourceProgram source) (Action.sourceProgram source) := by
  have hfind : Agree Store.Respells (Option.Rel Program.Respells) (Store.program? source)
      (Store.program? source) :=
    fun _ _ hs => ⟨hs, rel_map (fun _ _ h => h.2) (hs.programs _)⟩
  unfold Action.sourceProgram
  refine (Agrees.onStore hfind).bind fun hfound => ?_
  cases hfound with
  | some h => exact .pure h
  | none =>
    refine (Agrees.onWorkspace (Program.agree_reparse source.text)).bind fun hparsed => ?_
    cases hparsed with
    | error he =>
      obtain rfl := he
      exact .throw _
    | ok hp =>
      have hinsert : Agree Store.Respells (fun _ _ => True) (Store.insertProgram source _)
          (Store.insertProgram source _) := fun _ _ hs => ⟨hs.insertProgram source hp, trivial⟩
      exact (Agrees.onStore hinsert).bind fun _ => .pure hp

end

end Action

end KnightLang
