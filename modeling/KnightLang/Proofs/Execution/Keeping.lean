import KnightLang.Eval.Machine
import Mathlib.Data.List.Basic

namespace KnightLang

def Action.Keeps {α : Type} (x : Action α) (Q : α → Prop) (R : Stop → Prop) : Prop :=
  ∀ s, (x.run s).2.workspace.store = s.workspace.store ∧
    match (x.run s).1 with
    | .ok a => Q a
    | .error stop => R stop

inductive Stop.Due (us : List Value) : Stop → Prop
  | error {e : RuntimeError} (h : ∀ op, e ≠ .notArithmetic op) : Due us (.error e)
  | asBool {body : Node} (h : .block body ∈ us) : Due us (.panic .blockAsBool)
  | asInt {body : Node} (h : .block body ∈ us) : Due us (.panic .blockAsInt)
  | asString {body : Node} (h : .block body ∈ us) : Due us (.panic .blockAsString)

def BinaryOp.IsStrict : BinaryOp → Prop
  | .and | .or | .assign | .chain => False
  | _ => True

/-- Why an operator may stop: over its operands, or because a text repeated so often would have 2^63
bytes or more, or, if it does not take two values, because of that. -/
inductive BinaryOp.Stops (left right : Value) : BinaryOp → Stop → Prop
  | due {op : BinaryOp} {stop : Stop} (h : stop.Due [left, right]) : Stops left right op stop
  | repeated {a : Str} {count : Int64} (ha : left = .str a) (hc : right.toInt = .ok count)
      (h0 : 0 ≤ count) (hle : 0x8000000000000000 ≤ a.length * count.toInt.toNat)
      (hlt : a.length * count.toInt.toNat < 0x10000000000000000) :
      Stops left right .mul (.panic .capacityOverflow)
  | unfit {op : BinaryOp} (h : ¬ op.IsStrict) : Stops left right op (.error (.notArithmetic op))

theorem notArithmetic_power? {a b : Int64} {e : RuntimeError} (h : power? a b = .error e)
    (op : BinaryOp) : e ≠ .notArithmetic op := by
  unfold power? at h
  split at h
  · split at h
    · obtain rfl := Except.error.inj h
      exact nofun
    · split at h
      · cases h
      · split at h <;> cases h
  · cases h

theorem Action.eq_of_byteRange {start count : Int64} {length : Nat} {e : RuntimeError}
    (h : byteRange start count length = .error e) : e = .outOfBounds start count length := by
  unfold byteRange at h
  split at h
  · exact (Except.error.inj h).symm
  · dsimp only at h
    split at h
    · cases h
    · exact (Except.error.inj h).symm

namespace Action

variable {α β : Type} {x : Action α} {f : α → Action β} {s t : State}

theorem run_bind_of_ok {a : α} (h : x.run s = (.ok a, t)) : (x >>= f).run s = (f a).run t := by
  have hrun : (x >>= f).run s = ExceptT.bindCont f (x.run s).1 (x.run s).2 := rfl
  rw [hrun, h]
  rfl

theorem run_bind_of_error {stop : Stop} (h : x.run s = (.error stop, t)) :
    (x >>= f).run s = (.error stop, t) := by
  have hrun : (x >>= f).run s = ExceptT.bindCont f (x.run s).1 (x.run s).2 := rfl
  rw [hrun, h]
  rfl

end Action

namespace Action.Keeps

variable {α β : Type} {x : Action α} {f : α → Action β} {Q Q' : α → Prop} {T : β → Prop}
  {R R' : Stop → Prop} {us : List Value} {v : Value}

theorem mono (h : x.Keeps Q R) (hQ : ∀ a, Q a → Q' a) (hR : ∀ stop, R stop → R' stop) :
    x.Keeps Q' R' := by
  intro s
  obtain ⟨hs, hr⟩ := h s
  refine ⟨hs, ?_⟩
  rcases h : (x.run s).1 with stop | a
  · rw [h] at hr
    exact hR stop hr
  · rw [h] at hr
    exact hQ a hr

theorem pure {a : α} (h : Q a) : (pure a : Action α).Keeps Q R := fun _ => ⟨rfl, h⟩

theorem throw {stop : Stop} (h : R stop) : (throw stop : Action α).Keeps Q R := fun _ => ⟨rfl, h⟩

theorem bind (h : x.Keeps Q R) (hf : ∀ a, Q a → (f a).Keeps T R) : (x >>= f).Keeps T R := by
  intro s
  obtain ⟨hs, hr⟩ := h s
  rcases hx : x.run s with ⟨stop | a, t⟩
  · rw [hx] at hs hr
    rw [run_bind_of_error hx]
    exact ⟨hs, hr⟩
  · rw [hx] at hs hr
    obtain ⟨ht, hq⟩ := hf a hr t
    rw [run_bind_of_ok hx]
    exact ⟨ht.trans hs, hq⟩

theorem ite {c : Prop} [Decidable c] {y : Action α} (h : c → x.Keeps Q R)
    (h' : ¬ c → y.Keeps Q R) : (if c then x else y).Keeps Q R := by
  split
  · exact h ‹_›
  · exact h' ‹_›

theorem onStrings {x : StateM Interner α} (h : ∀ i, Q (x i).1) : (Action.onStrings x).Keeps Q R :=
  fun s => ⟨rfl, h s.workspace.strings⟩

theorem onConsole (x : StateM Console α) : (Action.onConsole x).Keeps (fun _ => True) R :=
  fun _ => ⟨rfl, trivial⟩

theorem fail {e : RuntimeError} (h : ∀ op, e ≠ .notArithmetic op) :
    (Action.fail e : Action α).Keeps Q (Stop.Due us) := throw (.error h)

theorem transfer (x : ExceptT Failure (StateM Console) α) :
    (Action.transfer x).Keeps (fun _ => True) (Stop.Due us) := by
  unfold Action.transfer
  refine (onConsole x.run).bind fun r _ => ?_
  cases r with
  | ok a => exact .pure trivial
  | error failure => exact .fail nofun

theorem toBool (hv : v ∈ us) : (Action.toBool v).Keeps (fun b => v.toBool = .ok b) (Stop.Due us) := by
  unfold Action.toBool
  cases v with
  | block body => exact .throw (.asBool hv)
  | _ => exact .pure rfl

theorem toInt (hv : v ∈ us) : (Action.toInt v).Keeps (fun n => v.toInt = .ok n) (Stop.Due us) := by
  unfold Action.toInt
  cases v with
  | block body => exact .throw (.asInt hv)
  | _ => exact .pure rfl

theorem toStr (hv : v ∈ us) : (Action.toStr v).Keeps (fun _ => True) (Stop.Due us) := by
  unfold Action.toStr
  have hr : (Action.onStrings v.toStr).Keeps
      (fun r => ∀ p, r = .error p → Stop.Due us (.panic p)) (Stop.Due us) := by
    refine onStrings fun i p hp => ?_
    cases v with
    | block body =>
      obtain rfl := Except.error.inj hp
      exact .asString hv
    | _ => cases hp
  refine hr.bind fun r hr => ?_
  cases r with
  | ok a => exact .pure trivial
  | error p => exact .throw (hr p rfl)

theorem toStr_self (v : Value) : (Action.toStr v).Keeps (fun _ => True) (Stop.Due [v]) :=
  toStr (List.mem_singleton.2 rfl)

theorem string (text : String) : (Action.string text).Keeps (fun v => v.kind ≠ .block) R := by
  unfold Action.string
  exact (onStrings (Q := fun _ => True) fun _ => trivial).bind fun _ _ => .pure nofun

theorem unsupported (attempt : Attempt) (v : Value) :
    (Action.unsupported attempt v : Action α).Keeps Q (Stop.Due us) := .fail nofun

variable (l r : Value)

theorem add : (Action.add l r).Keeps (fun v => v.kind ≠ .block) (Stop.Due [l, r]) := by
  unfold Action.add
  cases l with
  | int a => exact (toInt (by simp)).bind fun _ _ => .ite (fun _ => .pure nofun) fun _ => .pure nofun
  | str a =>
    refine (toStr (by simp)).bind fun b _ => ?_
    refine .ite (fun _ => .pure nofun) fun _ => .ite (fun _ => .pure nofun) fun _ => ?_
    exact (onStrings (Q := fun _ => True) fun _ => trivial).bind fun _ _ => .pure nofun
  | _ => exact .unsupported _ _

theorem sub : (Action.sub l r).Keeps (fun v => v.kind ≠ .block) (Stop.Due [l, r]) := by
  unfold Action.sub
  cases l with
  | int a => exact (toInt (by simp)).bind fun _ _ => .pure nofun
  | _ => exact .unsupported _ _

theorem mul : (Action.mul l r).Keeps (fun v => v.kind ≠ .block) (BinaryOp.Stops l r .mul) := by
  have due {x : Action Value} (h : x.Keeps (fun v => v.kind ≠ .block) (Stop.Due [l, r])) :
      x.Keeps (fun v => v.kind ≠ .block) (BinaryOp.Stops l r .mul) := h.mono (fun _ => id) fun _ => .due
  unfold Action.mul
  cases l with
  | int a => exact due ((toInt (by simp)).bind fun _ _ => .pure nofun)
  | str a =>
    have hr : (Action.toInt r).Keeps (fun n => r.toInt = .ok n) (BinaryOp.Stops (.str a) r .mul) :=
      mono (R := Stop.Due [.str a, r]) (toInt (by simp)) (fun _ => id) fun _ => .due
    refine hr.bind fun count hc => ?_
    refine .ite (fun _ => due (.fail nofun)) fun h0 => .ite (fun _ => due (.fail nofun)) fun hlt => ?_
    refine .ite (fun hle => ?_) fun _ => string _
    exact .throw (.repeated rfl hc (Int64.not_lt.1 h0) hle (Nat.not_le.1 hlt))
  | _ => exact due (.unsupported _ _)

theorem div : (Action.div l r).Keeps (fun v => v.kind ≠ .block) (Stop.Due [l, r]) := by
  unfold Action.div
  cases l with
  | int a =>
    refine (toInt (by simp)).bind fun b _ => ?_
    exact .ite (fun _ => .fail nofun) fun _ => .pure nofun
  | _ => exact .unsupported _ _

theorem mod : (Action.mod l r).Keeps (fun v => v.kind ≠ .block) (Stop.Due [l, r]) := by
  unfold Action.mod
  cases l with
  | int a =>
    refine (toInt (by simp)).bind fun b _ => ?_
    exact .ite (fun _ => .fail nofun) fun _ => .pure nofun
  | _ => exact .unsupported _ _

theorem exp : (Action.exp l r).Keeps (fun v => v.kind ≠ .block) (Stop.Due [l, r]) := by
  unfold Action.exp
  cases l with
  | int a =>
    refine (toInt (by simp)).bind fun b _ => ?_
    cases h : power? a b with
    | ok n => exact .pure nofun
    | error e => exact .fail (notArithmetic_power? h)
  | _ => exact .unsupported _ _

theorem less : (Action.less l r).Keeps (fun v => v.kind ≠ .block) (Stop.Due [l, r]) := by
  unfold Action.less
  cases l with
  | bool a => exact (toBool (by simp)).bind fun _ _ => .pure nofun
  | int a => exact (toInt (by simp)).bind fun _ _ => .pure nofun
  | str a => exact (toStr (by simp)).bind fun _ _ => .pure nofun
  | _ => exact .unsupported _ _

theorem greater : (Action.greater l r).Keeps (fun v => v.kind ≠ .block) (Stop.Due [l, r]) := by
  unfold Action.greater
  cases l with
  | bool a => exact (toBool (by simp)).bind fun _ _ => .pure nofun
  | int a => exact (toInt (by simp)).bind fun _ _ => .pure nofun
  | str a => exact (toStr (by simp)).bind fun _ _ => .pure nofun
  | _ => exact .unsupported _ _

theorem binary (op : BinaryOp) :
    (Action.binary op l r).Keeps (fun v => v.kind ≠ .block) (op.Stops l r) := by
  have due {x : Action Value} (h : x.Keeps (fun v => v.kind ≠ .block) (Stop.Due [l, r])) :
      x.Keeps (fun v => v.kind ≠ .block) (op.Stops l r) := h.mono (fun _ => id) fun _ => .due
  cases op with
  | add => exact due (add l r)
  | sub => exact due (sub l r)
  | mul => exact mul l r
  | div => exact due (div l r)
  | mod => exact due (mod l r)
  | exp => exact due (exp l r)
  | less => exact due (less l r)
  | greater => exact due (greater l r)
  | equal => exact .pure nofun
  | _ => exact .throw (.unfit id)

theorem range (start count : Int64) (length : Nat) :
    (Action.range start count length).Keeps (fun _ => True) (Stop.Due us) := by
  unfold Action.range
  cases h : Action.byteRange start count length with
  | ok ends => exact .pure trivial
  | error e =>
    obtain rfl := Action.eq_of_byteRange h
    exact .fail nofun

theorem slice (s : Str) (start stop : Nat) :
    (Action.slice s start stop).Keeps (fun _ => True) (Stop.Due us) := by
  unfold Action.slice
  refine (onStrings (Q := fun _ => True) fun _ => trivial).bind fun part _ => ?_
  cases part with
  | some part => exact .pure trivial
  | none => exact .fail nofun

theorem concat (s t : Str) : (Action.onStrings (Cache.concat s t)).Keeps (fun _ => True) R :=
  onStrings fun _ => trivial

theorem get (string start count : Value) : (Action.get string start count).Keeps
    (fun v => v.kind ≠ .block) (Stop.Due [string, start, count]) := by
  unfold Action.get
  refine (toStr (by simp)).bind fun s _ => (toInt (by simp)).bind fun start _ => ?_
  refine (toInt (by simp)).bind fun count _ => (range start count s.length).bind fun ends _ => ?_
  refine .ite (fun _ => ?_) fun _ => .ite (fun _ => .pure nofun) fun _ => ?_
  · exact (onStrings (Q := fun _ => True) fun _ => trivial).bind fun _ _ => .pure nofun
  · exact (slice s _ _).bind fun _ _ => .pure nofun

theorem delete (s : Str) (first last : Nat) :
    (Action.delete s first last).Keeps (fun _ => True) (Stop.Due us) := by
  unfold Action.delete
  refine .ite (fun _ => .ite (fun _ => onStrings fun _ => trivial) fun _ => slice _ _ _) fun _ =>
    .ite (fun _ => .pure trivial) fun _ => .ite (fun _ => slice _ _ _) fun _ => ?_
  exact (slice _ _ _).bind fun _ _ => (slice _ _ _).bind fun _ _ => concat _ _

theorem replace (s : Str) (first last : Nat) (replacement : Str) :
    (Action.replace s first last replacement).Keeps (fun _ => True) (Stop.Due us) := by
  unfold Action.replace
  refine (slice s 0 first).bind fun head _ => (concat head replacement).bind fun head _ => ?_
  exact (slice s last s.length).bind fun tail _ => concat head tail

theorem substitute (string start count replacement : Value) :
    (Action.substitute string start count replacement).Keeps
      (fun v => v = string ∨ v.kind ≠ .block) (Stop.Due [string, start, count, replacement]) := by
  unfold Action.substitute
  refine (toInt (by simp)).bind fun start _ => (toInt (by simp)).bind fun count _ => ?_
  refine (toStr (by simp)).bind fun replacement _ => ?_
  refine .ite (fun _ => .pure (.inl rfl)) fun _ => ?_
  refine (toStr (by simp)).bind fun s _ => (range start count s.length).bind fun ends _ => ?_
  refine .ite (fun _ => ?_) fun _ => ?_
  · exact (delete s _ _).bind fun _ _ => .pure (.inr nofun)
  · exact (replace s _ _ _).bind fun _ _ => .pure (.inr nofun)

theorem ascii : (Action.ascii l).Keeps (fun v => v.kind ≠ .block) (Stop.Due [l]) := by
  unfold Action.ascii
  cases l with
  | int n => exact string _
  | str s =>
    dsimp only
    split
    · exact .pure nofun
    · exact .fail nofun
  | _ => exact .fail nofun

theorem display (text : String) :
    (Action.display text).Keeps (fun v => v.kind ≠ .block) (Stop.Due us) := by
  unfold Action.display
  exact (transfer _).bind fun _ _ => (transfer _).bind fun _ _ => .pure nofun

theorem output : (Action.output l).Keeps (fun v => v.kind ≠ .block) (Stop.Due [l]) := by
  unfold Action.output
  refine (toStr (by simp)).bind fun s _ => .ite (fun _ => display _) fun _ => ?_
  exact (transfer _).bind fun _ _ => .pure nofun

theorem prompt : Action.prompt.Keeps (fun v => v.kind ≠ .block) (Stop.Due us) := by
  unfold Action.prompt
  refine (transfer _).bind fun _ _ => (transfer _).bind fun line _ => ?_
  cases line with
  | none => exact .pure nofun
  | some line => exact string line

theorem random (around : Surroundings) :
    (Action.random around).Keeps (fun v => v.kind ≠ .block) (Stop.Due us) := by
  unfold Action.random
  exact (onConsole _).bind fun _ _ => .pure nofun

theorem system (around : Surroundings) :
    (Action.system around l).Keeps (fun v => v.kind ≠ .block) (Stop.Due [l]) := by
  unfold Action.system
  refine (toStr (by simp)).bind fun command _ => (transfer _).bind fun _ _ => ?_
  split
  · exact .fail nofun
  · refine (onConsole _).bind fun result _ => ?_
    exact .ite (fun _ => string _) fun _ => .fail nofun

theorem unary (around : Surroundings) (op : UnaryOp) :
    (Action.unary around op l).Keeps (fun v => v = l ∨ v.kind ≠ .block) (Stop.Due [l]) := by
  unfold Action.unary
  cases op with
  | not => exact (toBool (by simp)).bind fun _ _ => .pure (.inr nofun)
  | noop => exact .pure (.inl rfl)
  | system => exact (system l around).mono (fun _ => .inr) fun _ => id

end Action.Keeps

theorem Action.store_of_toStr {v : Value} {s t : State} {r : Except Stop Str}
    (h : (toStr v).run s = (r, t)) : t.workspace.store = s.workspace.store := by
  have hs := (Keeps.toStr_self v s).1
  rwa [h] at hs

end KnightLang
