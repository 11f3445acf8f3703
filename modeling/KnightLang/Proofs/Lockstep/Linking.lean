import KnightLang.Proofs.Lockstep.Matching
import KnightLang.Proofs.Lockstep.Spending
import KnightLang.Proofs.Strings.History

/-!
Links between the caches of two runs. A link says when two caches are alike under a pairing of strings.
A lawful one leaves them alike, under a pairing that has only grown, when both are asked for
counterparts. What programs do with their states is built on that.
-/
namespace KnightLang

structure Link where
  strict : Prop
  like : Pairing → Interner → Interner → Prop

def Link.Enough (L : Link) (s : Supply) : Prop := L.strict → s.TagsLeft

theorem Link.Enough.of_le {L : Link} {s t : Supply} (ht : L.Enough t)
    (h : s.nextTag.toNat ≤ t.nextTag.toNat) : L.Enough s := fun hs => (ht hs).of_le h

class Compared (σ : Type) extends Supplied σ where
  alike (L : Link) (d : Int) (w : Pairing) : σ → σ → Prop
  like_of_alike {L : Link} {d : Int} {w : Pairing} {s t : σ} : alike L d w s t →
    ∃ i j, L.like w i j

export Compared (alike)

instance : Compared Interner where
  alike L _ := L.like
  like_of_alike h := ⟨_, _, h⟩

structure Workspace.Alike (L : Link) (d : Int) (w : Pairing) (s t : Workspace) : Prop where
  strings : L.like w s.strings t.strings
  store : s.store.Matches d w t.store
  nextNode : Apart d s.nextNode t.nextNode

instance : Compared Workspace where
  alike := Workspace.Alike
  like_of_alike h := ⟨_, _, h.strings⟩

structure State.Alike (L : Link) (d : Int) (w : Pairing) (s t : State) : Prop where
  workspace : s.workspace.Alike L d w t.workspace
  console : s.console = t.console

instance : Compared State where
  alike := State.Alike
  like_of_alike h := ⟨_, _, h.workspace.strings⟩

/-- Two computations take states that are alike to states that are alike, and give results that are
related. -/
def Link.Sim {σ α β : Type} [Compared σ] (L : Link) (d : Int) (w : Pairing)
    (R : Pairing → α → β → Prop) (x : StateM σ α) (y : StateM σ β) : Prop :=
  ∀ ⦃w' : Pairing⦄ ⦃s t : σ⦄, w ≤ w' → alike L d w' s t → L.Enough (supply (x s).2) →
    L.Enough (supply (y t).2) →
    ∃ w'', w' ≤ w'' ∧ alike L d w'' (x s).2 (y t).2 ∧ R w'' (x s).1 (y t).1

def Same {α : Type} (_ : Pairing) (a b : α) : Prop := a = b

inductive Results {ε α β : Type} (R : Pairing → α → β → Prop) (w : Pairing) :
    Except ε α → Except ε β → Prop
  | ok {a : α} {b : β} (h : R w a b) : Results R w (.ok a) (.ok b)
  | error (e : ε) : Results R w (.error e) (.error e)

def Options {α β : Type} (R : Pairing → α → β → Prop) (w : Pairing) : Option α → Option β → Prop :=
  Option.Rel (R w)

def Strings (w : Pairing) : Str → Str → Prop := w

inductive Request.Matches (w : Pairing) : Request Str → Request Str → Prop
  | text (t : String) : Request.Matches w (.text t) (.text t)
  | ownedText (t : String) : Request.Matches w (.ownedText t) (.ownedText t)
  | special (which : Cache.Special) : Request.Matches w (.special which) (.special which)
  | part {a b : Str} (h : w a b) (start stop : Nat) :
      Request.Matches w (.part a start stop) (.part b start stop)
  | join {a b a' b' : Str} (h : w a b) (h' : w a' b') : Request.Matches w (.join a a') (.join b b')
  | integer (n : Int64) : Request.Matches w (.integer n) (.integer n)

theorem Request.Matches.mono {w w' : Pairing} (hw : w ≤ w') {r r' : Request Str}
    (h : r.Matches w r') : r.Matches w' r' := by
  cases h with
  | text t => exact .text t
  | ownedText t => exact .ownedText t
  | special which => exact .special which
  | part h start stop => exact .part (hw _ _ h) start stop
  | join h h' => exact .join (hw _ _ h) (hw _ _ h')
  | integer n => exact .integer n

structure Link.Lawful (L : Link) : Prop where
  faithful {w : Pairing} {i j : Interner} : L.like w i j → w.Faithful
  options {w : Pairing} {i j : Interner} : L.like w i j → i.cache.options = j.cache.options
  answer {w : Pairing} {r r' : Request Str} (d : Int) (h : r.Matches w r') :
    L.Sim d w (Options Strings) r.answer r'.answer

theorem Pairing.Faithful.anti {w w' : Pairing} (h : w'.Faithful) (hw : w ≤ w') : w.Faithful where
  text hab := h.text (hw _ _ hab)
  identity hab hab' := h.identity (hw _ _ hab) (hw _ _ hab')
  equal hab hab' := h.equal (hw _ _ hab) (hw _ _ hab')

namespace Link

section

variable {σ α β γ δ : Type} [Compared σ] {L : Link} {d : Int} {w : Pairing}
  {R : Pairing → α → β → Prop} {T : Pairing → γ → δ → Prop} {x : StateM σ α} {y : StateM σ β}

theorem Sim.pure {a : α} {b : β} (h : ∀ {w' : Pairing}, w ≤ w' → R w' a b) :
    L.Sim d w R (pure a : StateM σ α) (pure b) :=
  fun w₁ _ _ hw hl _ _ => ⟨w₁, le_rfl, hl, h hw⟩

theorem Sim.bind {f : α → StateM σ γ} {g : β → StateM σ δ} [hf : ∀ a, Spends (f a)]
    [hg : ∀ b, Spends (g b)] (h : L.Sim d w R x y)
    (hfg : ∀ {w' : Pairing} {a : α} {b : β}, w ≤ w' → R w' a b → L.Sim d w' T (f a) (g b)) :
    L.Sim d w T (x >>= f) (y >>= g) := by
  intro w₁ s t hw hl hs ht
  have hs' := hs.of_le ((hf (x s).1).le (x s).2)
  have ht' := ht.of_le ((hg (y t).1).le (y t).2)
  obtain ⟨w₂, hw₂, hl₂, hr⟩ := h hw hl hs' ht'
  obtain ⟨w₃, hw₃, hl₃, hr₃⟩ := hfg (hw.trans hw₂) hr le_rfl hl₂ hs ht
  exact ⟨w₃, hw₂.trans hw₃, hl₃, hr₃⟩

theorem Sim.map {f : α → γ} {g : β → δ} (h : L.Sim d w R x y)
    (hfg : ∀ {w' : Pairing} {a : α} {b : β}, R w' a b → T w' (f a) (g b)) :
    L.Sim d w T (f <$> x) (g <$> y) := by
  intro w₁ s t hw hl hs ht
  obtain ⟨w₂, hw₂, hl₂, hr⟩ := h hw hl hs ht
  exact ⟨w₂, hw₂, hl₂, hfg hr⟩

end

namespace Lawful

variable {L : Link} {d : Int} {w : Pairing}

section

variable (hL : L.Lawful)

include hL

theorem assume {σ α β : Type} [Compared σ] {R : Pairing → α → β → Prop} {x : StateM σ α}
    {y : StateM σ β} (h : w.Faithful → L.Sim d w R x y) : L.Sim d w R x y := by
  intro w₁ s t hw hl
  obtain ⟨i, j, hij⟩ := Compared.like_of_alike hl
  exact h ((hL.faithful hij).anti hw) hw hl

theorem sim_of_answer {r r' : Request Str} {x y : StateM Interner Str} (h : r.Matches w r')
    (hx : r.answer = some <$> x) (hy : r'.answer = some <$> y) : L.Sim d w Strings x y := by
  have ha := hL.answer d h
  rw [hx, hy] at ha
  intro w₁ s t hw hl hs ht
  obtain ⟨w₂, hw₂, hl₂, hr⟩ := ha hw hl hs ht
  cases hr with
  | some hr => exact ⟨w₂, hw₂, hl₂, hr⟩

theorem string (text : String) :
    L.Sim d w Strings (Cache.string text : StateM Interner Str) (Cache.string text) :=
  hL.sim_of_answer (.text text) rfl rfl

theorem intString (n : Int64) :
    L.Sim d w Strings (Cache.intString n : StateM Interner Str) (Cache.intString n) :=
  hL.sim_of_answer (.integer n) rfl rfl

theorem concat {a b a' b' : Str} (h : w a b) (h' : w a' b') :
    L.Sim d w Strings (Cache.concat a a' : StateM Interner Str) (Cache.concat b b') :=
  hL.sim_of_answer (.join h h') rfl rfl

theorem substring {a b : Str} (h : w a b) (start stop : Nat) :
    L.Sim d w (Options Strings) (Cache.substring a start stop : StateM Interner (Option Str))
      (Cache.substring b start stop) :=
  hL.answer d (.part h start stop)

theorem emptyString : L.Sim d w Strings (Cache.emptyString : StateM Interner Str) Cache.emptyString :=
  hL.sim_of_answer (.special .empty) rfl rfl

theorem nullString : L.Sim d w Strings (Cache.nullString : StateM Interner Str) Cache.nullString :=
  hL.sim_of_answer (.special .null) rfl rfl

theorem boolString (b : Bool) :
    L.Sim d w Strings (Cache.boolString b : StateM Interner Str) (Cache.boolString b) := by
  cases b with
  | true => exact hL.sim_of_answer (.special .yes) rfl rfl
  | false => exact hL.sim_of_answer (.special .no) rfl rfl

theorem warm : L.Sim d w Same (Cache.warm : StateM Interner Unit) Cache.warm := by
  have made (ns : List Int64) {w : Pairing} : L.Sim d w Same
      (ns.forM fun n => discard (Cache.intString n : StateM Interner Str))
      (ns.forM fun n => discard (Cache.intString n : StateM Interner Str)) := by
    induction ns generalizing w with
    | nil => exact .pure fun _ => rfl
    | cons n ns ih =>
      change L.Sim d w Same (discard (Cache.intString n : StateM Interner Str) >>= fun _ => ns.forM _)
        (discard (Cache.intString n : StateM Interner Str) >>= fun _ => ns.forM _)
      exact ((hL.intString n).map (T := Same) fun _ => rfl).bind fun _ _ => ih
  intro w₁ i j hw hl hs ht
  simp only [Cache.warm_eq, hL.options hl] at hs ht ⊢
  exact made _ hw hl hs ht

end

end Lawful

end Link

end KnightLang
