import KnightLang.Proofs.Execution.Consumption
import KnightLang.Proofs.Spelling.Respelling
import Mathlib.Data.Sum.Basic

namespace KnightLang

open List (Forall₂)

theorem Decimal.value_zeros (zeros : Nat) (digits : List Char) :
    value (List.replicate zeros '0' ++ digits) = value digits := by
  induction zeros with
  | zero => rfl
  | succ zeros ih => exact ih

theorem Builtin.ofWord?_cons {c : Char} (hc : c ≠ 'X') (cs cs' : List Char) :
    ofWord? (String.ofList (c :: cs)) = ofWord? (String.ofList (c :: cs')) := by
  have hletter {b : Builtin} {cs cs' : List Char} (h : ofWord? (String.ofList (c :: cs)) = some b) :
      ofWord? (String.ofList (c :: cs')) = some b := by
    unfold ofWord? at h ⊢
    rw [String.toList_ofList] at h ⊢
    split at h
    case h_15 hXD => exact absurd (List.cons.inj hXD).1 hc
    case h_16 => cases h
    all_goals
      rename_i hcs
      obtain ⟨rfl, -⟩ := List.cons.inj hcs
      exact h
  exact Option.ext fun b => ⟨hletter, hletter⟩

/-- The same token up to zeros at the head of an integer, and up to the characters of a word after the
first, unless this is an X. -/
inductive Token.Respells : Token → Token → Prop
  | same (t : Token) : Respells t t
  | integer (zeros zeros' : Nat) (digits : List Char) :
      Respells (.integer (String.ofList (List.replicate zeros '0' ++ digits)))
        (.integer (String.ofList (List.replicate zeros' '0' ++ digits)))
  | word {c : Char} (hc : c ≠ 'X') (cs cs' : List Char) :
      Respells (.word (String.ofList (c :: cs))) (.word (String.ofList (c :: cs')))

inductive CompileError.Respells : CompileError → CompileError → Prop
  | unexpectedEnd (s s' : Span) : Respells (.unexpectedEnd s) (.unexpectedEnd s')
  | integerOutOfRange (digits digits' : String) (s s' : Span) :
      Respells (.integerOutOfRange digits s) (.integerOutOfRange digits' s')
  | unknownFunction (word word' : String) (s s' : Span) :
      Respells (.unknownFunction word s) (.unknownFunction word' s')

inductive Outcomes {ε δ α β : Type} (E : ε → δ → Prop) (R : α → β → Prop) :
    Except ε α → Except δ β → Prop
  | ok {a : α} {b : β} (h : R a b) : Outcomes E R (.ok a) (.ok b)
  | error {e : ε} {e' : δ} (h : E e e') : Outcomes E R (.error e) (.error e')

theorem Outcomes.exists_ok {ε δ α β : Type} {E : ε → δ → Prop} {R : α → β → Prop} {x : Except ε α}
    {y : Except δ β} {a : α} (h : Outcomes E R x y) (hx : x = .ok a) : ∃ b, y = .ok b ∧ R a b := by
  cases h with
  | ok h =>
    obtain rfl := Except.ok.inj hx
    exact ⟨_, rfl, h⟩
  | error h => cases hx

def Agree {σ α β : Type} (S : σ → σ → Prop) (R : α → β → Prop) (x : StateM σ α) (y : StateM σ β) :
    Prop :=
  ∀ ⦃s t : σ⦄, S s t → S (x s).2 (y t).2 ∧ R (x s).1 (y t).1

namespace Agree

variable {σ α β γ δ : Type} {S : σ → σ → Prop} {R : α → β → Prop} {T : γ → δ → Prop}

theorem pure {a : α} {b : β} (h : R a b) : Agree S R (pure a : StateM σ α) (pure b) :=
  fun _ _ hs => ⟨hs, h⟩

theorem bind {x : StateM σ α} {y : StateM σ β} {f : α → StateM σ γ} {g : β → StateM σ δ}
    (h : Agree S R x y) (hfg : ∀ {a : α} {b : β}, R a b → Agree S T (f a) (g b)) :
    Agree S T (x >>= f) (y >>= g) := by
  intro s t hs
  obtain ⟨hst, hr⟩ := h hs
  exact hfg hr hst

theorem onStrings (x : StateM Interner α) :
    Agree Workspace.Respells Eq (Workspace.onStrings x) (Workspace.onStrings x) := by
  rintro ⟨strings, store, n⟩ ⟨strings', store', n'⟩ ⟨hstrings, hstore, hn⟩
  obtain rfl := hstrings
  exact ⟨⟨rfl, hstore, hn⟩, rfl⟩

theorem onStore {x : StateM Store α} {y : StateM Store β} (h : Agree Store.Respells R x y) :
    Agree Workspace.Respells R (Workspace.onStore x) (Workspace.onStore y) := by
  intro ws ws' hws
  obtain ⟨hs, hr⟩ := h hws.store
  exact ⟨⟨hws.strings, hs, hws.nextNode⟩, hr⟩

theorem number : Agree Workspace.Respells Eq Workspace.number Workspace.number := by
  intro ws ws' hws
  exact ⟨⟨hws.strings, hws.store, congrArg (· + 1) hws.nextNode⟩, hws.nextNode⟩

end Agree

namespace Parse

open Workspace

inductive Pending.Respells : Pending → Pending → Prop
  | unary (op : UnaryOp) : Pending.Respells (.unary op) (.unary op)
  | left (op : BinaryOp) : Pending.Respells (.left op) (.left op)
  | right (op : BinaryOp) {m n : Node} (h : m.Respells n) :
      Pending.Respells (.right op m) (.right op n)
  | call (word word' : String) (builtin : Builtin) {ms ns : List Node}
      (h : Forall₂ Node.Respells ms ns) (more : Nat) :
      Pending.Respells (.call word builtin ms more) (.call word' builtin ns more)

abbrev Begun : Except CompileError (Pending ⊕ Node) → Except CompileError (Pending ⊕ Node) → Prop :=
  Outcomes CompileError.Respells (Sum.LiftRel Pending.Respells Node.Respells)

theorem agree_numbered {m n : Nat → Node} (h : ∀ k, (m k).Respells (n k)) :
    Agree Workspace.Respells Begun (do return .ok (.inr (m (← number))))
      (do return .ok (.inr (n (← number)))) := by
  refine Agree.number.bind fun hk => ?_
  obtain rfl := hk
  exact .pure (.ok (.inr (h _)))

section

variable {l l' : Lexeme}

theorem agree_integer {digits digits' : String}
    (hd : Decimal.value digits.toList = Decimal.value digits'.toList)
    (hl : l.token = .integer digits) (hl' : l'.token = .integer digits') :
    Agree Workspace.Respells Begun (start l) (start l') := by
  simp only [start, hl, hl', hd]
  split
  · exact agree_numbered fun k => .literal k (.int _)
  · exact .pure (.error (.integerOutOfRange _ _ _ _))

theorem agree_word {word word' : String} (hw : Builtin.ofWord? word = Builtin.ofWord? word')
    (hl : l.token = .word word) (hl' : l'.token = .word word') :
    Agree Workspace.Respells Begun (start l) (start l') := by
  simp only [start, hl, hl', hw]
  cases Builtin.ofWord? word' with
  | none => exact .pure (.error (.unknownFunction _ _ _ _))
  | some builtin =>
    dsimp only
    cases builtin.arity with
    | zero => exact agree_numbered fun k => .call k word word' builtin .nil
    | succ more => exact .pure (.ok (.inl (.call word word' builtin .nil more)))

theorem agree_same {t : Token} (hl : l.token = t) (hl' : l'.token = t) :
    Agree Workspace.Respells Begun (start l) (start l') := by
  cases t with
  | integer digits => exact agree_integer rfl hl hl'
  | word word => exact agree_word rfl hl hl'
  | text content =>
    simp only [start, hl, hl']
    refine (Agree.onStrings _).bind fun hs => ?_
    obtain rfl := hs
    exact agree_numbered fun k => .literal k (.str _)
  | name spelling =>
    have hlookup : Agree Store.Respells Eq (Store.lookup spelling) (Store.lookup spelling) :=
      fun _ _ hs => hs.lookup spelling
    simp only [start, hl, hl']
    refine hlookup.onStore.bind fun hv => ?_
    obtain rfl := hv
    exact agree_numbered fun k => .var k _
  | true =>
    simp only [start, hl, hl']
    exact agree_numbered fun k => .literal k (.bool _)
  | false =>
    simp only [start, hl, hl']
    exact agree_numbered fun k => .literal k (.bool _)
  | null =>
    simp only [start, hl, hl']
    exact agree_numbered fun k => .literal k .null
  | unary op =>
    simp only [start, hl, hl']
    exact .pure (.ok (.inl (.unary op)))
  | binary op =>
    simp only [start, hl, hl']
    exact .pure (.ok (.inl (.left op)))

theorem agree_start (h : l.token.Respells l'.token) :
    Agree Workspace.Respells Begun (start l) (start l') := by
  generalize hl : l.token = t at h
  generalize hl' : l'.token = t' at h
  cases h with
  | same t => exact agree_same hl hl'
  | integer zeros zeros' digits =>
    refine agree_integer ?_ hl hl'
    simp only [String.toList_ofList, Decimal.value_zeros]
  | word hc cs cs' => exact agree_word (Builtin.ofWord?_cons hc cs cs') hl hl'

end

theorem agree_deliver {m n : Node} (h : m.Respells n) {ps qs : List Pending}
    (hs : Forall₂ Pending.Respells ps qs) :
    Agree Workspace.Respells (Sum.LiftRel Node.Respells (Forall₂ Pending.Respells))
      (deliver m ps) (deliver n qs) := by
  induction hs generalizing m n with
  | nil => exact .pure (.inl h)
  | cons hp hs ih =>
    cases hp with
    | unary op => exact Agree.number.bind fun hk => hk ▸ ih (.unary _ op h)
    | left op => exact .pure (.inr (.cons (.right op h) hs))
    | right op h' => exact Agree.number.bind fun hk => hk ▸ ih (.binary _ op h' h)
    | call word word' builtin hd more =>
      cases more with
      | zero =>
        have hall := List.rel_append (List.rel_reverse hd) (.cons h .nil)
        exact Agree.number.bind fun hk => hk ▸ ih (.call _ word word' builtin hall)
      | succ more => exact .pure (.inr (.cons (.call word word' builtin (.cons h hd) more) hs))

theorem agree_finish (length length' : Nat) {ps qs : List Pending}
    (hs : Forall₂ Pending.Respells ps qs) {ls ls' : List Lexeme}
    (h : Forall₂ (fun l l' => l.token.Respells l'.token) ls ls') :
    Agree Workspace.Respells (Outcomes CompileError.Respells Node.Respells)
      (finish length ps ls) (finish length' qs ls') := by
  induction h generalizing ps qs with
  | nil =>
    have hend : Agree Workspace.Respells (Outcomes CompileError.Respells Node.Respells)
        (pure (.error (.unexpectedEnd ⟨length, length⟩)))
        (pure (.error (.unexpectedEnd ⟨length', length'⟩))) :=
      .pure (.error (.unexpectedEnd _ _))
    cases hs <;> exact hend
  | cons hl _ ih =>
    rw [finish_cons, finish_cons]
    refine (agree_start hl).bind fun hstart => ?_
    cases hstart with
    | error he => exact .pure (.error he)
    | ok hstart =>
      cases hstart with
      | inl hp => exact ih (.cons hp hs)
      | inr hn =>
        refine (agree_deliver hn hs).bind fun hdeliver => ?_
        cases hdeliver with
        | inl hr => exact .pure (.ok hr)
        | inr hs => exact ih hs

end Parse

theorem Program.agree_parse {source source' : String} {ls ls' : List Lexeme}
    (hs : Token.scan source = .ok ls) (hs' : Token.scan source' = .ok ls')
    (h : Forall₂ (fun l l' => l.token.Respells l'.token) ls ls') :
    Agree Workspace.Respells (Outcomes CompileError.Respells Program.Respells)
      (Program.parse source) (Program.parse source') := by
  simp only [Program.parse, hs, hs']
  refine (Parse.agree_finish _ _ .nil h).bind fun hroot => ?_
  cases hroot with
  | error he => exact .pure (.error he)
  | ok hroot => exact .pure (.ok hroot)

theorem Program.agree_reparse (source : String) :
    Agree Workspace.Respells (Outcomes Eq Program.Respells) (Program.parse source)
      (Program.parse source) := by
  intro ws ws' h
  cases hs : Token.scan source with
  | error e =>
    simp only [Program.parse, hs]
    exact ⟨h, .error rfl⟩
  | ok ls =>
    have hrefl : Forall₂ (fun l l' => l.token.Respells l'.token) ls ls :=
      List.forall₂_same.2 fun l _ => .same l.token
    obtain ⟨hws, hr⟩ := agree_parse hs hs hrefl h
    refine ⟨hws, ?_⟩
    rcases Parse.begins_or_fails ls with ⟨p, rest, hb⟩ | hf
    · rw [hb.parse_eq hs, hb.parse_eq hs] at hr ⊢
      cases hr with
      | ok hr => exact .ok hr
    · -- which error it is depends on the tokens alone
      obtain ⟨ws₁, hp, -⟩ := parse_of_fails hs hf ws
      obtain ⟨ws₂, hp', -⟩ := parse_of_fails hs hf ws'
      rw [hp, hp']
      exact .error rfl

end KnightLang
