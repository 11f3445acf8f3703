import KnightLang.Proofs.Grammar.Phrase

namespace KnightLang

open Workspace

namespace Phrase

mutual

def build : Phrase → StateM Workspace Node
  | .integer digits => return .literal (← number) (.int (.ofNat (Decimal.value digits.toList)))
  | .text content => do
    let s ← onStrings (Cache.string content)
    return .literal (← number) (.str s)
  | .true => return .literal (← number) (.bool Bool.true)
  | .false => return .literal (← number) (.bool Bool.false)
  | .null => return .literal (← number) .null
  | .name spelling => do
    let v ← onStore (Store.lookup spelling)
    return .var (← number) v
  | .unary op operand => do
    let n ← operand.build
    return .unary (← number) op n
  | .binary op left right => do
    let m ← left.build
    let n ← right.build
    return .binary (← number) op m n
  | .call word builtin args => do
    let ns ← buildAll args
    return .call (← number) word builtin ns

def buildAll : List Phrase → StateM Workspace (List Node)
  | [] => return []
  | p :: ps => do
    let n ← p.build
    let ns ← buildAll ps
    return n :: ns

end

theorem forall_buildAll {T : Node → Prop} {ps : List Phrase} (h : ∀ p ∈ ps, ∀ ws, T (p.build ws).1)
    (ws : Workspace) :
    (buildAll ps ws).1.length = ps.length ∧ ∀ n ∈ (buildAll ps ws).1, T n := by
  induction ps generalizing ws with
  | nil => exact ⟨rfl, nofun⟩
  | cons p ps ih =>
    rw [List.forall_mem_cons] at h
    obtain ⟨hl, hc⟩ := ih h.2 (p.build ws).2
    have hr : (buildAll (p :: ps) ws).1 = (p.build ws).1 :: (buildAll ps (p.build ws).2).1 := rfl
    rw [hr]
    exact ⟨congrArg (· + 1) hl, List.forall_mem_cons.2 ⟨h.1 ws, hc⟩⟩

end Phrase

def Lexeme.fault? (l : Lexeme) : Option CompileError :=
  match l.token with
  | .integer digits =>
    if Decimal.value digits.toList < 0x8000000000000000 then none
    else some (.integerOutOfRange digits l.span)
  | .word spelling =>
    match Builtin.ofWord? spelling with
    | none => some (.unknownFunction spelling l.span)
    | some _ => none
  | _ => none

namespace Parse

/-- The first fault among some tokens, or else that they end, in a source of `length` bytes. -/
def firstFault (length : Nat) (ls : List Lexeme) : CompileError :=
  (ls.findSome? Lexeme.fault?).getD (.unexpectedEnd ⟨length, length⟩)

theorem start_of_fault {l : Lexeme} {e : CompileError} (h : l.fault? = some e) :
    start l = pure (.error e) := by
  unfold Lexeme.fault? at h
  unfold start
  cases ht : l.token with
  | integer digits =>
    simp only [ht] at h ⊢
    split at h
    · cases h
    · rename_i hd
      rw [if_neg hd, Option.some.inj h]
  | word spelling =>
    cases hw : Builtin.ofWord? spelling with
    | none =>
      simp only [ht, hw] at h ⊢
      rw [← Option.some.inj h]
    | some builtin =>
      simp only [ht, hw] at h
      cases h
  | _ => simp only [ht, reduceCtorEq] at h

theorem fault_of_start {l : Lexeme} {ws : Workspace} {e : CompileError}
    (h : (start l ws).1 = .error e) : l.fault? = some e := by
  unfold start at h
  unfold Lexeme.fault?
  cases ht : l.token with
  | integer digits =>
    simp only [ht] at h ⊢
    split at h
    · cases h
    · rename_i hd
      obtain rfl := Except.error.inj h
      rw [if_neg hd]
  | word spelling =>
    cases hw : Builtin.ofWord? spelling with
    | none =>
      simp only [ht, hw] at h ⊢
      obtain rfl := Except.error.inj h
      rfl
    | some builtin =>
      simp only [ht, hw] at h
      cases ha : builtin.arity <;> simp only [ha] at h <;> cases h
  | _ =>
    simp only [ht] at h
    cases h

def settle (length : Nat) (n : Node) (stack : List Pending) (rest : List Lexeme) :
    StateM Workspace (Except CompileError Node) := do
  match ← deliver n stack with
  | .inl root => return .ok root
  | .inr stack => finish length stack rest

section

variable {length : Nat} {stack : List Pending} {rest ls : List Lexeme} {n : Node}

theorem settle_nil : settle length n [] rest = pure (.ok n) := by
  simp only [settle, deliver, pure_bind]

theorem settle_unary (op : UnaryOp) : settle length n (.unary op :: stack) rest =
    number >>= fun k => settle length (.unary k op n) stack rest := by
  simp only [settle, deliver, bind_assoc]

theorem settle_left (op : BinaryOp) : settle length n (.left op :: stack) rest =
    finish length (.right op n :: stack) rest := by
  simp only [settle, deliver, pure_bind]

theorem settle_right (op : BinaryOp) (left : Node) :
    settle length n (.right op left :: stack) rest =
      number >>= fun k => settle length (.binary k op left n) stack rest := by
  simp only [settle, deliver, bind_assoc]

theorem settle_last (word : String) (builtin : Builtin) (done : List Node) :
    settle length n (.call word builtin done 0 :: stack) rest =
      number >>= fun k => settle length (.call k word builtin (done.reverse ++ [n])) stack rest := by
  simp only [settle, deliver, bind_assoc]

theorem settle_more (word : String) (builtin : Builtin) (done : List Node) (more : Nat) :
    settle length n (.call word builtin done (more + 1) :: stack) rest =
      finish length (.call word builtin (n :: done) more :: stack) rest := by
  simp only [settle, deliver, pure_bind]

theorem finish_cons (l : Lexeme) : finish length stack (l :: rest) = start l >>= fun
    | .error e => pure (.error e)
    | .ok (.inl pending) => finish length (pending :: stack) rest
    | .ok (.inr node) => settle length node stack rest := by
  rw [finish]
  refine congrArg (start l >>= ·) (funext fun started => ?_)
  rcases started with e | pending | node <;> rfl

theorem finish_args {ps : List Phrase} {ls rest : List Lexeme} {word : String} {builtin : Builtin}
    {done : List Node} {stack : List Pending}
    (hp : ∀ p ∈ ps, ∀ {stack : List Pending} {rest ls : List Lexeme},
      ls.map Lexeme.token = p.tokens →
        finish length stack (ls ++ rest) = p.build >>= fun n => settle length n stack rest)
    {more : Nat} (hl : ps.length = more + 1) (hs : ls.map Lexeme.token = Phrase.tokensAll ps) :
    finish length (.call word builtin done more :: stack) (ls ++ rest) =
      Phrase.buildAll ps >>= fun ns => number >>= fun k =>
        settle length (.call k word builtin (done.reverse ++ ns)) stack rest := by
  induction ps generalizing ls done more with
  | nil => simp at hl
  | cons p ps ih =>
    rw [List.forall_mem_cons] at hp
    obtain ⟨ls₁, ls₂, rfl, h₁, h₂⟩ := List.map_eq_append_iff.1 hs
    rw [List.append_assoc, hp.1 h₁]
    simp only [Phrase.buildAll, bind_assoc, pure_bind]
    congr 1
    funext n
    cases more with
    | zero =>
      obtain rfl : ps = [] := List.length_eq_zero_iff.1 (by simpa using hl)
      obtain rfl : ls₂ = [] := by simpa [Phrase.tokensAll] using h₂
      simp only [settle_last, Phrase.buildAll, pure_bind, List.nil_append]
    | succ more =>
      rw [settle_more, ih hp.2 (by simpa using hl) h₂]
      simp only [List.reverse_cons, List.append_assoc, List.singleton_append]

theorem finish_phrase {p : Phrase} (hp : p.WellFormed) (hs : ls.map Lexeme.token = p.tokens) :
    finish length stack (ls ++ rest) = p.build >>= fun n => settle length n stack rest := by
  induction hp generalizing ls rest stack with
  | unary op hp ih =>
    obtain ⟨l, ls, rfl, hl, hs⟩ := List.map_eq_cons_iff.1 hs
    simp only [List.cons_append, finish_cons, start, hl, pure_bind, ih hs, settle_unary,
      Phrase.build, bind_assoc]
  | binary op hp hp' ih ih' =>
    obtain ⟨l, ls, rfl, hl, hs⟩ := List.map_eq_cons_iff.1 hs
    obtain ⟨ls₁, ls₂, rfl, h₁, h₂⟩ := List.map_eq_append_iff.1 hs
    simp only [List.cons_append, List.append_assoc, finish_cons, start, hl, pure_bind, ih h₁,
      settle_left, ih' h₂, settle_right, Phrase.build, bind_assoc]
  | @call word builtin ps hw ha hp ih =>
    obtain ⟨l, ls, rfl, hl, hs⟩ := List.map_eq_cons_iff.1 hs
    simp only [List.cons_append, finish_cons, start, hl, hw]
    cases hb : builtin.arity with
    | zero =>
      obtain rfl : ps = [] := List.length_eq_zero_iff.1 (ha.trans hb)
      obtain rfl : ls = [] := by simpa [Phrase.tokensAll] using hs
      simp only [Phrase.build, Phrase.buildAll, bind_assoc, pure_bind, List.nil_append]
    | succ more =>
      simp only [pure_bind, finish_args ih (ha.trans hb) hs, Phrase.build, bind_assoc,
        List.reverse_nil, List.nil_append]
  | @integer digits h =>
    obtain ⟨l, rfl, hl⟩ := List.map_eq_singleton_iff.1 hs
    simp only [List.cons_append, List.nil_append, finish_cons, start, hl, h, if_true, Phrase.build,
      bind_assoc, pure_bind]
  | _ =>
    obtain ⟨l, rfl, hl⟩ := List.map_eq_singleton_iff.1 hs
    simp only [List.cons_append, List.nil_append, finish_cons, start, hl, Phrase.build,
      bind_assoc, pure_bind]

theorem fault_none {p : Phrase} (hp : p.WellFormed) (hs : ls.map Lexeme.token = p.tokens) :
    ∀ l ∈ ls, l.fault? = none := by
  have of_token {t : Token} (ht : t ∈ p.tokens) : ∀ l : Lexeme, l.token = t → l.fault? = none := by
    clear hs
    induction hp with
    | unary op hp ih =>
      rcases List.mem_cons.1 ht with rfl | ht
      · intro l hl
        simp only [Lexeme.fault?, hl]
      · exact ih ht
    | binary op hp hp' ih ih' =>
      rcases List.mem_cons.1 ht with rfl | ht
      · intro l hl
        simp only [Lexeme.fault?, hl]
      · exact (List.mem_append.1 ht).elim ih ih'
    | @call word builtin ps hw ha hp ih =>
      rcases List.mem_cons.1 ht with rfl | ht
      · intro l hl
        simp only [Lexeme.fault?, hl, hw]
      · obtain ⟨p, hps, ht⟩ := Phrase.mem_tokensAll.1 ht
        exact ih p hps ht
    | integer h =>
      obtain rfl := List.mem_singleton.1 ht
      intro l hl
      simp only [Lexeme.fault?, hl, h, if_true]
    | _ =>
      obtain rfl := List.mem_singleton.1 ht
      intro l hl
      simp only [Lexeme.fault?, hl]
  intro l hl
  exact of_token (hs ▸ List.mem_map_of_mem hl) l rfl

theorem firstFault_append {p : Phrase} (hp : p.WellFormed) (hs : ls.map Lexeme.token = p.tokens) :
    firstFault length (ls ++ rest) = firstFault length rest := by
  rw [firstFault, List.findSome?_append, List.findSome?_eq_none_iff.2 (fault_none hp hs)]
  rfl

end

def Begins (p : Phrase) (ls rest : List Lexeme) : Prop :=
  p.WellFormed ∧ ∃ taken, taken.map Lexeme.token = p.tokens ∧ taken ++ rest = ls

def Fails (ls : List Lexeme) : Prop :=
  ∀ length stack ws, (finish length stack ls ws).1 = .error (firstFault length ls)

section

variable {p : Phrase} {ls rest : List Lexeme} {l : Lexeme} {length : Nat} {stack : List Pending}

theorem Begins.finish (h : Begins p ls rest) :
    finish length stack ls = p.build >>= fun n => settle length n stack rest := by
  obtain ⟨hp, taken, ht, rfl⟩ := h
  exact finish_phrase hp ht

theorem Begins.finish_eq (h : Begins p ls rest) (ws : Workspace) :
    Parse.finish length [] ls ws = (.ok (p.build ws).1, (p.build ws).2) := by
  rw [h.finish]
  simp only [settle_nil]
  rfl

theorem Begins.firstFault (h : Begins p ls rest) : firstFault length ls = firstFault length rest := by
  obtain ⟨hp, taken, ht, rfl⟩ := h
  exact firstFault_append hp ht

theorem Begins.length_le (h : Begins p ls rest) : rest.length ≤ ls.length := by
  obtain ⟨-, taken, -, rfl⟩ := h
  simp

theorem Begins.error (h : Begins p ls rest) {ws : Workspace}
    (hr : ∀ n ws, (settle length n stack rest ws).1 = .error (Parse.firstFault length rest)) :
    (Parse.finish length stack ls ws).1 = .error (Parse.firstFault length ls) := by
  rw [h.finish, h.firstFault]
  exact hr _ _

theorem begins_single {t : Token} (hp : p.WellFormed) (ht : l.token = t) (h : p.tokens = [t]) :
    Begins p (l :: rest) rest :=
  ⟨hp, [l], by simp only [List.map_cons, List.map_nil, ht, h], rfl⟩

theorem fails_of_fault {e : CompileError} (h : l.fault? = some e)
    (hs : start l = pure (.error e)) : Fails (l :: rest) := by
  intro length stack ws
  simp only [finish_cons, hs, pure_bind, Parse.firstFault, List.findSome?_cons, h]
  rfl

theorem fails_of_pending {pending : Pending} (hl : l.fault? = none)
    (hs : start l = pure (.ok (.inl pending)))
    (h : ∀ length stack ws, (Parse.finish length (pending :: stack) rest ws).1 =
      .error (Parse.firstFault length rest)) : Fails (l :: rest) := by
  intro length stack ws
  simp only [finish_cons, hs, pure_bind, Parse.firstFault, List.findSome?_cons, hl]
  exact h length stack ws

theorem args_or_fails {bound : Nat}
    (ih : ∀ ls : List Lexeme, ls.length ≤ bound → (∃ p rest, Begins p ls rest) ∨ Fails ls)
    (word : String) (builtin : Builtin) (more : Nat) {ls : List Lexeme} (hb : ls.length ≤ bound) :
    (∃ ps taken rest, ps.length = more + 1 ∧ (∀ p ∈ ps, p.WellFormed) ∧
        taken.map Lexeme.token = Phrase.tokensAll ps ∧ taken ++ rest = ls) ∨
      ∀ length done stack ws, (Parse.finish length (.call word builtin done more :: stack) ls ws).1 =
        .error (Parse.firstFault length ls) := by
  induction more generalizing ls with
  | zero =>
    obtain ⟨p, rest, hp, taken, ht, hr⟩ | hf := ih ls hb
    · exact .inl ⟨[p], taken, rest, rfl, by simpa using hp, by simpa [Phrase.tokensAll] using ht, hr⟩
    · exact .inr fun length done stack ws => hf length _ ws
  | succ more ih' =>
    obtain ⟨p, rest, hp⟩ | hf := ih ls hb
    · obtain ⟨ps, taken', rest', hl, hps, ht', hr'⟩ | hf := ih' (Nat.le_trans hp.length_le hb)
      · obtain ⟨hp, taken, ht, rfl⟩ := hp
        refine .inl ⟨p :: ps, taken ++ taken', rest', by simpa using hl, ?_, ?_, ?_⟩
        · exact List.forall_mem_cons.2 ⟨hp, hps⟩
        · rw [List.map_append, ht, ht', Phrase.tokensAll]
        · rw [List.append_assoc, hr']
      · refine .inr fun length done stack ws => hp.error fun n ws => ?_
        rw [settle_more]
        exact hf _ _ _ _
    · exact .inr fun length done stack ws => hf length _ ws

theorem begins_or_fails (ls : List Lexeme) : (∃ p rest, Begins p ls rest) ∨ Fails ls := by
  -- the operands of an operator are read from what is left, however much its first operand took
  obtain ⟨bound, hb⟩ : ∃ bound, ls.length ≤ bound := ⟨_, Nat.le_refl _⟩
  induction bound generalizing ls with
  | zero =>
    obtain rfl : ls = [] := List.length_eq_zero_iff.1 (by omega)
    exact .inr fun _ _ _ => rfl
  | succ bound ih =>
    cases ls with
    | nil => exact .inr fun _ _ _ => rfl
    | cons l ls =>
      have hb : ls.length ≤ bound := by simpa using hb
      cases ht : l.token with
      | integer digits =>
        by_cases hd : Decimal.value digits.toList < 0x8000000000000000
        · exact .inl ⟨_, ls, begins_single (.integer hd) ht rfl⟩
        · refine .inr (fails_of_fault (e := .integerOutOfRange digits l.span) ?_ ?_)
          · simp only [Lexeme.fault?, ht, hd, if_false]
          · simp only [start, ht, hd, if_false]
      | text content => exact .inl ⟨_, ls, begins_single (.text content) ht rfl⟩
      | true => exact .inl ⟨_, ls, begins_single .true ht rfl⟩
      | false => exact .inl ⟨_, ls, begins_single .false ht rfl⟩
      | null => exact .inl ⟨_, ls, begins_single .null ht rfl⟩
      | name spelling => exact .inl ⟨_, ls, begins_single (.name spelling) ht rfl⟩
      | unary op =>
        have hl : l.fault? = none := by simp only [Lexeme.fault?, ht]
        have hs : start l = pure (.ok (.inl (.unary op))) := by simp only [start, ht]
        obtain ⟨p, rest, hp, taken, htk, hr⟩ | hf := ih ls hb
        · refine .inl ⟨.unary op p, rest, .unary op hp, l :: taken, ?_, by rw [← hr]; rfl⟩
          rw [List.map_cons, ht, htk, Phrase.tokens]
        · exact .inr (fails_of_pending hl hs fun length stack => hf length _)
      | binary op =>
        have hl : l.fault? = none := by simp only [Lexeme.fault?, ht]
        have hs : start l = pure (.ok (.inl (.left op))) := by simp only [start, ht]
        obtain ⟨p, rest, hp⟩ | hf := ih ls hb
        · obtain ⟨q, rest', hq, taken', htk', hr'⟩ | hf := ih rest (Nat.le_trans hp.length_le hb)
          · obtain ⟨hp, taken, htk, hr⟩ := hp
            refine .inl ⟨.binary op p q, rest', .binary op hp hq, l :: (taken ++ taken'), ?_, ?_⟩
            · rw [List.map_cons, List.map_append, ht, htk, htk', Phrase.tokens]
            · rw [List.cons_append, List.append_assoc, hr', hr]
          · refine .inr (fails_of_pending hl hs fun length stack ws => hp.error fun n ws => ?_)
            rw [settle_left]
            exact hf _ _ _
        · exact .inr (fails_of_pending hl hs fun length stack => hf length _)
      | word spelling =>
        cases hw : Builtin.ofWord? spelling with
        | none =>
          refine .inr (fails_of_fault (e := .unknownFunction spelling l.span) ?_ ?_)
          · simp only [Lexeme.fault?, ht, hw]
          · simp only [start, ht, hw]
        | some builtin =>
          have hl : l.fault? = none := by simp only [Lexeme.fault?, ht, hw]
          cases ha : builtin.arity with
          | zero =>
            exact .inl ⟨.call spelling builtin [], ls,
              begins_single (.call hw ha.symm (List.forall_mem_nil _)) ht rfl⟩
          | succ more =>
            have hs : start l = pure (.ok (.inl (.call spelling builtin [] more))) := by
              simp only [start, ht, hw, ha]
            obtain ⟨ps, taken, rest, hn, hps, htk, hr⟩ | hf :=
              args_or_fails ih spelling builtin more hb
            · refine .inl ⟨.call spelling builtin ps, rest, .call hw (hn.trans ha.symm) hps,
                l :: taken, ?_, by rw [← hr]; rfl⟩
              rw [List.map_cons, ht, htk, Phrase.tokens]
            · exact .inr (fails_of_pending hl hs fun length => hf length [])

theorem Begins.parse_eq {source : String} (hs : Token.scan source = .ok ls) (h : Begins p ls rest)
    (ws : Workspace) : Program.parse source ws = (.ok ⟨(p.build ws).1⟩, (p.build ws).2) := by
  simp only [Program.parse, hs, bind, StateT.bind, h.finish_eq]
  rfl

end

end Parse

theorem Program.exists_begins_of_parse {source : String} {ws ws' : Workspace} {q : Program}
    (h : parse source ws = (.ok q, ws')) :
    ∃ ls rest p, Token.scan source = .ok ls ∧ Parse.Begins p ls rest ∧ q = ⟨(p.build ws).1⟩ ∧
      ws' = (p.build ws).2 := by
  cases hl : Token.scan source with
  | error e =>
    simp only [parse, hl] at h
    cases h
  | ok ls =>
    rcases Parse.begins_or_fails ls with ⟨p, rest, hb⟩ | hf
    · obtain ⟨hq, rfl⟩ := Prod.mk.inj ((hb.parse_eq hl ws).symm.trans h)
      obtain rfl := Except.ok.inj hq
      exact ⟨ls, rest, p, rfl, hb, rfl, rfl⟩
    · have hf := hf source.utf8ByteSize [] ws
      simp only [parse, hl, bind, StateT.bind] at h
      generalize Parse.finish source.utf8ByteSize [] ls ws = r at h hf
      obtain ⟨_, ws₁⟩ := r
      obtain rfl := hf
      cases h

end KnightLang
