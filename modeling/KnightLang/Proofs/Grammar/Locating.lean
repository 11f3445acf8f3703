import KnightLang.Proofs.Grammar.Reading
import KnightLang.Proofs.Lexing.Advancing
import KnightLang.Proofs.Lexing.Coverage
import Mathlib.Algebra.Group.Nat.Defs

namespace KnightLang

open Relation (ReflTransGen)
open Text (byteLength slice?)

structure Span.Fits (source : String) (span : Span) : Prop where
  le : span.start ≤ span.stop
  le_size : span.stop ≤ source.utf8ByteSize
  valid_start : String.Pos.Raw.IsValid source ⟨span.start⟩
  valid_stop : String.Pos.Raw.IsValid source ⟨span.stop⟩

theorem Span.fits_of_slice? {source t : String} {span : Span}
    (h : slice? source span.start span.stop = some t) : span.Fits source := by
  obtain ⟨head, tail, rfl, hstart, hstop⟩ := Text.slice?_eq_some_iff.1 h
  have hsize : (head ++ t).utf8ByteSize = span.stop := by
    rw [String.utf8ByteSize_append, hstart, hstop]
  constructor
  · omega
  · rw [String.utf8ByteSize_append, hsize]
    exact Nat.le_add_right _ _
  · rw [String.Pos.Raw.isValid_iff_exists_append]
    exact ⟨head, t ++ tail, String.append_assoc, String.Pos.Raw.ext hstart.symm⟩
  · rw [String.Pos.Raw.isValid_iff_exists_append]
    exact ⟨head ++ t, tail, rfl, String.Pos.Raw.ext hsize.symm⟩

namespace Token

theorem Fault.exists_slice? {source : String} {before rest : List Char} {e : CompileError}
    (hs : source.toList = before ++ rest) (h : Fault (byteLength before) rest e) :
    e.stage = .lexer ∧ e.span.start = byteLength before ∧
      ∃ t, slice? source e.span.start e.span.stop = some t := by
  cases h with
  | @unclosed q cs hq hn =>
    refine ⟨rfl, rfl, String.ofList (q :: cs), ?_⟩
    rw [slice?_eq_some_iff_toList]
    exact ⟨before, [], by simp [hs], rfl, by rw [String.toList_ofList]; rfl⟩
  | @stray c cs hc =>
    refine ⟨rfl, rfl, String.singleton c, ?_⟩
    rw [slice?_eq_some_iff_toList]
    exact ⟨before, cs, by simp [hs], rfl, by simp [CompileError.span]⟩

end Token

namespace Parse

structure Position where
  stack : List Pending
  rest : List Lexeme
  workspace : Workspace

namespace Position

inductive Step : Position → Position → Prop
  | pending {l : Lexeme} {rest : List Lexeme} {stack : List Pending} {pending : Pending}
      {ws ws' : Workspace} (h : start l ws = (.ok (.inl pending), ws')) :
      Step ⟨stack, l :: rest, ws⟩ ⟨pending :: stack, rest, ws'⟩
  | operand {l : Lexeme} {rest : List Lexeme} {stack left : List Pending} {n : Node}
      {ws ws' ws'' : Workspace} (h : start l ws = (.ok (.inr n), ws'))
      (hd : deliver n stack ws' = (.inr left, ws'')) :
      Step ⟨stack, l :: rest, ws⟩ ⟨left, rest, ws''⟩

theorem suffix_of_reaches {p q : Position} (h : ReflTransGen Step p q) : q.rest <:+ p.rest := by
  induction h with
  | refl => exact List.suffix_rfl
  | tail _ hstep ih =>
    apply List.IsSuffix.trans _ ih
    cases hstep with
    | pending h => exact List.suffix_cons _ _
    | operand h hd => exact List.suffix_cons _ _

end Position

theorem reaches_error {length : Nat} {stack : List Pending} {ls : List Lexeme} {ws ws' : Workspace}
    {e : CompileError} (h : finish length stack ls ws = (.error e, ws')) :
    ∃ q, ReflTransGen Position.Step ⟨stack, ls, ws⟩ q ∧ q.workspace = ws' ∧
      (q.rest = [] ∧ e = .unexpectedEnd ⟨length, length⟩ ∨
        ∃ l after, q.rest = l :: after ∧ l.fault? = some e) := by
  induction ls generalizing stack ws with
  | nil =>
    rw [finish] at h
    cases h
    exact ⟨_, .refl, rfl, .inl ⟨rfl, rfl⟩⟩
  | cons l rest ih =>
    rw [finish_cons] at h
    simp only [bind, StateT.bind] at h
    cases hl : start l ws with
    | mk started ws₁ =>
      simp only [hl] at h
      rcases started with e' | pending | n
      · cases h
        have hfault := fault_of_start (congrArg Prod.fst hl)
        rw [start_of_fault hfault] at hl
        cases hl
        exact ⟨_, .refl, rfl, .inr ⟨l, rest, rfl, hfault⟩⟩
      · obtain ⟨q, hq, hend⟩ := ih h
        exact ⟨q, .head (.pending hl) hq, hend⟩
      · simp only [settle, bind, StateT.bind] at h
        cases hd : deliver n stack ws₁ with
        | mk delivered ws₂ =>
          simp only [hd] at h
          rcases delivered with root | left
          · cases h
          · obtain ⟨q, hq, hend⟩ := ih h
            exact ⟨q, .head (.operand hl hd) hq, hend⟩

theorem fault?_eq_some {l : Lexeme} {e : CompileError} (h : l.fault? = some e) :
    (∃ digits, l.token = .integer digits ∧ 0x8000000000000000 ≤ Decimal.value digits.toList ∧
        e = .integerOutOfRange digits l.span) ∨
      ∃ word, l.token = .word word ∧ Builtin.ofWord? word = none ∧
        e = .unknownFunction word l.span := by
  unfold Lexeme.fault? at h
  split at h
  · rename_i digits ht
    split at h
    · cases h
    · rename_i hd
      exact .inl ⟨digits, ht, Nat.le_of_not_lt hd, (Option.some.inj h).symm⟩
  · rename_i word ht
    split at h
    · rename_i hw
      exact .inr ⟨word, ht, hw, (Option.some.inj h).symm⟩
    · cases h
  · cases h

end Parse

namespace Program

open Parse (Position)

inductive Located (source : String) (ws : Workspace) : CompileError → Workspace → Prop
  | unread {e : CompileError} {p : Token.Progress} (hstage : e.stage = .lexer)
      (hparse : ∀ ws, parse source ws = (.error e, ws))
      (hp : ReflTransGen Token.Progress.Step (.start source) p) (hstart : p.offset = e.span.start)
      (hfound : ∀ l ∈ p.found, l.span.stop ≤ e.span.start)
      (hstuck : ∀ q, ¬ Token.Progress.Step p q) : Located source ws e ws
  | unknown {ls after : List Lexeme} {p : Position} {word : String} {span : Span}
      (hs : Token.scan source = .ok ls) (hp : ReflTransGen Position.Step ⟨[], ls, ws⟩ p)
      (hrest : p.rest = ⟨.word word, span⟩ :: after)
      (hslice : slice? source span.start span.stop = some word)
      (hw : Builtin.ofWord? word = none) :
      Located source ws (.unknownFunction word span) p.workspace
  | outOfRange {ls after : List Lexeme} {p : Position} {digits : String} {span : Span}
      (hs : Token.scan source = .ok ls) (hp : ReflTransGen Position.Step ⟨[], ls, ws⟩ p)
      (hrest : p.rest = ⟨.integer digits, span⟩ :: after)
      (hslice : slice? source span.start span.stop = some digits)
      (hdigits : digits ≠ "" ∧ ∀ c ∈ digits.toList, c.isDigit)
      (hvalue : 2 ^ 63 - 1 < Decimal.value digits.toList) :
      Located source ws (.integerOutOfRange digits span) p.workspace
  | ended {ls : List Lexeme} {p : Position} (hs : Token.scan source = .ok ls)
      (hp : ReflTransGen Position.Step ⟨[], ls, ws⟩ p) (hrest : p.rest = []) :
      Located source ws (.unexpectedEnd ⟨source.utf8ByteSize, source.utf8ByteSize⟩) p.workspace

variable {source : String} {ws : Workspace} {e : CompileError}

theorem located_of_scan_error (h : Token.scan source = .error e) :
    e.span.Fits source ∧ Located source ws e ws := by
  obtain ⟨p, hp, hwithin, hfault⟩ := Token.Progress.reaches_error h
  obtain ⟨before, hs, hn⟩ := hwithin.split
  rw [← hn] at hfault
  obtain ⟨hstage, hstart, t, ht⟩ := hfault.exists_slice? hs
  refine ⟨Span.fits_of_slice? ht, .unread hstage (fun ws => ?_) hp (hn.symm.trans hstart.symm) ?_ ?_⟩
  · simp only [parse, h]
    rfl
  · rw [hstart, hn]
    exact hwithin.found
  · rw [hn] at hfault
    exact fun q => Token.Progress.not_step_of_fault hfault

theorem located_of_finish_error {ls : List Lexeme} {ws' : Workspace}
    (hs : Token.scan source = .ok ls)
    (h : Parse.finish source.utf8ByteSize [] ls ws = (.error e, ws')) :
    e.span.Fits source ∧ Located source ws e ws' := by
  have hspelled := (Token.accounts_of_cuts (Token.scan_eq_ok_iff.1 hs)).spelled
  obtain ⟨p, hp, rfl, ⟨hrest, rfl⟩ | ⟨l, after, hrest, hfault⟩⟩ := Parse.reaches_error h
  · have hend : slice? source source.utf8ByteSize source.utf8ByteSize = some "" :=
      Text.slice?_eq_some_iff.2 ⟨source, "", by simp, rfl, by simp⟩
    exact ⟨Span.fits_of_slice? hend, .ended hs hp hrest⟩
  · -- the token at fault is one that was read, so the source has its spelling at its span
    have hl : l ∈ ls := by
      apply (Position.suffix_of_reaches hp).subset
      rw [hrest]
      exact List.mem_cons_self
    obtain ⟨s, hslice, hspells⟩ := hspelled l hl
    obtain ⟨token, span⟩ := l
    rcases Parse.fault?_eq_some hfault with ⟨digits, rfl, hv, rfl⟩ | ⟨word, rfl, hw, rfl⟩
    · refine ⟨Span.fits_of_slice? hslice, ?_⟩
      generalize hcs : s.toList = cs at hspells
      cases hspells with
      | @integer c cs hc hall =>
        rw [← hcs, String.ofList_toList] at hrest hv ⊢
        refine .outOfRange hs hp hrest hslice ⟨?_, ?_⟩ (by omega)
        · rintro rfl
          cases hcs
        · rw [hcs]
          exact List.forall_mem_cons.2 ⟨hc, hall⟩
    · refine ⟨Span.fits_of_slice? hslice, ?_⟩
      generalize hcs : s.toList = cs at hspells
      cases hspells with
      | word hc hT hF hN hall =>
        rw [← hcs, String.ofList_toList] at hrest hw ⊢
        exact .unknown hs hp hrest hslice hw

/-- The span of an error lies in the source. It is the unknown word or the integer out of range, or the
end of a source of which each token was taken, or it begins where reading stopped before any parsing. -/
theorem parse_error_located (h : (parse source ws).1 = .error e) :
    e.span.Fits source ∧ Located source ws e (parse source ws).2 := by
  cases hs : Token.scan source with
  | error e' =>
    have hp : parse source ws = (.error e', ws) := by
      simp only [parse, hs]
      rfl
    rw [hp] at h ⊢
    obtain rfl := Except.error.inj h
    exact located_of_scan_error hs
  | ok ls =>
    cases hf : Parse.finish source.utf8ByteSize [] ls ws with
    | mk result ws' =>
      have hp : parse source ws = (result.map Program.mk, ws') := by
        simp only [parse, hs, bind, StateT.bind, hf]
        cases result <;> rfl
      rw [hp] at h ⊢
      cases result with
      | ok root => cases h
      | error e' =>
        obtain rfl := Except.error.inj h
        exact located_of_finish_error hs hf

theorem parse_error_located_accent :
    let source := "# é\nOUTPUT ZAP 1"
    (parse source .fresh).1 = .error (.unknownFunction "ZAP" ⟨12, 15⟩) ∧
      slice? source 12 15 = some "ZAP" ∧ Builtin.ofWord? "ZAP" = none := by
  intro source
  have hs : Token.scan source =
      .ok [⟨.word "OUTPUT", 5, 11⟩, ⟨.word "ZAP", 12, 15⟩, ⟨.integer "1", 16, 17⟩] := by
    decide +kernel
  have h : (parse source .fresh).1 = .error (.unknownFunction "ZAP" ⟨12, 15⟩) := by
    simp only [parse, hs]
    rfl
  have hlocated := (parse_error_located h).2
  generalize (parse source .fresh).2 = ws' at hlocated
  cases hlocated with
  | unread hstage => cases hstage
  | unknown hs hp hrest hslice hw => exact ⟨h, hslice, hw⟩

end Program

end KnightLang
