import KnightLang.Proofs.Lexing.Cutting
import Mathlib.Logic.Relation

namespace KnightLang.Token

open Relation (ReflTransGen)
open Text (byteLength)

structure Progress where
  offset : Nat
  found : Array Lexeme
  rest : List Char

namespace Progress

def start (source : String) : Progress := ⟨0, #[], source.toList⟩

inductive Step : Progress → Progress → Prop
  | separator {n : Nat} {found : Array Lexeme} {c : Char} {cs : List Char} (hc : isSeparator c) :
      Step ⟨n, found, c :: cs⟩ ⟨n + 1, found, cs⟩
  | comment {n : Nat} {found : Array Lexeme} {body rest : List Char} (hb : '\n' ∉ body)
      (hr : ∀ c ∈ rest.head?, c = '\n') :
      Step ⟨n, found, '#' :: (body ++ rest)⟩ ⟨n + 1 + byteLength body, found, rest⟩
  | token {n : Nat} {found : Array Lexeme} {s rest : List Char} {t : Token} (hs : Spells s t)
      (hl : Longest s rest) :
      Step ⟨n, found, s ++ rest⟩ ⟨n + byteLength s, found.push ⟨t, n, n + byteLength s⟩, rest⟩

structure Within (source : String) (p : Progress) : Prop where
  split : ∃ before, source.toList = before ++ p.rest ∧ byteLength before = p.offset
  found : ∀ l ∈ p.found, l.span.stop ≤ p.offset

variable {p q : Progress} {source : String} {n : Nat} {cs : List Char} {e : CompileError}

theorem within_start (source : String) : Within source (start source) where
  split := ⟨[], rfl, rfl⟩
  found := by simp [start]

theorem Step.within (h : Step p q) (hp : Within source p) : Within source q := by
  obtain ⟨⟨before, hs, hn⟩, hf⟩ := hp
  cases h with
  | @separator n found c cs hc =>
    refine ⟨⟨before ++ [c], by simp [hs], ?_⟩, fun l hl => Nat.le_succ_of_le (hf l hl)⟩
    simp [hn, utf8Size_of_isSeparator hc]
  | @comment n found body rest hb hr =>
    refine ⟨⟨before ++ '#' :: body, by simp [hs], ?_⟩, fun l hl => (hf l hl).trans ?_⟩
    · rw [Text.byteLength_append, hn, byteLength_comment, Nat.add_assoc]
    · exact (Nat.le_add_right _ _).trans (Nat.le_add_right _ _)
  | @token n found s rest t ht hl =>
    refine ⟨⟨before ++ s, by simp [hs], by rw [Text.byteLength_append, hn]⟩, ?_⟩
    intro l hm
    rcases Array.mem_push.1 hm with hm | rfl
    · exact (hf l hm).trans (Nat.le_add_right _ _)
    · exact le_rfl

theorem Step.length_lt (h : Step p q) : q.rest.length < p.rest.length := by
  cases h with
  | separator hc => exact Nat.lt_succ_self _
  | comment hb hr =>
    simp only [List.length_cons, List.length_append]
    omega
  | token hs hl =>
    obtain ⟨c, cs, rfl, -⟩ := hs.exists_cons
    simp only [List.length_append, List.length_cons]
    omega

theorem Step.scanFrom_eq (h : Step p q) :
    scanFrom p.offset p.found p.rest = scanFrom q.offset q.found q.rest := by
  cases h with
  | separator hc => rw [scanFrom, if_pos hc]
  | comment hb hr => exact scanFrom_comment hb hr _ _
  | token hs hl => exact scanFrom_token hs hl _ _

theorem ended_or_fault_or_step (p : Progress) :
    p.rest = [] ∨ (∃ e, Fault p.offset p.rest e) ∨ ∃ q, Step p q := by
  obtain ⟨n, found, cs⟩ := p
  cases cs with
  | nil => exact .inl rfl
  | cons c cs =>
    right
    by_cases hc : isSeparator c
    · exact .inr ⟨_, .separator hc⟩
    by_cases hh : c = '#'
    · subst hh
      have hstep : ∃ q, Step
          ⟨n, found, '#' :: (cs.takeWhile (· ≠ '\n') ++ cs.dropWhile (· ≠ '\n'))⟩ q :=
        ⟨_, .comment (notMem_takeWhile '\n' cs) (head?_dropWhile '\n' cs)⟩
      rw [List.takeWhile_append_dropWhile] at hstep
      exact .inr hstep
    by_cases hq : isQuote c
    · by_cases hm : c ∈ cs
      · obtain ⟨content, rest, rfl, hn⟩ := List.eq_append_cons_of_mem hm
        have hstep : ∃ q, Step ⟨n, found, c :: (content ++ [c]) ++ rest⟩ q :=
          ⟨_, .token (.text hq hn) (longest_text hq)⟩
        rw [List.cons_append, List.append_assoc] at hstep
        exact .inr hstep
      · exact .inl ⟨_, .unclosed hq hm⟩
    cases ht : ofChars? c cs with
    | none => exact .inl ⟨_, .stray (stray_of_ofChars? (by simpa using hc) hh (by simpa using hq) ht)⟩
    | some read =>
      obtain ⟨t, taken⟩ := read
      obtain ⟨hr, hall, rest, rfl, hrest⟩ := run_of_ofChars? ht
      exact .inr ⟨_, .token (spells_of_run hr hall) ((longest_run_iff hr hall).2 hrest)⟩

theorem not_step_of_fault (h : Fault p.offset p.rest e) : ¬ Step p q := by
  obtain ⟨n, found, cs⟩ := p
  intro hstep
  generalize hrest : cs = rest at h
  cases hstep with
  | separator hc =>
    subst hrest
    cases h with
    | unclosed hq hn =>
      rw [isQuote_iff] at hq
      fin_cases hq <;> cases hc
    | stray hs => simp [hs.1] at hc
  | comment hb hr =>
    subst hrest
    cases h with
    | unclosed hq hn => cases hq
    | stray hs => exact hs.2.1 rfl
  | token hs hl =>
    obtain ⟨c, cs, rfl, -⟩ := hs.exists_cons
    subst hrest
    cases h with
    | unclosed hq hn =>
      rcases hs.quoted_or_run with ⟨-, content, rfl, -⟩ | ⟨hr, -⟩
      · simp at hn
      · simp [(isPlain_of_ofRun? hr).1.2.2] at hq
    | stray hstray => exact hstray.2.2 _ _ hs

end Progress

theorem Fault.scanFrom_eq {n : Nat} {cs : List Char} {e : CompileError} (h : Fault n cs e)
    (found : Array Lexeme) : scanFrom n found cs = .error e := by
  cases h with
  | @unclosed q cs hq hn =>
    have hs : ¬ isSeparator q := by
      rw [isQuote_iff] at hq
      fin_cases hq <;> decide
    have hh : q ≠ '#' := by
      rintro rfl
      cases hq
    have htake : cs.takeWhile (· ≠ q) = cs := by
      rw [List.takeWhile_eq_self_iff]
      intro c hc
      simpa using ne_of_mem_of_not_mem hc hn
    rw [scanFrom, if_neg hs, if_neg hh, if_pos hq, htake]
    dsimp only
    split
    · rw [Text.byteLength_cons, utf8Size_of_isQuote hq, Nat.add_assoc]
    · rename_i h
      simp at h
  | @stray c cs hc =>
    have hq : ¬ isQuote c := by
      intro hq
      have hs : Spells (c :: ([] ++ [c])) (.text (String.ofList [])) := .text hq List.not_mem_nil
      exact hc.2.2 _ _ hs
    have hchars : ofChars? c cs = none := by
      by_contra hsome
      obtain ⟨⟨t, taken⟩, ht⟩ := Option.ne_none_iff_exists'.1 hsome
      obtain ⟨hr, hall, -⟩ := run_of_ofChars? ht
      exact hc.2.2 _ _ (spells_of_run hr hall)
    rw [scanFrom, if_neg (by simp [hc.1]), if_neg hc.2.1, if_neg hq, hchars]

namespace Progress

variable {p q : Progress} {source : String} {e : CompileError}

theorem within_of_reaches (h : ReflTransGen Step p q) (hp : Within source p) : Within source q := by
  induction h with
  | refl => exact hp
  | tail _ hstep ih => exact hstep.within ih

theorem scanFrom_of_reaches (h : ReflTransGen Step p q) :
    scanFrom p.offset p.found p.rest = scanFrom q.offset q.found q.rest := by
  induction h with
  | refl => rfl
  | tail _ hstep ih => exact ih.trans hstep.scanFrom_eq

theorem reaches_end_or_fault (p : Progress) :
    ∃ q, ReflTransGen Step p q ∧ (q.rest = [] ∨ ∃ e, Fault q.offset q.rest e) := by
  induction hl : p.rest.length using Nat.strong_induction_on generalizing p with
  | _ length ih =>
    subst hl
    rcases ended_or_fault_or_step p with hend | hf | ⟨q, hstep⟩
    · exact ⟨p, .refl, .inl hend⟩
    · exact ⟨p, .refl, .inr hf⟩
    · obtain ⟨r, hr, hdone⟩ := ih _ hstep.length_lt q rfl
      exact ⟨r, .head hstep hr, hdone⟩

theorem reaches_error (h : scan source = .error e) :
    ∃ q, ReflTransGen Step (start source) q ∧ Within source q ∧ Fault q.offset q.rest e := by
  obtain ⟨q, hq, hdone⟩ := reaches_end_or_fault (start source)
  have hscan := scanFrom_of_reaches hq
  rw [show scanFrom (start source).offset (start source).found (start source).rest = scan source from
    rfl, h] at hscan
  refine ⟨q, hq, within_of_reaches hq (within_start source), ?_⟩
  rcases hdone with hend | ⟨e', hf⟩
  · rw [hend, scanFrom] at hscan
    cases hscan
  · obtain rfl := Except.error.inj (hscan.trans (hf.scanFrom_eq q.found))
    exact hf

end Progress

end KnightLang.Token
