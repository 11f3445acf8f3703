import KnightLang.Proofs.Lexing.Cutting

namespace KnightLang.Token

open Text (byteLength slice?)

theorem slice?_eq_some_iff_toList {source t : String} {i j : Nat} :
    slice? source i j = some t ↔ ∃ before after : List Char,
      source.toList = before ++ t.toList ++ after ∧ byteLength before = i ∧
        i + byteLength t.toList = j := by
  rw [Text.slice?_eq_some_iff]
  constructor
  · rintro ⟨head, tail, rfl, rfl, rfl⟩
    refine ⟨head.toList, tail.toList, by simp, ?_, ?_⟩
    · exact Text.byteLength_toList head
    · rw [Text.byteLength_toList]
  · rintro ⟨before, after, hs, rfl, rfl⟩
    refine ⟨String.ofList before, String.ofList after, ?_, ?_, ?_⟩
    · rw [← String.toList_inj]
      simp [hs]
    · exact Text.utf8ByteSize_ofList before
    · rw [Text.byteLength_toList]

def Skips (source : String) (start stop : Nat) : Prop :=
  (∃ c, isSeparator c ∧ slice? source start stop = some (String.singleton c)) ∨
    ∃ body, '\n' ∉ body ∧ slice? source start stop = some (String.ofList ('#' :: body)) ∧
      (stop = source.utf8ByteSize ∨ slice? source stop (stop + 1) = some "\n")

/-- The lexemes account for all of the source. -/
structure Accounts (source : String) (ls : List Lexeme) : Prop where
  nonempty : ∀ l ∈ ls, l.span.start < l.span.stop
  ordered : ls.Pairwise fun l m => l.span.stop ≤ m.span.start
  spelled : ∀ l ∈ ls, ∃ s, slice? source l.span.start l.span.stop = some s ∧ Spells s.toList l.token
  longest : ∀ l ∈ ls, ∀ stop s t, l.span.stop < stop → slice? source l.span.start stop = some s →
    ¬ Spells s.toList t
  skipped : ∀ i < source.utf8ByteSize, (∀ l ∈ ls, i < l.span.start ∨ l.span.stop ≤ i) →
    ∃ start stop, start ≤ i ∧ i < stop ∧ Skips source start stop ∧
      ∀ l ∈ ls, l.span.stop ≤ start ∨ stop ≤ l.span.start

inductive Misfit (source : String) : CompileError → Prop
  | unclosed {q : Char} {body : List Char} {start : Nat} (hq : isQuote q) (h : q ∉ body)
      (hs : slice? source start source.utf8ByteSize = some (String.ofList (q :: body))) :
      Misfit source (.unterminatedString ⟨start, source.utf8ByteSize⟩)
  | stray {c : Char} {start : Nat} (h : Stray c)
      (hs : slice? source start (start + c.utf8Size) = some (String.singleton c)) :
      Misfit source (.unexpectedCharacter c ⟨start, start + c.utf8Size⟩)

section

variable {n : Nat} {cs : List Char} {ls : List Lexeme} {l : Lexeme}

theorem byteLength_pos {s : List Char} {t : Token} (h : Spells s t) : 0 < byteLength s := by
  obtain ⟨c, cs, rfl, -⟩ := h.exists_cons
  rw [Text.byteLength_cons]
  have := c.utf8Size_pos
  omega

namespace Cuts

theorem le_start (h : Cuts n cs ls) : ∀ l ∈ ls, n ≤ l.span.start := by
  induction h with
  | nil n => exact nofun
  | separator hc h ih =>
    intro l hl
    have := ih l hl
    omega
  | comment hb hr h ih =>
    intro l hl
    have := ih l hl
    omega
  | token hs hl h ih =>
    intro l hm
    rcases List.mem_cons.1 hm with rfl | hm
    · exact Nat.le_refl _
    · have := ih l hm
      omega

theorem pairwise (h : Cuts n cs ls) : ls.Pairwise fun l m => l.span.stop ≤ m.span.start := by
  induction h with
  | nil n => exact .nil
  | separator hc h ih => exact ih
  | comment hb hr h ih => exact ih
  | token hs hl h ih => exact .cons h.le_start ih

theorem exists_spelling (h : Cuts n cs ls) (hl : l ∈ ls) : ∃ before s after,
    cs = before ++ s ++ after ∧ Spells s l.token ∧ Longest s after ∧
      l.span = ⟨n + byteLength before, n + byteLength before + byteLength s⟩ := by
  induction h with
  | nil n => cases hl
  | @separator n c cs ls hc h ih =>
    obtain ⟨before, s, after, rfl, hs, hlong, hspan⟩ := ih hl
    refine ⟨c :: before, s, after, rfl, hs, hlong, ?_⟩
    rw [hspan, Text.byteLength_cons, utf8Size_of_isSeparator hc, ← Nat.add_assoc]
  | @comment n body rest ls hb hr h ih =>
    obtain ⟨before, s, after, rfl, hs, hlong, hspan⟩ := ih hl
    refine ⟨'#' :: (body ++ before), s, after, by simp, hs, hlong, ?_⟩
    rw [hspan, byteLength_comment, Text.byteLength_append, ← Nat.add_assoc, ← Nat.add_assoc]
  | @token n s rest t ls hs hlong h ih =>
    rcases List.mem_cons.1 hl with rfl | hl
    · exact ⟨[], s, rest, rfl, hs, hlong, rfl⟩
    · obtain ⟨before, s', after, rfl, hs', hlong', hspan⟩ := ih hl
      refine ⟨s ++ before, s', after, by simp, hs', hlong', ?_⟩
      rw [hspan, Text.byteLength_append, ← Nat.add_assoc]

end Cuts

def SkippedAt (n i : Nat) (cs : List Char) (ls : List Lexeme) : Prop :=
  ∃ before s after, cs = before ++ s ++ after ∧ n + byteLength before ≤ i ∧
    i < n + byteLength before + byteLength s ∧
    ((∃ c, isSeparator c ∧ s = [c]) ∨
      ∃ body, '\n' ∉ body ∧ s = '#' :: body ∧ ∀ c ∈ after.head?, c = '\n') ∧
    ∀ l ∈ ls, l.span.stop ≤ n + byteLength before ∨
      n + byteLength before + byteLength s ≤ l.span.start

theorem SkippedAt.append {i : Nat} {before : List Char}
    (h : SkippedAt (n + byteLength before) i cs ls) : SkippedAt n i (before ++ cs) ls := by
  obtain ⟨mid, s, after, rfl, hle, hlt, hs, hls⟩ := h
  have hsize : n + byteLength (before ++ mid) = n + byteLength before + byteLength mid := by
    rw [Text.byteLength_append, Nat.add_assoc]
  refine ⟨before ++ mid, s, after, by simp, ?_, ?_, hs, ?_⟩
  · omega
  · omega
  · intro l hl
    rw [hsize]
    exact hls l hl

theorem Cuts.skippedAt (h : Cuts n cs ls) {i : Nat} (hn : n ≤ i) (hi : i < n + byteLength cs)
    (hout : ∀ l ∈ ls, i < l.span.start ∨ l.span.stop ≤ i) : SkippedAt n i cs ls := by
  -- byte `i` is in the part at hand, or in what follows it
  induction h with
  | nil n =>
    rw [Text.byteLength_nil] at hi
    omega
  | @separator n c cs ls hc h ih =>
    have hsize : byteLength [c] = 1 := by
      rw [Text.byteLength_cons, utf8Size_of_isSeparator hc, Text.byteLength_nil]
    rw [Text.byteLength_cons, utf8Size_of_isSeparator hc] at hi
    by_cases hlt : i < n + 1
    · refine ⟨[], [c], cs, rfl, hn, ?_, .inl ⟨c, hc, rfl⟩, ?_⟩
      · rwa [hsize]
      · intro l hl
        exact .inr (by rw [hsize]; exact h.le_start l hl)
    · have hskip := ih (by omega) (by omega) hout
      rw [← hsize] at hskip
      exact hskip.append
  | @comment n body rest ls hb hr h ih =>
    have hsize := byteLength_comment body
    rw [byteLength_comment, Text.byteLength_append] at hi
    by_cases hlt : i < n + 1 + byteLength body
    · refine ⟨[], '#' :: body, rest, rfl, hn, ?_, .inr ⟨body, hb, rfl, hr⟩, ?_⟩
      · rw [Text.byteLength_nil]
        omega
      · intro l hl
        have := h.le_start l hl
        exact .inr (by rw [Text.byteLength_nil]; omega)
    · have hskip := ih (by omega) (by omega) hout
      rw [Nat.add_assoc, ← hsize] at hskip
      exact hskip.append
  | @token n s rest t ls hs hl h ih =>
    rw [List.forall_mem_cons] at hout
    rw [Text.byteLength_append] at hi
    have hge : n + byteLength s ≤ i := by
      have := hout.1
      dsimp only at this
      omega
    obtain ⟨before, s', after, rfl, hle, hlt, hskip, hls⟩ := ih hge (by omega) hout.2
    refine ⟨s ++ before, s', after, by simp, ?_, ?_, hskip, ?_⟩
    · rw [Text.byteLength_append]
      omega
    · rw [Text.byteLength_append]
      omega
    · rw [List.forall_mem_cons, Text.byteLength_append, ← Nat.add_assoc]
      exact ⟨.inl (Nat.le_add_right _ _), hls⟩

end

theorem slice?_next {source : String} {before after : List Char} {c : Char}
    (hs : source.toList = before ++ c :: after) (hc : c.utf8Size = 1) :
    slice? source (byteLength before) (byteLength before + 1) = some (String.singleton c) := by
  rw [slice?_eq_some_iff_toList]
  refine ⟨before, after, ?_, rfl, ?_⟩
  · simp [hs]
  · simp [hc]

theorem skips_of_skippedAt {source : String} {ls : List Lexeme} {i : Nat}
    (h : SkippedAt 0 i source.toList ls) : ∃ start stop, start ≤ i ∧ i < stop ∧
      Skips source start stop ∧ ∀ l ∈ ls, l.span.stop ≤ start ∨ stop ≤ l.span.start := by
  obtain ⟨before, s, after, hcs, hle, hlt, hskip, hls⟩ := h
  rw [Nat.zero_add] at hle hlt hls
  have hslice : slice? source (byteLength before) (byteLength before + byteLength s) =
      some (String.ofList s) := by
    rw [slice?_eq_some_iff_toList]
    exact ⟨before, after, by simp [hcs], rfl, by simp⟩
  refine ⟨_, _, hle, hlt, ?_, hls⟩
  rcases hskip with ⟨c, hc, rfl⟩ | ⟨body, hb, rfl, hafter⟩
  · exact .inl ⟨c, hc, hslice⟩
  · refine .inr ⟨body, hb, hslice, ?_⟩
    cases after with
    | nil =>
      left
      rw [← Text.byteLength_toList, hcs, List.append_nil, Text.byteLength_append]
    | cons c after =>
      obtain rfl : c = '\n' := hafter c rfl
      right
      rw [← Text.byteLength_append]
      exact slice?_next hcs rfl

theorem append_of_byteLength_lt {s t after after' : List Char} (h : s ++ after = t ++ after')
    (hlt : byteLength s < byteLength t) :
    ∃ more, more ≠ [] ∧ t = s ++ more ∧ more <+: after := by
  rcases List.append_eq_append_iff.1 h with ⟨more, rfl, rfl⟩ | ⟨more, rfl, -⟩
  · refine ⟨more, ?_, rfl, List.prefix_append _ _⟩
    rintro rfl
    simp at hlt
  · rw [Text.byteLength_append] at hlt
    omega

theorem append_inj_of_byteLength {s t after after' : List Char} (h : s ++ after = t ++ after')
    (heq : byteLength s = byteLength t) : s = t ∧ after = after' := by
  have hs : s = t := by
    rcases List.append_eq_append_iff.1 h with ⟨more, rfl, -⟩ | ⟨more, rfl, -⟩
    all_goals
      rw [Text.byteLength_append] at heq
      cases more with
      | nil => simp
      | cons c cs =>
        rw [Text.byteLength_cons] at heq
        have := c.utf8Size_pos
        omega
  subst hs
  exact ⟨rfl, List.append_cancel_left h⟩

theorem accounts_of_cuts {source : String} {ls : List Lexeme} (h : Cuts 0 source.toList ls) :
    Accounts source ls where
  nonempty := by
    intro l hl
    obtain ⟨before, s, after, -, hs, -, hspan⟩ := h.exists_spelling hl
    have := byteLength_pos hs
    rw [hspan]
    dsimp only
    omega
  ordered := h.pairwise
  spelled := by
    intro l hl
    obtain ⟨before, s, after, hcs, hs, -, hspan⟩ := h.exists_spelling hl
    refine ⟨String.ofList s, ?_, by simpa using hs⟩
    rw [hspan, slice?_eq_some_iff_toList]
    exact ⟨before, after, by simp [hcs], by simp, by simp⟩
  longest := by
    intro l hl stop u t hlt hslice hu
    obtain ⟨before, s, after, hcs, -, hlong, hspan⟩ := h.exists_spelling hl
    rw [slice?_eq_some_iff_toList] at hslice
    obtain ⟨before', after', hcs', hstart, hstop⟩ := hslice
    rw [hspan] at hlt hstart hstop
    dsimp only at hlt hstart hstop
    rw [hcs, List.append_assoc, List.append_assoc] at hcs'
    obtain ⟨rfl, hrest⟩ := append_inj_of_byteLength hcs' (by omega)
    obtain ⟨more, hm, hmore, hprefix⟩ := append_of_byteLength_lt hrest (by omega)
    rw [hmore] at hu
    exact hlong more t hm hprefix hu
  skipped := by
    intro i hi hout
    apply skips_of_skippedAt
    apply h.skippedAt (Nat.zero_le i) _ hout
    rwa [Nat.zero_add, Text.byteLength_toList]

/-- Whatever is read, the lexemes account for all of the source; and where nothing is, the source up to
the error is read, and the error names what stands there. -/
theorem scan_accounts_for_source (source : String) :
    match scan source with
    | .ok ls => Accounts source ls
    | .error e => Misfit source e ∧
        ∃ before ls, slice? source 0 e.span.start = some before ∧ scan before = .ok ls := by
  have hs := scans_scan source
  generalize scan source = r at hs
  cases hs with
  | ok h => exact accounts_of_cuts h
  | @error before rest ls e hcs h he =>
    have hbefore : slice? source 0 (byteLength before) = some (String.ofList before) := by
      rw [slice?_eq_some_iff_toList]
      exact ⟨[], rest, by simp [hcs], rfl, by simp⟩
    have hread : scan (String.ofList before) = .ok ls := by
      rw [scan_eq_ok_iff, String.toList_ofList]
      exact h
    rw [Nat.zero_add] at he
    cases he with
    | @unclosed q body hq hn =>
      have hsize : byteLength before + byteLength (q :: body) = source.utf8ByteSize := by
        rw [← Text.byteLength_toList, hcs, Text.byteLength_append]
      refine ⟨?_, _, ls, hbefore, hread⟩
      rw [hsize]
      apply Misfit.unclosed hq hn
      rw [slice?_eq_some_iff_toList]
      exact ⟨before, [], by simp [hcs], rfl, by simpa using hsize⟩
    | @stray c after hc =>
      refine ⟨.stray hc ?_, _, ls, hbefore, hread⟩
      rw [slice?_eq_some_iff_toList]
      exact ⟨before, after, by simp [hcs], rfl, by simp⟩

end KnightLang.Token
