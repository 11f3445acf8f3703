import KnightLang.Proofs.Grammar.Reading
import KnightLang.Proofs.Lexing.Coverage
import Mathlib.Data.List.Forall2

namespace KnightLang

namespace Workspace

def outcome {α : Type} (x : StateM Workspace (Except CompileError α)) (ws : Workspace) :
    Option α × Workspace :=
  ((x ws).1.toOption, (x ws).2)

section

variable {α β : Type} {x y : StateM Workspace (Except CompileError α)}
  {f g : Except CompileError α → StateM Workspace (Except CompileError β)}

theorem outcome_bind (hx : outcome x = outcome y)
    (hf : ∀ a ws, outcome (f (.ok a)) ws = outcome (g (.ok a)) ws)
    (hfe : ∀ e ws, outcome (f (.error e)) ws = (none, ws))
    (hge : ∀ e ws, outcome (g (.error e)) ws = (none, ws)) :
    outcome (x >>= f) = outcome (y >>= g) := by
  funext ws
  have hbind {x : StateM Workspace (Except CompileError α)}
      {f : Except CompileError α → StateM Workspace (Except CompileError β)} :
      outcome (x >>= f) ws = outcome (f (x ws).1) (x ws).2 := rfl
  have h := congrFun hx ws
  simp only [outcome, Prod.mk.injEq] at h
  obtain ⟨hr, hws⟩ := h
  rw [hbind, hbind, hws]
  cases hxr : (x ws).1 with
  | ok a =>
    cases hyr : (y ws).1 with
    | ok b =>
      rw [hxr, hyr] at hr
      obtain rfl := Option.some.inj hr
      exact hf a _
    | error e => simp [hxr, hyr, Except.toOption] at hr
  | error e =>
    cases hyr : (y ws).1 with
    | ok b => simp [hxr, hyr, Except.toOption] at hr
    | error e' => rw [hfe, hge]

end

end Workspace

namespace Parse

open Workspace (outcome)

theorem outcome_start {l l' : Lexeme} (h : l.token = l'.token) :
    outcome (start l) = outcome (start l') := by
  funext ws
  unfold start
  rw [h]
  cases l'.token with
  | integer digits =>
    dsimp only
    split <;> rfl
  | word spelling =>
    dsimp only
    split
    · rfl
    · split <;> rfl
  | _ => rfl

theorem outcome_finish {ls ls' : List Lexeme} (h : ls.map Lexeme.token = ls'.map Lexeme.token)
    (length length' : Nat) (stack : List Pending) :
    outcome (finish length stack ls) = outcome (finish length' stack ls') := by
  induction ls generalizing ls' stack with
  | nil =>
    obtain rfl : ls' = [] := by simpa using h.symm
    cases stack <;> rfl
  | cons l ls ih =>
    cases ls' with
    | nil => simp at h
    | cons l' ls' =>
      simp only [List.map_cons, List.cons.injEq] at h
      rw [finish_cons, finish_cons]
      apply Workspace.outcome_bind (outcome_start h.1)
      · intro started ws
        cases started with
        | inl pending => exact congrFun (ih h.2 (pending :: stack)) ws
        | inr n =>
          have hsettle (length : Nat) (rest : List Lexeme) : outcome (settle length n stack rest) ws =
              (deliver n stack ws).1.elim (fun root => (some root, (deliver n stack ws).2))
                fun left => outcome (finish length left rest) (deliver n stack ws).2 := by
            unfold settle
            simp only [outcome, bind, StateT.bind]
            generalize deliver n stack ws = delivered
            obtain ⟨root | left, ws'⟩ := delivered <;> rfl
          dsimp only
          rw [hsettle, hsettle]
          cases (deliver n stack ws).1 with
          | inl root => rfl
          | inr left => exact congrFun (ih h.2 left) _
      · exact fun _ _ => rfl
      · exact fun _ _ => rfl

end Parse

theorem Program.outcome_parse {source source' : String} {ls ls' : List Lexeme}
    (h : Token.scan source = .ok ls) (h' : Token.scan source' = .ok ls')
    (ht : ls.map Lexeme.token = ls'.map Lexeme.token) :
    Workspace.outcome (parse source) = Workspace.outcome (parse source') := by
  unfold parse
  simp only [h, h']
  apply Workspace.outcome_bind (Parse.outcome_finish ht _ _ [])
  · exact fun _ _ => rfl
  · exact fun _ _ => rfl
  · exact fun _ _ => rfl

namespace Token

open Text (byteLength slice?)

inductive Gap : List Char → Prop
  | nil : Gap []
  | separator {c : Char} {cs : List Char} (hc : isSeparator c) (h : Gap cs) : Gap (c :: cs)
  | comment {body cs : List Char} (hb : '\n' ∉ body) (h : Gap cs) : Gap ('#' :: (body ++ '\n' :: cs))

structure Piece where
  token : Token
  spelling : List Char
  gap : List Char
  spells : Spells spelling token
  isGap : Gap gap

def written (ps : List Piece) : List Char := ps.flatMap fun p => p.spelling ++ p.gap

def placed : Nat → List Piece → List Lexeme
  | _, [] => []
  | n, p :: ps => ⟨p.token, n, n + byteLength p.spelling⟩ ::
      placed (n + byteLength p.spelling + byteLength p.gap) ps

/-- Of two tokens that follow each other, there is layout between them. -/
def Apart (ps : List Piece) : Prop := ∀ p ∈ ps.dropLast, p.gap ≠ []

def respaced : List Piece → List Piece
  | [] => []
  | [p] => [{ p with gap := [], isGap := .nil }]
  | p :: q :: ps => { p with gap := [' '], isGap := .separator rfl .nil } :: respaced (q :: ps)

section

variable {n : Nat} {c : Char} {s cs rest gap : List Char} {t : Token} {ls : List Lexeme} {p : Piece}
  {ps : List Piece}

@[simp] theorem written_cons : written (p :: ps) = p.spelling ++ (p.gap ++ written ps) := by
  simp [written]

@[simp] theorem map_token_placed (n : Nat) (ps : List Piece) :
    (placed n ps).map Lexeme.token = ps.map Piece.token := by
  induction ps generalizing n with
  | nil => rfl
  | cons p ps ih => simp [placed, ih]

@[simp] theorem map_token_respaced (ps : List Piece) :
    (respaced ps).map Piece.token = ps.map Piece.token := by
  fun_induction respaced ps with
  | case1 => rfl
  | case2 p => rfl
  | case3 p q ps ih => simp [ih]

theorem toList_intercalate_respaced (ps : List Piece) :
    written (respaced ps) = (" ".intercalate (ps.map fun p => String.ofList p.spelling)).toList := by
  rw [String.toList_intercalate]
  fun_induction respaced ps with
  | case1 => rfl
  | case2 p => simp [written]
  | case3 p q ps ih =>
    rw [written_cons, ih]
    simp [List.intercalate_cons_cons]

theorem apart_cons (h : Apart (p :: ps)) : Apart ps ∧ (p.gap ≠ [] ∨ ps = []) := by
  cases ps with
  | nil => exact ⟨nofun, .inr rfl⟩
  | cons q ps =>
    rw [Apart, List.dropLast_cons_cons, List.forall_mem_cons] at h
    exact ⟨h.2, .inl h.1⟩

theorem apart_respaced (ps : List Piece) : Apart (respaced ps) := by
  fun_induction respaced ps with
  | case1 => exact nofun
  | case2 p => exact nofun
  | case3 p q ps ih =>
    obtain ⟨r, rs, hr⟩ : ∃ r rs, respaced (q :: ps) = r :: rs := by
      cases ps <;> exact ⟨_, _, rfl⟩
    rw [hr] at ih ⊢
    rw [Apart, List.dropLast_cons_cons, List.forall_mem_cons]
    exact ⟨by simp, ih⟩

theorem Gap.head (h : Gap gap) : ∀ c ∈ gap.head?, isSeparator c ∨ c = '#' := by
  cases h with
  | nil => exact nofun
  | separator hc h =>
    rintro c ⟨⟩
    exact .inl hc
  | comment hb h =>
    rintro c ⟨⟩
    exact .inr rfl

theorem Gap.cuts (h : Gap gap) (hc : Cuts (n + byteLength gap) cs ls) : Cuts n (gap ++ cs) ls := by
  induction h generalizing n with
  | nil => exact hc
  | separator hs h ih =>
    apply Cuts.separator hs
    apply ih
    rwa [Text.byteLength_cons, utf8Size_of_isSeparator hs, ← Nat.add_assoc] at hc
  | @comment body gap hb h ih =>
    have hline : byteLength ('\n' :: gap) = 1 + byteLength gap := Text.byteLength_cons '\n' gap
    have hsize : n + byteLength ('#' :: (body ++ '\n' :: gap)) =
        n + 1 + byteLength body + 1 + byteLength gap := by
      rw [byteLength_comment, Text.byteLength_append, hline]
      omega
    rw [hsize] at hc
    have hrest : ∀ c ∈ ('\n' :: (gap ++ cs)).head?, c = '\n' := by simp
    have hcut := Cuts.comment hb hrest (.separator rfl (ih hc))
    simpa using hcut

theorem longest_before_gap (hs : Spells s t) (hg : Gap gap) (h : gap ≠ [] ∨ rest = []) :
    Longest s (gap ++ rest) := by
  obtain ⟨c, cs, rfl, -⟩ := hs.exists_cons
  rcases hs.quoted_or_run with ⟨hq, content, rfl, -⟩ | ⟨ht, hall⟩
  · exact longest_text hq
  · rw [longest_run_iff ht hall]
    intro d hd
    have hgap : d ∈ gap.head? := by
      rcases h with h | rfl
      · rwa [List.head?_append_of_ne_nil _ h] at hd
      · rwa [List.append_nil] at hd
    -- what goes on with a run is no layout
    by_contra hc
    rw [Bool.not_eq_false] at hc
    have hplain := isPlain_of_alphanum (alphanum_of_continues hc)
    rcases hg.head d hgap with hsep | hhash
    · simp [hplain.1] at hsep
    · exact hplain.2.1 hhash

theorem cuts_written (h : Apart ps) (n : Nat) : Cuts n (written ps) (placed n ps) := by
  induction ps generalizing n with
  | nil => exact .nil n
  | cons p ps ih =>
    obtain ⟨hps, hgap⟩ := apart_cons h
    rw [written_cons]
    apply Cuts.token p.spells
    · apply longest_before_gap p.spells p.isGap
      exact hgap.imp_right (by rintro rfl; rfl)
    · exact p.isGap.cuts (ih hps _)

theorem exists_pieces {source : String} (h : Accounts source ls) : ∃ ps : List Piece,
    List.Forall₂ (fun l p => slice? source l.span.start l.span.stop = some (String.ofList p.spelling) ∧
      l.token = p.token) ls ps := by
  have hspelled := h.spelled
  clear h
  induction ls with
  | nil => exact ⟨[], .nil⟩
  | cons l ls ih =>
    rw [List.forall_mem_cons] at hspelled
    obtain ⟨⟨s, hs, hl⟩, htail⟩ := hspelled
    obtain ⟨ps, hps⟩ := ih htail
    refine ⟨⟨l.token, s.toList, [], hl, .nil⟩ :: ps, .cons ⟨?_, rfl⟩ hps⟩
    rw [hs, String.ofList_toList]

end

/-- Tokens are read as they are written, whatever layout is between and around them; and a source whose
tokens are written out with single spaces has the same tokens and the same program. -/
theorem scan_undoes_writing :
    (∀ lead ps, Gap lead → Apart ps →
      scan (String.ofList (lead ++ written ps)) = .ok (placed (byteLength lead) ps)) ∧
    ∀ source ls, scan source = .ok ls → ∃ slices : List String,
      List.Forall₂ (fun l s => slice? source l.span.start l.span.stop = some s) ls slices ∧
      (∃ ls', scan (" ".intercalate slices) = .ok ls' ∧
        ls'.map Lexeme.token = ls.map Lexeme.token) ∧
      Workspace.outcome (Program.parse (" ".intercalate slices)) =
        Workspace.outcome (Program.parse source) := by
  constructor
  · intro lead ps hlead hps
    rw [scan_eq_ok_iff, String.toList_ofList]
    apply hlead.cuts
    rw [Nat.zero_add]
    exact cuts_written hps _
  · intro source ls hls
    obtain ⟨ps, hps⟩ := exists_pieces (accounts_of_cuts (scan_eq_ok_iff.1 hls))
    have hscan : scan (" ".intercalate (ps.map fun p => String.ofList p.spelling)) =
        .ok (placed 0 (respaced ps)) := by
      rw [scan_eq_ok_iff, ← toList_intercalate_respaced]
      exact cuts_written (apart_respaced ps) 0
    have htokens : (placed 0 (respaced ps)).map Lexeme.token = ls.map Lexeme.token := by
      rw [map_token_placed, map_token_respaced]
      have hmap : List.Forall₂ (· = ·) (ls.map Lexeme.token) (ps.map Piece.token) := by
        rw [List.forall₂_map_left_iff, List.forall₂_map_right_iff]
        exact hps.imp fun l p h => h.2
      rw [List.forall₂_eq_eq_eq] at hmap
      exact hmap.symm
    refine ⟨_, ?_, ⟨_, hscan, htokens⟩, Program.outcome_parse hscan hls htokens⟩
    rw [List.forall₂_map_right_iff]
    exact hps.imp fun l p h => h.1

theorem scan_reads_string_and_word :
    scan "# it's\n(+ 'é#' # TRUE\nTRUE) x1" = .ok
      [⟨.binary .add, 8, 9⟩, ⟨.text "é#", 10, 15⟩, ⟨.true, 23, 27⟩, ⟨.name "x1", 29, 31⟩] ∧
    ∃ slices ls, scan (" ".intercalate slices) = .ok ls ∧
      ls.map Lexeme.token = [.binary .add, .text "é#", .true, .name "x1"] := by
  have htext : Spells "'é#'".toList (.text "é#") := @Spells.text '\'' "é#".toList rfl (by decide)
  have hlead : Gap "# it's\n(".toList :=
    @Gap.comment " it's".toList _ (by decide) (.separator rfl .nil)
  have hgap : Gap " # TRUE\n".toList :=
    .separator rfl (@Gap.comment " TRUE".toList _ (by decide) .nil)
  have hread := scan_undoes_writing.1 "# it's\n(".toList
    [⟨.binary .add, "+".toList, " ".toList, .binary .add, .separator rfl .nil⟩,
      ⟨.text "é#", "'é#'".toList, " # TRUE\n".toList, htext, hgap⟩,
      ⟨.true, "TRUE".toList, ") ".toList, .true (List.all_eq_true.1 rfl),
        .separator rfl (.separator rfl .nil)⟩,
      ⟨.name "x1", "x1".toList, [], .name rfl (List.all_eq_true.1 rfl), .nil⟩]
    hlead (by simp [Apart])
  refine ⟨hread, ?_⟩
  obtain ⟨slices, -, ⟨ls, hls, htokens⟩, -⟩ := scan_undoes_writing.2 _ _ hread
  exact ⟨slices, ls, hls, htokens⟩

end Token

end KnightLang
