import KnightLang.Proofs.Lexing.Cutting
import KnightLang.Proofs.Rendering.Quoting

namespace KnightLang

open Token (takeWhile_append_eq)

inductive Sexp
  | bare (cs : List Char)
  | quoted (text : String)
  | form (head : List Char) (args : List Sexp)

namespace Sexp

mutual

def print : Sexp → List Char
  | bare cs => cs
  | quoted text => (Text.quote text).toList
  | form head args => '(' :: (head ++ (printAll args ++ [')']))

def printAll : List Sexp → List Char
  | [] => []
  | e :: es => ' ' :: (e.print ++ printAll es)

end

def isBare (c : Char) : Bool := !([' ', '(', ')', '"'].contains c)

inductive Proper : Sexp → Prop
  | bare {cs : List Char} (hne : cs ≠ []) (h : ∀ c ∈ cs, isBare c) : Proper (bare cs)
  | quoted (text : String) : Proper (quoted text)
  | form {head : List Char} {args : List Sexp} (hh : ∀ c ∈ head, isBare c)
      (h : ∀ e ∈ args, Proper e) : Proper (form head args)

def Ends (rest : List Char) : Prop := ∀ c ∈ rest.head?, c = ' ' ∨ c = ')'

section

variable {cs ds rest rest' : List Char} {es fs : List Sexp}

theorem ends_args (es : List Sexp) (rest : List Char) : Ends (printAll es ++ ')' :: rest) := by
  cases es with
  | nil =>
    rintro c ⟨⟩
    exact .inr rfl
  | cons e es =>
    rintro c ⟨⟩
    exact .inl rfl

theorem bare_append_inj (hc : ∀ c ∈ cs, isBare c) (hd : ∀ c ∈ ds, isBare c) (hr : Ends rest)
    (hr' : Ends rest') (h : cs ++ rest = ds ++ rest') : cs = ds ∧ rest = rest' := by
  have split {cs rest : List Char} (hc : ∀ c ∈ cs, isBare c) (hr : Ends rest) :
      (cs ++ rest).takeWhile isBare = cs ∧ (cs ++ rest).dropWhile isBare = rest := by
    apply takeWhile_append_eq
    · exact hc
    · intro d hd
      rcases hr d hd with rfl | rfl <;> rfl
  obtain ⟨ht, hdrop⟩ := split hc hr
  rw [h, (split hd hr').1] at ht
  rw [h, (split hd hr').2] at hdrop
  exact ⟨ht.symm, hdrop.symm⟩

theorem bare_ne {q : Char} (hne : cs ≠ []) (h : ∀ c ∈ cs, isBare c) (hq : isBare q = false) :
    cs ++ rest ≠ q :: rest' := by
  intro he
  obtain ⟨c, cs, rfl⟩ := List.exists_cons_of_ne_nil hne
  obtain ⟨rfl, -⟩ := List.cons.inj he
  simp [h c List.mem_cons_self] at hq

theorem printAll_append_inj
    (ih : ∀ e ∈ es, ∀ {rest rest' : List Char} {f : Sexp}, f.Proper → Ends rest → Ends rest' →
      e.print ++ rest = f.print ++ rest' → e = f ∧ rest = rest')
    (hf : ∀ f ∈ fs, f.Proper) (h : printAll es ++ ')' :: rest = printAll fs ++ ')' :: rest') :
    es = fs ∧ rest = rest' := by
  induction es generalizing fs with
  | nil =>
    cases fs with
    | nil => exact ⟨rfl, (List.cons.inj h).2⟩
    | cons f fs => simp [printAll] at h
  | cons e es ihs =>
    cases fs with
    | nil => simp [printAll] at h
    | cons f fs =>
      rw [List.forall_mem_cons] at ih hf
      simp only [printAll, List.cons_append, List.append_assoc, List.cons.injEq, true_and] at h
      obtain ⟨rfl, htail⟩ := ih.1 hf.1 (ends_args es rest) (ends_args fs rest') h
      obtain ⟨rfl, hrest⟩ := ihs ih.2 hf.2 htail
      exact ⟨rfl, hrest⟩

theorem Proper.print_append_inj {e f : Sexp} (he : e.Proper) (hf : f.Proper) (hr : Ends rest)
    (hr' : Ends rest') (h : e.print ++ rest = f.print ++ rest') : e = f ∧ rest = rest' := by
  have hquote (text : String) (rest : List Char) :
      ∃ cs, (Text.quote text).toList ++ rest = '"' :: cs := by
    rw [Text.toList_quote]
    exact ⟨_, rfl⟩
  -- the first character tells the three kinds apart
  induction he generalizing f rest rest' with
  | bare hne hc =>
    cases hf with
    | bare hne' hc' =>
      obtain ⟨rfl, hrest⟩ := bare_append_inj hc hc' hr hr' h
      exact ⟨rfl, hrest⟩
    | quoted text =>
      obtain ⟨ds, hds⟩ := hquote text rest'
      exact absurd (h.trans hds) (bare_ne hne hc rfl)
    | form => exact absurd h (bare_ne hne hc rfl)
  | quoted text =>
    obtain ⟨cs, hcs⟩ := hquote text rest
    cases hf with
    | bare hne hc => exact absurd (h.symm.trans hcs) (bare_ne hne hc rfl)
    | quoted text' =>
      obtain ⟨rfl, hrest⟩ := Text.quote_append_inj h
      exact ⟨rfl, hrest⟩
    | form => simpa [print] using hcs.symm.trans h
  | form hh hes ih =>
    cases hf with
    | bare hne hc => exact absurd h.symm (bare_ne hne hc rfl)
    | quoted text =>
      obtain ⟨ds, hds⟩ := hquote text rest'
      simpa [print] using h.trans hds
    | form hh' hfs =>
      simp only [print, List.cons_append, List.append_assoc, List.cons.injEq, true_and,
        List.nil_append] at h
      obtain ⟨rfl, hargs⟩ := bare_append_inj hh hh' (ends_args _ _) (ends_args _ _) h
      obtain ⟨rfl, hrest⟩ := printAll_append_inj ih hfs hargs
      exact ⟨rfl, hrest⟩

theorem Proper.print_inj {e f : Sexp} (he : e.Proper) (hf : f.Proper) (h : e.print = f.print) :
    e = f := by
  have hnil : Ends [] := nofun
  have heq : e.print ++ [] = f.print ++ [] := by rw [h]
  exact (he.print_append_inj hf hnil hnil heq).1

end

end Sexp

end KnightLang
