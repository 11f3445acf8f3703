import KnightLang.Syntax.Token
import Mathlib.Data.List.TakeWhile
import Mathlib.Tactic.FinCases

namespace KnightLang.Token

inductive Spells : List Char → Token → Prop
  | integer {c : Char} {cs : List Char} (hc : c.isDigit) (h : ∀ d ∈ cs, d.isDigit) :
      Spells (c :: cs) (.integer (String.ofList (c :: cs)))
  | text {q : Char} {cs : List Char} (hq : isQuote q) (h : q ∉ cs) :
      Spells (q :: (cs ++ [q])) (.text (String.ofList cs))
  | name {c : Char} {cs : List Char} (hc : startsName c) (h : ∀ d ∈ cs, continuesName d) :
      Spells (c :: cs) (.name (String.ofList (c :: cs)))
  | true {cs : List Char} (h : ∀ d ∈ cs, continuesWord d) : Spells ('T' :: cs) .true
  | false {cs : List Char} (h : ∀ d ∈ cs, continuesWord d) : Spells ('F' :: cs) .false
  | null {cs : List Char} (h : ∀ d ∈ cs, continuesWord d) : Spells ('N' :: cs) .null
  | word {c : Char} {cs : List Char} (hc : c.isUpper) (hT : c ≠ 'T') (hF : c ≠ 'F') (hN : c ≠ 'N')
      (h : ∀ d ∈ cs, continuesWord d) : Spells (c :: cs) (.word (String.ofList (c :: cs)))
  | unary (op : UnaryOp) : Spells [op.symbol] (.unary op)
  | binary (op : BinaryOp) : Spells [op.symbol] (.binary op)

/-- No spelling is longer than `s` where `rest` follows it. -/
def Longest (s rest : List Char) : Prop :=
  ∀ more t, more ≠ [] → more <+: rest → ¬ Spells (s ++ more) t

def continues (c : Char) : Char → Bool :=
  if c.isDigit then Char.isDigit
  else if startsName c then continuesName
  else if c.isUpper then continuesWord
  else fun _ => Bool.false

def ofRun? (c : Char) (taken : List Char) : Option Token :=
  if c.isDigit then some (integer (String.ofList (c :: taken)))
  else if startsName c then some (name (String.ofList (c :: taken)))
  else if c.isUpper then some (ofWord (c :: taken))
  else if taken.isEmpty then ofSymbol? c
  else none

theorem ofChars?_eq (c : Char) (cs : List Char) : ofChars? c cs =
    (ofRun? c (cs.takeWhile (continues c))).map (·, cs.takeWhile (continues c)) := by
  unfold ofChars? ofRun? continues
  by_cases hd : c.isDigit
  · simp [hd]
  by_cases hn : startsName c
  · simp [hd, hn]
  by_cases hu : c.isUpper
  · simp [hd, hn, hu]
  · cases cs <;> simp [hd, hn, hu]

section

variable {c d q : Char} {cs rest : List Char} {t : Token}

theorem isUpper_iff : c.isUpper ↔ 65 ≤ c.val ∧ c.val ≤ 90 := decide_eq_true_iff

theorem isLower_iff : c.isLower ↔ 97 ≤ c.val ∧ c.val ≤ 122 := by
  change (decide _ && decide _) = Bool.true ↔ _
  rw [Bool.and_eq_true, decide_eq_true_iff, decide_eq_true_iff]
  rfl

theorem isDigit_iff : c.isDigit ↔ 48 ≤ c.val ∧ c.val ≤ 57 := by
  change (decide _ && decide _) = Bool.true ↔ _
  rw [Bool.and_eq_true, decide_eq_true_iff, decide_eq_true_iff]
  rfl

theorem isAlphanum_iff : c.isAlphanum ↔ c.isUpper ∨ c.isLower ∨ c.isDigit := by
  rw [← or_assoc, ← Bool.or_eq_true, ← Bool.or_eq_true]
  rfl

theorem isDigit_eq_false_of_startsName (h : startsName c) : c.isDigit = Bool.false := by
  simp only [startsName, Bool.or_eq_true, decide_eq_true_eq] at h
  rcases h with h | rfl
  · rw [isLower_iff] at h
    rw [Bool.eq_false_iff, ne_eq, isDigit_iff]
    grind
  · decide

theorem isDigit_eq_false_of_isUpper (h : c.isUpper) : c.isDigit = Bool.false := by
  rw [isUpper_iff] at h
  rw [Bool.eq_false_iff, ne_eq, isDigit_iff]
  grind

theorem startsName_eq_false_of_isUpper (h : c.isUpper) : startsName c = Bool.false := by
  have hc : c ≠ '_' := by
    rintro rfl
    simp at h
  have hl : c.isLower = Bool.false := by
    rw [isUpper_iff] at h
    rw [Bool.eq_false_iff, ne_eq, isLower_iff]
    grind
  simp [startsName, hc, hl]

theorem alphanum_of_continues (h : continues c d) : d.isAlphanum ∨ d = '_' := by
  rw [isAlphanum_iff]
  unfold continues at h
  split at h
  · exact .inl (.inr (.inr h))
  split at h
  · simp only [continuesName, Bool.or_eq_true, decide_eq_true_eq] at h
    exact h.imp_left .inr
  split at h
  · simp only [continuesWord, Bool.or_eq_true, decide_eq_true_eq] at h
    exact h.imp_left .inl
  · cases h

theorem utf8Size_of_alphanum (h : c.isAlphanum ∨ c = '_') : c.utf8Size = 1 := by
  rw [Char.utf8Size_eq_one_iff]
  rcases h with h | rfl
  · rw [isAlphanum_iff, isUpper_iff, isLower_iff, isDigit_iff] at h
    grind
  · decide

theorem isSeparator_iff : isSeparator c ↔
    c ∈ [' ', '\t', '\n', '\r', '(', ')', '[', ']', '\x7b', '\x7d'] := by
  simp [isSeparator, or_assoc]

theorem isQuote_iff : isQuote c ↔ c ∈ ['"', '\''] := by
  simp [isQuote]

def IsPlain (c : Char) : Prop := isSeparator c = Bool.false ∧ c ≠ '#' ∧ isQuote c = Bool.false

theorem isPlain_of_alphanum (h : c.isAlphanum ∨ c = '_') : IsPlain c := by
  have hnone : ∀ d ∈ [' ', '\t', '\n', '\r', '(', ')', '[', ']', '\x7b', '\x7d'] ++ ['"', '\''],
      ¬ (d.isAlphanum ∨ d = '_') := by
    intro d hd
    fin_cases hd <;> decide
  refine ⟨?_, ?_, ?_⟩
  · by_contra hc
    rw [Bool.not_eq_false, isSeparator_iff] at hc
    exact hnone c (List.mem_append_left _ hc) h
  · rintro rfl
    revert h
    decide
  · by_contra hc
    rw [Bool.not_eq_false, isQuote_iff] at hc
    exact hnone c (List.mem_append_right _ hc) h

theorem eq_symbol_of_ofSymbol? (h : ofSymbol? c = some t) :
    (∃ op, c = UnaryOp.symbol op ∧ t = .unary op) ∨ ∃ op, c = BinaryOp.symbol op ∧ t = .binary op := by
  unfold ofSymbol? UnaryOp.ofSymbol? at h
  split at h
  · rename_i op ho
    obtain rfl := Option.some.inj h
    refine .inl ⟨op, ?_⟩
    split at ho <;> cases ho <;> exact ⟨rfl, rfl⟩
  · refine .inr ?_
    unfold BinaryOp.ofSymbol? at h
    split at h <;> cases h <;> exact ⟨_, rfl, rfl⟩

theorem isPlain_of_ofSymbol? (h : ofSymbol? c = some t) : IsPlain c ∧ c.utf8Size = 1 := by
  rcases eq_symbol_of_ofSymbol? h with ⟨op, rfl, -⟩ | ⟨op, rfl, -⟩
  · cases op <;> exact ⟨⟨rfl, by decide, rfl⟩, rfl⟩
  · cases op <;> exact ⟨⟨rfl, by decide, rfl⟩, rfl⟩

theorem ofWord_of_ne (hT : c ≠ 'T') (hF : c ≠ 'F') (hN : c ≠ 'N') :
    ofWord (c :: cs) = .word (String.ofList (c :: cs)) := by
  unfold ofWord
  split <;> simp_all

theorem spells_word (hc : c.isUpper) (h : ∀ d ∈ cs, continuesWord d) :
    Spells (c :: cs) (ofWord (c :: cs)) := by
  by_cases hT : c = 'T'
  · subst hT
    exact .true h
  by_cases hF : c = 'F'
  · subst hF
    exact .false h
  by_cases hN : c = 'N'
  · subst hN
    exact .null h
  · rw [ofWord_of_ne hT hF hN]
    exact .word hc hT hF hN h

theorem isPlain_of_ofRun? (h : ofRun? c cs = some t) : IsPlain c ∧ c.utf8Size = 1 := by
  have alphanum (hc : c.isAlphanum ∨ c = '_') : IsPlain c ∧ c.utf8Size = 1 :=
    ⟨isPlain_of_alphanum hc, utf8Size_of_alphanum hc⟩
  unfold ofRun? at h
  split at h
  · rename_i hd
    exact alphanum (.inl (isAlphanum_iff.2 (.inr (.inr hd))))
  split at h
  · rename_i hn
    simp only [startsName, Bool.or_eq_true, decide_eq_true_eq] at hn
    rcases hn with hl | rfl
    · exact alphanum (.inl (isAlphanum_iff.2 (.inr (.inl hl))))
    · exact alphanum (.inr rfl)
  split at h
  · rename_i hu
    exact alphanum (.inl (isAlphanum_iff.2 (.inl hu)))
  split at h
  · exact isPlain_of_ofSymbol? h
  · cases h

theorem Spells.quoted_or_run (h : Spells (c :: cs) t) :
    (isQuote c ∧ ∃ content, cs = content ++ [c] ∧ c ∉ content ∧ t = .text (String.ofList content)) ∨
      ofRun? c cs = some t ∧ ∀ d ∈ cs, continues c d := by
  cases h with
  | text hq h => exact .inl ⟨hq, _, rfl, h, rfl⟩
  | integer hc h =>
    right
    simpa [ofRun?, continues, hc] using h
  | name hc h =>
    right
    simpa [ofRun?, continues, hc, isDigit_eq_false_of_startsName hc] using h
  | true h => exact .inr ⟨rfl, h⟩
  | false h => exact .inr ⟨rfl, h⟩
  | null h => exact .inr ⟨rfl, h⟩
  | word hc hT hF hN h =>
    have hd := isDigit_eq_false_of_isUpper hc
    have hn := startsName_eq_false_of_isUpper hc
    right
    simpa [ofRun?, continues, hc, hd, hn, ofWord_of_ne hT hF hN] using h
  | unary op => cases op <;> exact .inr ⟨rfl, nofun⟩
  | binary op => cases op <;> exact .inr ⟨rfl, nofun⟩

theorem spells_of_run (ht : ofRun? c cs = some t) (h : ∀ d ∈ cs, continues c d) :
    Spells (c :: cs) t := by
  unfold ofRun? at ht
  unfold continues at h
  by_cases hd : c.isDigit
  · simp only [hd, if_true, Option.some.injEq] at ht h
    subst ht
    exact .integer hd h
  by_cases hn : startsName c
  · simp only [hd, hn, if_true, Bool.false_eq_true, if_false, Option.some.injEq] at ht h
    subst ht
    exact .name hn h
  by_cases hu : c.isUpper
  · simp only [hd, hn, hu, if_true, Bool.false_eq_true, if_false, Option.some.injEq] at ht h
    subst ht
    exact spells_word hu h
  · cases cs with
    | cons d ds => simp [hd, hn, hu] at ht
    | nil =>
      simp only [hd, hn, hu, Bool.false_eq_true, if_false, List.isEmpty_nil, if_true] at ht
      rcases eq_symbol_of_ofSymbol? ht with ⟨op, rfl, rfl⟩ | ⟨op, rfl, rfl⟩
      · exact .unary op
      · exact .binary op

theorem exists_ofRun?_of_continues (hd : continues c d) : ∃ u, ofRun? c cs = some u := by
  unfold continues at hd
  unfold ofRun?
  split
  · exact ⟨_, rfl⟩
  split
  · exact ⟨_, rfl⟩
  split
  · exact ⟨_, rfl⟩
  · simp_all

theorem Spells.exists_cons {s : List Char} (h : Spells s t) :
    ∃ c cs, s = c :: cs ∧ isSeparator c = Bool.false ∧ c ≠ '#' := by
  obtain ⟨c, cs, rfl⟩ : ∃ c cs, s = c :: cs := by cases h <;> exact ⟨_, _, rfl⟩
  refine ⟨c, cs, rfl, ?_⟩
  rcases h.quoted_or_run with ⟨hq, -⟩ | ⟨hr, -⟩
  · rw [isQuote_iff] at hq
    clear h
    fin_cases hq <;> decide
  · have hc := (isPlain_of_ofRun? hr).1
    exact ⟨hc.1, hc.2.1⟩

theorem longest_text (hq : isQuote q) : Longest (q :: (cs ++ [q])) rest := by
  intro more t hm _ hs
  rw [List.cons_append] at hs
  rcases hs.quoted_or_run with ⟨-, content, he, hn, -⟩ | ⟨hr, -⟩
  · have hc := congrArg List.dropLast he
    rw [List.dropLast_append_of_ne_nil hm, List.dropLast_concat] at hc
    apply hn
    simp [← hc]
  · simp [(isPlain_of_ofRun? hr).1.2.2] at hq

theorem longest_run_iff (ht : ofRun? c cs = some t) (h : ∀ d ∈ cs, continues c d) :
    Longest (c :: cs) rest ↔ ∀ d ∈ rest.head?, continues c d = Bool.false := by
  constructor
  · intro hl d hd
    by_contra hc
    rw [Bool.not_eq_false] at hc
    obtain ⟨u, hu⟩ : ∃ u, ofRun? c (cs ++ [d]) = some u := exists_ofRun?_of_continues hc
    obtain ⟨more, rfl⟩ : ∃ more, rest = d :: more := List.head?_eq_some_iff.1 hd
    apply hl [d] u (by simp) ⟨more, rfl⟩
    apply spells_of_run hu
    simpa [or_imp, forall_and, hc] using h
  · rintro hr more u hm ⟨after, rfl⟩ hs
    obtain ⟨d, ds, rfl⟩ := List.exists_cons_of_ne_nil hm
    have hd := hr d rfl
    rw [List.cons_append] at hs
    rcases hs.quoted_or_run with ⟨hq, -⟩ | ⟨-, hall⟩
    · simp [(isPlain_of_ofRun? ht).1.2.2] at hq
    · simp [hall d] at hd

theorem run_of_ofChars? {taken : List Char} (h : ofChars? c cs = some (t, taken)) :
    ofRun? c taken = some t ∧ (∀ d ∈ taken, continues c d) ∧ ∃ rest, cs = taken ++ rest ∧
      ∀ d ∈ rest.head?, continues c d = Bool.false := by
  rw [ofChars?_eq] at h
  obtain ⟨u, hu, hr⟩ := Option.map_eq_some_iff.1 h
  obtain ⟨rfl, rfl⟩ := Prod.mk.inj hr
  refine ⟨hu, fun d hd => List.mem_takeWhile_imp hd, cs.dropWhile (continues c), ?_, ?_⟩
  · rw [List.takeWhile_append_dropWhile]
  · intro d hd
    have hn := List.head?_dropWhile_not (continues c) cs
    rwa [Option.mem_def.1 hd] at hn

theorem ofRun?_of_ofChars? (h : ofChars? c cs = none) (ds : List Char) : ofRun? c ds = none := by
  unfold ofChars? at h
  unfold ofRun?
  by_cases hd : c.isDigit
  · simp [hd] at h
  by_cases hn : startsName c
  · simp [hd, hn] at h
  by_cases hu : c.isUpper
  · simp [hd, hn, hu] at h
  · simp only [hd, hn, hu, Bool.false_eq_true, if_false, Option.map_eq_none_iff] at h ⊢
    simp [h]

theorem byteLength_run (h : ∀ d ∈ cs, continues c d) : Text.byteLength cs = cs.length := by
  induction cs with
  | nil => rfl
  | cons d ds ih =>
    rw [List.forall_mem_cons] at h
    have hd := utf8Size_of_alphanum (alphanum_of_continues h.1)
    rw [Text.byteLength_cons, ih h.2, hd, List.length_cons]
    omega

end

end KnightLang.Token
