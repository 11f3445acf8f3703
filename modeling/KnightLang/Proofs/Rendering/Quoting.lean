import KnightLang.Text.Quoted
import Mathlib.Data.List.TakeWhile
import Mathlib.Tactic.IntervalCases

namespace KnightLang

namespace Text

def readHex (digits : List Char) : Nat :=
  digits.foldl (fun n c => 16 * n + (hexValue c).getD 0) 0

theorem hexValue_digitChar {d : Nat} (h : d < 16) : hexValue d.digitChar = some d := by
  interval_cases d <;> rfl

theorem readHex_toDigits (n : Nat) : readHex (Nat.toDigits 16 n) = n := by
  induction n using Nat.strongRecOn with
  | ind n ih =>
    by_cases h : n < 16
    · rw [Nat.toDigits_of_lt_base h]
      simp [readHex, hexValue_digitChar h]
    · have hd : n % 16 < 16 := Nat.mod_lt n (by decide)
      have hq := ih (n / 16) (by omega)
      unfold readHex at hq ⊢
      rw [Nat.toDigits_of_base_le (by decide) (by omega), List.foldl_append, hq]
      simp only [List.foldl_cons, List.foldl_nil, hexValue_digitChar hd, Option.getD_some]
      omega

theorem isAlphanum_of_mem_toDigits {n : Nat} {c : Char} (h : c ∈ Nat.toDigits 16 n) :
    c.isAlphanum := by
  have digit {d : Nat} (hd : d < 16) : d.digitChar.isAlphanum := by
    interval_cases d <;> rfl
  induction n using Nat.strongRecOn with
  | ind n ih =>
    by_cases hn : n < 16
    · rw [Nat.toDigits_of_lt_base hn, List.mem_singleton] at h
      subst h
      exact digit hn
    · rw [Nat.toDigits_of_base_le (by decide) (by omega), List.mem_append, List.mem_singleton] at h
      rcases h with h | rfl
      · exact ih (n / 16) (by omega) h
      · exact digit (Nat.mod_lt n (by decide))

def ofLetter? : Char → Option Char
  | '0' => some '\x00'
  | 't' => some '\t'
  | 'r' => some '\r'
  | 'n' => some '\n'
  | '"' => some '"'
  | '\\' => some '\\'
  | _ => none

def unescape? : List Char → Option (Char × List Char)
  | [] => none
  | '\\' :: 'u' :: '\x7b' :: cs =>
    some (Char.ofNat (readHex (cs.takeWhile (· ≠ '\x7d'))), (cs.dropWhile (· ≠ '\x7d')).tail)
  | '\\' :: c :: cs => (ofLetter? c).map (·, cs)
  | '"' :: _ => none
  | c :: cs => some (c, cs)

theorem unescape?_plain {c : Char} {cs : List Char} (hb : c ≠ '\\') (hq : c ≠ '"') :
    unescape? (c :: cs) = some (c, cs) := by
  unfold unescape?
  split <;> simp_all

theorem unescape?_code (c : Char) (rest : List Char) :
    unescape? ('\\' :: 'u' :: '\x7b' :: (Nat.toDigits 16 c.toNat ++ '\x7d' :: rest)) =
      some (c, rest) := by
  have hdigits : ∀ d ∈ Nat.toDigits 16 c.toNat, decide (d ≠ '\x7d') := by
    intro d hd
    rw [decide_eq_true_eq]
    rintro rfl
    exact absurd (isAlphanum_of_mem_toDigits hd) (by decide)
  rw [unescape?, List.takeWhile_append_of_pos hdigits, List.dropWhile_append_of_pos hdigits]
  simp [readHex_toDigits]

theorem unescape?_escape (c : Char) (rest : List Char) :
    unescape? ((escape c).toList ++ rest) = some (c, rest) := by
  -- six characters have an escape of their own; the last two cases are as themselves and as a code
  unfold escape
  split
  · simp_all [unescape?, ofLetter?]
  split
  · simp_all [unescape?, ofLetter?]
  split
  · simp_all [unescape?, ofLetter?]
  split
  · simp_all [unescape?, ofLetter?]
  split
  · simp_all [unescape?, ofLetter?]
  split
  · simp_all [unescape?, ofLetter?]
  split
  · rename_i hq hb _
    simpa using unescape?_plain hb hq
  · simpa [hexDigits] using unescape?_code c rest

def escaped (cs : List Char) : List Char := cs.flatMap fun c => (escape c).toList

theorem toList_quote (s : String) : (quote s).toList = '"' :: (escaped s.toList ++ ['"']) := by
  have hfold (cs : List Char) (t : String) :
      (cs.foldl (fun text c => text ++ escape c) t).toList = t.toList ++ escaped cs := by
    induction cs generalizing t with
    | nil => simp [escaped]
    | cons c cs ih => simp [ih, escaped]
  rw [quote, String.toList_append, hfold]
  rfl

theorem escaped_append_inj {cs ds rest rest' : List Char}
    (h : escaped cs ++ '"' :: rest = escaped ds ++ '"' :: rest') : cs = ds ∧ rest = rest' := by
  -- reading back one character fails exactly at the closing quote, so the texts end together
  have read (c : Char) (cs rest : List Char) :
      unescape? (escaped (c :: cs) ++ rest) = some (c, escaped cs ++ rest) := by
    unfold escaped
    rw [List.flatMap_cons, List.append_assoc, unescape?_escape]
  induction cs generalizing ds with
  | nil =>
    cases ds with
    | nil => exact ⟨rfl, (List.cons.inj h).2⟩
    | cons d ds =>
      have hr := read d ds ('"' :: rest')
      rw [← h] at hr
      cases hr
  | cons c cs ih =>
    have hr := read c cs ('"' :: rest)
    cases ds with
    | nil =>
      rw [h] at hr
      cases hr
    | cons d ds =>
      rw [h, read] at hr
      simp only [Option.some.injEq, Prod.mk.injEq] at hr
      obtain ⟨rfl, htail⟩ := hr
      obtain ⟨rfl, hrest⟩ := ih htail.symm
      exact ⟨rfl, hrest⟩

theorem quote_append_inj {s t : String} {rest rest' : List Char}
    (h : (quote s).toList ++ rest = (quote t).toList ++ rest') : s = t ∧ rest = rest' := by
  rw [toList_quote, toList_quote] at h
  simp only [List.cons_append, List.append_assoc, List.nil_append] at h
  obtain ⟨hs, hrest⟩ := escaped_append_inj (List.cons.inj h).2
  exact ⟨String.toList_inj.1 hs, hrest⟩

end Text

end KnightLang
