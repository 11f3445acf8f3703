import KnightLang.Proofs.Lexing.Cutting
import KnightLang.Text.Decimal

namespace KnightLang.Decimal

section

variable {s : String} {k : ℕ} {digits rest : List Char} (hd : ∀ c ∈ digits, c.isDigit)
  (hr : ∀ c ∈ rest.head?, c.isDigit = false)
include hd hr

theorem leading_of_minus (hs : s.toList = List.replicate k ' ' ++ '-' :: (digits ++ rest)) :
    leading s = -wrapped digits := by
  have hdrop : s.toList.dropWhile (· = ' ') = '-' :: (digits ++ rest) := by
    rw [hs, List.dropWhile_append_of_pos (by simp), List.dropWhile_cons_of_neg (by decide)]
  have hdigits := (Token.takeWhile_append_eq hd hr).1
  unfold leading
  rw [hdrop]
  exact congrArg (fun ds => -wrapped ds) hdigits

theorem leading_of_digits (hn : ∀ c ∈ (digits ++ rest).head?, c ≠ ' ' ∧ c ≠ '-')
    (hs : s.toList = List.replicate k ' ' ++ (digits ++ rest)) : leading s = wrapped digits := by
  have hdrop : s.toList.dropWhile (· = ' ') = digits ++ rest := by
    rw [hs, List.dropWhile_append_of_pos (by simp)]
    cases h : digits ++ rest with
    | nil => rfl
    | cons c cs =>
      rw [h] at hn
      exact List.dropWhile_cons_of_neg (by simpa using (hn c rfl).1)
  have hdigits := (Token.takeWhile_append_eq hd hr).1
  unfold leading
  rw [hdrop]
  split
  · rename_i heq
    rw [heq] at hn
    exact absurd rfl (hn '-' rfl).2
  · rw [hdigits]

end

theorem value_toDigits (n : Nat) : value (Nat.toDigits 10 n) = n :=
  Nat.ofDigitChars_ten_toDigits

theorem isDigit_of_mem_toDigits {n : Nat} {c : Char} (h : c ∈ Nat.toDigits 10 n) : c.isDigit :=
  Nat.isDigit_of_mem_toDigits (by decide) (by decide) h

theorem toList_ofInt (n : Int) :
    (0 ≤ n ∧ (ofInt n).toList = Nat.toDigits 10 n.natAbs) ∨
      n < 0 ∧ (ofInt n).toList = '-' :: Nat.toDigits 10 n.natAbs := by
  cases n with
  | ofNat n => exact .inl ⟨Int.natCast_nonneg n, by simp [ofInt, ofNat]⟩
  | negSucc n => exact .inr ⟨Int.negSucc_lt_zero n, by simp [ofInt, ofNat]⟩

theorem toDigits_eq_cons (n : Nat) : ∃ c cs, Nat.toDigits 10 n = c :: cs ∧ c ≠ ' ' ∧ c ≠ '-' := by
  obtain ⟨c, cs, h⟩ := List.exists_cons_of_ne_nil (Nat.toDigits_ne_nil (n := n) (b := 10))
  have hc : c.isDigit := isDigit_of_mem_toDigits (h ▸ List.mem_cons_self)
  refine ⟨c, cs, h, ?_, ?_⟩
  · rintro rfl
    cases hc
  · rintro rfl
    cases hc

theorem wrapped_toDigits (n : Nat) : wrapped (Nat.toDigits 10 n) = .ofNat n := by
  rw [wrapped_eq, value_toDigits]

theorem leading_padded (n : Int64) {s : String} (k : ℕ) (tail : String)
    (ht : ∀ c ∈ tail.toList.head?, c.isDigit = false)
    (hs : s.toList = List.replicate k ' ' ++ ((ofInt n.toInt).toList ++ tail.toList)) :
    leading s = n := by
  have hd : ∀ c ∈ Nat.toDigits 10 n.toInt.natAbs, c.isDigit := fun c hc => isDigit_of_mem_toDigits hc
  rcases toList_ofInt n.toInt with ⟨hn, h⟩ | ⟨hn, h⟩
  · have hhead : ∀ c ∈ (Nat.toDigits 10 n.toInt.natAbs ++ tail.toList).head?, c ≠ ' ' ∧ c ≠ '-' := by
      obtain ⟨d, ds, hds, hne⟩ := toDigits_eq_cons n.toInt.natAbs
      rw [hds]
      rintro c ⟨⟩
      exact hne
    rw [h] at hs
    rw [leading_of_digits hd ht hhead hs, wrapped_toDigits, ← Int64.ofInt_eq_ofNat,
      Int.natAbs_of_nonneg hn, Int64.ofInt_toInt]
  · rw [h] at hs
    rw [leading_of_minus hd ht hs, wrapped_toDigits, ← Int64.ofInt_eq_ofNat,
      Int.ofNat_natAbs_of_nonpos (by omega), Int64.ofInt_neg, Int64.ofInt_toInt, Int64.neg_neg]

theorem leading_ofInt (n : Int64) : leading (ofInt n.toInt) = n :=
  leading_padded n 0 "" nofun (by simp)

end KnightLang.Decimal
