import KnightLang.Proofs.Arithmetic.Numerals
import KnightLang.Proofs.Strings.Splicing
import Mathlib.Data.Nat.Digits.Defs

namespace KnightLang

namespace Text

theorem bytes_cons (c : Char) (cs : List Char) :
    bytes (String.ofList (c :: cs)) = String.utf8EncodeChar c ++ bytes (String.ofList cs) := by
  have h : (c :: cs).utf8Encode = [c].utf8Encode ++ cs.utf8Encode := List.utf8Encode_cons
  simp only [bytes, String.toByteArray_ofList, h, ByteArray.data_append, Array.toList_append]
  simp [List.utf8Encode]

theorem encode_of_lt {c : Char} (h : c.toNat < 128) :
    String.utf8EncodeChar c = [UInt8.ofNat c.toNat] := by
  have hc : c.val.toNat ≤ 127 := Nat.le_of_lt_succ h
  simp only [String.utf8EncodeChar, hc, if_true]
  rfl

theorem char_of_encode {c : Char} {b : UInt8} {bs : List UInt8}
    (h : String.utf8EncodeChar c = b :: bs) (hb : b < 0x80) : c = Char.ofNat b.toNat ∧ bs = [] := by
  by_cases hc : c.toNat < 128
  · rw [encode_of_lt hc] at h
    obtain ⟨rfl, rfl⟩ := List.cons.inj h
    have hmod : c.toNat % 256 = c.toNat := Nat.mod_eq_of_lt (by omega)
    rw [UInt8.toNat_ofNat', hmod, Char.ofNat_toNat]
    exact ⟨rfl, rfl⟩
  · exfalso
    have hlong : ¬ c.val.toNat ≤ 127 := fun hle => hc (Nat.lt_succ_of_le hle)
    rw [UInt8.lt_iff_toNat_lt] at hb
    simp only [String.utf8EncodeChar, hlong, if_false] at h
    split at h
    · obtain ⟨rfl, -⟩ := List.cons.inj h
      simp at hb
      omega
    · split at h
      all_goals
        obtain ⟨rfl, -⟩ := List.cons.inj h
        simp at hb
        omega

def ofAscii (bs : List UInt8) : List Char := bs.map fun b => Char.ofNat b.toNat

theorem toNat_ofByte (b : UInt8) : (Char.ofNat b.toNat).toNat = b.toNat := by
  have hb : b.toNat < 256 := b.toNat_lt
  have hvalid : b.toNat.isValidChar := .inl (by omega)
  rw [Char.ofNat, dif_pos hvalid]
  rfl

theorem exists_of_bytes_append {front rest : List UInt8} (hf : ∀ b ∈ front, b < 0x80) {cs : List Char}
    (h : bytes (String.ofList cs) = front ++ rest) :
    ∃ ds, cs = ofAscii front ++ ds ∧ bytes (String.ofList ds) = rest := by
  induction front generalizing cs with
  | nil => exact ⟨cs, rfl, h⟩
  | cons b front ih =>
    obtain ⟨hb, hfront⟩ := List.forall_mem_cons.1 hf
    cases cs with
    | nil => cases h
    | cons c cs =>
      obtain ⟨e, es, he⟩ := List.exists_cons_of_ne_nil (String.utf8EncodeChar_ne_nil (c := c))
      rw [bytes_cons, he, List.cons_append, List.cons_append] at h
      obtain ⟨rfl, htail⟩ := List.cons.inj h
      obtain ⟨rfl, rfl⟩ := char_of_encode he hb
      obtain ⟨ds, rfl, hds⟩ := ih hfront htail
      exact ⟨ds, rfl, hds⟩

theorem head?_bytes {c : Char} (hc : c.toNat < 128) {cs : List Char} (h : c ∈ cs.head?) :
    UInt8.ofNat c.toNat ∈ (bytes (String.ofList cs)).head? := by
  obtain ⟨cs, rfl⟩ := List.head?_eq_some_iff.1 h
  rw [bytes_cons, encode_of_lt hc]
  rfl

end Text

namespace Decimal

def IsDigit (b : UInt8) : Prop := 0x30 ≤ b ∧ b ≤ 0x39

instance : DecidablePred IsDigit := fun _ => inferInstanceAs (Decidable (_ ∧ _))

theorem isDigit_iff {c : Char} : c.isDigit ↔ 48 ≤ c.toNat ∧ c.toNat ≤ 57 := Token.isDigit_iff

theorem isDigit_ofByte {b : UInt8} : (Char.ofNat b.toNat).isDigit ↔ IsDigit b := by
  rw [isDigit_iff, Text.toNat_ofByte, IsDigit, UInt8.le_iff_toNat_le, UInt8.le_iff_toNat_le]
  rfl

structure Numeral where
  spaces : ℕ
  negative : Bool
  digits : List UInt8
  rest : List UInt8

namespace Numeral

def bytes (n : Numeral) : List UInt8 :=
  List.replicate n.spaces 0x20 ++ ((if n.negative then [0x2d] else []) ++ (n.digits ++ n.rest))

structure Longest (n : Numeral) : Prop where
  digits : ∀ b ∈ n.digits, IsDigit b
  rest : ∀ b ∈ n.rest.head?, ¬ IsDigit b
  unsigned : n.negative = false → ∀ b ∈ (n.digits ++ n.rest).head?, b ≠ 0x20 ∧ b ≠ 0x2d

def size (digits : List UInt8) : ℕ := Nat.ofDigits 10 (digits.reverse.map fun b => b.toNat - 48)

def value (n : Numeral) : ℤ := if n.negative then -size n.digits else size n.digits

theorem exists_run (p : UInt8 → Prop) [DecidablePred p] (bs : List UInt8) : ∃ front back,
    bs = front ++ back ∧ (∀ b ∈ front, p b) ∧ ∀ b ∈ back.head?, ¬ p b := by
  refine ⟨bs.takeWhile (p ·), bs.dropWhile (p ·), List.takeWhile_append_dropWhile.symm, ?_, ?_⟩
  · intro b hb
    simpa using List.mem_takeWhile_imp hb
  · intro b hb
    have hnot := List.head?_dropWhile_not (fun b => decide (p b)) bs
    rw [Option.mem_def.1 hb] at hnot
    simpa using hnot

theorem exists_longest (bs : List UInt8) : ∃ n : Numeral, n.Longest ∧ n.bytes = bs := by
  obtain ⟨front, back, rfl, hfront, hback⟩ := exists_run (· = 0x20) bs
  obtain ⟨k, rfl⟩ : ∃ k, front = List.replicate k 0x20 :=
    ⟨_, List.eq_replicate_iff.2 ⟨rfl, hfront⟩⟩
  by_cases hminus : back.head? = some 0x2d
  · obtain ⟨tail, rfl⟩ := List.head?_eq_some_iff.1 hminus
    obtain ⟨digits, rest, rfl, hdigits, hrest⟩ := exists_run IsDigit tail
    exact ⟨⟨k, true, digits, rest⟩, ⟨hdigits, hrest, nofun⟩, rfl⟩
  · obtain ⟨digits, rest, rfl, hdigits, hrest⟩ := exists_run IsDigit back
    refine ⟨⟨k, false, digits, rest⟩, ⟨hdigits, hrest, ?_⟩, rfl⟩
    rintro - b hb
    refine ⟨hback b hb, ?_⟩
    rintro rfl
    exact hminus hb

end Numeral

theorem value_ofAscii (digits : List UInt8) : value (Text.ofAscii digits) = Numeral.size digits := by
  have hdigit (n : ℕ) (b : UInt8) :
      10 * n + digitValue (Char.ofNat b.toNat) = b.toNat - 48 + 10 * n := by
    rw [digitValue, Text.toNat_ofByte, Nat.add_comm]
    rfl
  rw [Numeral.size, Nat.ofDigits_eq_foldr, List.map_reverse, List.foldr_reverse, List.foldl_map, value,
    Text.ofAscii, List.foldl_map]
  simp only [hdigit]
  rfl

theorem isDigit_of_mem_ofAscii {digits : List UInt8} (h : ∀ b ∈ digits, IsDigit b) :
    ∀ c ∈ Text.ofAscii digits, c.isDigit := by
  intro c hc
  obtain ⟨b, hb, rfl⟩ := List.mem_map.1 hc
  exact isDigit_ofByte.2 (h b hb)

theorem lt_of_isDigit {b : UInt8} (h : IsDigit b) : b < 0x80 := by
  rw [UInt8.lt_iff_toNat_lt]
  exact Nat.lt_of_le_of_lt (UInt8.le_iff_toNat_le.1 h.2) (by decide)

theorem head?_not_digit {cs : List Char} {rest : List UInt8}
    (h : ∀ b ∈ rest.head?, ¬ IsDigit b) (hcs : Text.bytes (String.ofList cs) = rest) :
    ∀ c ∈ cs.head?, c.isDigit = false := by
  intro c hc
  by_contra hdigit
  rw [Bool.not_eq_false] at hdigit
  have hle : c.toNat ≤ 57 := (isDigit_iff.1 hdigit).2
  have hmem : UInt8.ofNat c.toNat ∈ rest.head? := hcs ▸ Text.head?_bytes (by omega) hc
  have hmod : c.toNat % 256 = c.toNat := Nat.mod_eq_of_lt (by omega)
  apply h _ hmem
  rw [← isDigit_ofByte, UInt8.toNat_ofNat', hmod, Char.ofNat_toNat]
  exact hdigit

theorem leading_of_numeral {s : String} {n : Numeral} (hn : n.Longest) (h : n.bytes = Text.bytes s) :
    leading s = .ofInt n.value := by
  obtain ⟨k, negative, digits, rest⟩ := n
  obtain ⟨hdigits, hrest, hunsigned⟩ := hn
  have hascii : ∀ b ∈ digits, b < 0x80 := fun b hb => lt_of_isDigit (hdigits b hb)
  have hspaces : ∀ b ∈ List.replicate k (0x20 : UInt8), b < 0x80 := by
    intro b hb
    rw [List.eq_of_mem_replicate hb]
    decide
  have hblank : Text.ofAscii (List.replicate k 0x20) = List.replicate k ' ' := List.map_replicate
  have hchars : Text.bytes (String.ofList s.toList) = Numeral.bytes ⟨k, negative, digits, rest⟩ := by
    rw [String.ofList_toList, h]
  obtain ⟨cs, hcs, hback⟩ := Text.exists_of_bytes_append hspaces hchars
  rw [hblank] at hcs
  cases negative with
  | true =>
    have hminus : ∀ b ∈ (0x2d : UInt8) :: digits, b < 0x80 :=
      List.forall_mem_cons.2 ⟨by decide, hascii⟩
    obtain ⟨ds, rfl, hds⟩ := Text.exists_of_bytes_append hminus hback
    rw [leading_of_minus (isDigit_of_mem_ofAscii hdigits) (head?_not_digit hrest hds) hcs, wrapped_eq,
      value_ofAscii, ← Int64.ofInt_eq_ofNat, ← Int64.ofInt_neg]
    rfl
  | false =>
    have hhead : ∀ c ∈ cs.head?, c ≠ ' ' ∧ c ≠ '-' := by
      intro c hc
      constructor
      all_goals
        rintro rfl
        have hmem := Text.head?_bytes (by decide) hc
        rw [hback] at hmem
      · exact (hunsigned rfl _ hmem).1 rfl
      · exact (hunsigned rfl _ hmem).2 rfl
    obtain ⟨ds, rfl, hds⟩ := Text.exists_of_bytes_append hascii hback
    rw [leading_of_digits (isDigit_of_mem_ofAscii hdigits) (head?_not_digit hrest hds) hhead hcs,
      wrapped_eq, value_ofAscii, ← Int64.ofInt_eq_ofNat]
    rfl

end Decimal

namespace Caches

/-- Each text has such a cut, and its number is what is read, in 64 bits; and in every state that several
caches can reach, an integer is read from its string, with spaces in front and something else behind. -/
theorem integers_are_read_back :
    (∀ text : String, ∃ n : Decimal.Numeral, n.Longest ∧ n.bytes = Text.bytes text) ∧
    (∀ (text : String) (n : Decimal.Numeral), n.Longest → n.bytes = Text.bytes text →
      (Decimal.leading text).toInt = n.value.bmod (2 ^ 64)) ∧
    ∀ (uses : List Use) (k : ℕ) (c : Cache), (run uses).members[k]? = some c →
      ∀ s : State, s.workspace.strings = ⟨(run uses).supply, c⟩ → ∀ n : Int64,
        ∃ a t, (Action.toStr (.int n)).run s = (.ok a, t) ∧
          ∀ (spaces : ℕ) (tail : String), (∀ d ∈ tail.toList.head?, d.isDigit = false) →
            Decimal.leading (String.ofList (List.replicate spaces ' ') ++ a.text ++ tail) = n := by
  refine ⟨fun text => Decimal.Numeral.exists_longest _, ?_, ?_⟩
  · intro text n hn hbytes
    rw [Decimal.leading_of_numeral hn hbytes, Int64.toInt_ofInt]
    rfl
  · intro uses k c hc s hs n
    obtain ⟨E, hE⟩ := sound_run uses
    have hsound : s.workspace.strings.Sound E := hs ▸ hE.interner hc
    obtain ⟨a, t, -, ha, htext, -⟩ := Action.gives_toStr hsound (v := .int n) rfl trivial
    refine ⟨a, t, ha, ?_⟩
    intro spaces tail htail
    apply Decimal.leading_padded n spaces tail htail
    rw [htext, String.toList_append, String.toList_append, String.toList_ofList, List.append_assoc]

theorem integers_are_read_back_least :
    let s := run [.create {}]
    let n : Decimal.Numeral := ⟨1, false, Text.bytes "18446744073709551617", Text.bytes "-é"⟩
    n.Longest ∧ n.bytes = Text.bytes " 18446744073709551617-é" ∧
      (Decimal.leading " 18446744073709551617-é").toInt = 1 ∧
      ∃ c, s.members[0]? = some c ∧ ∃ a t,
        (Action.toStr (.int (-9223372036854775808))).run ⟨⟨⟨s.supply, c⟩, .empty, 0⟩, {}⟩ = (.ok a, t) ∧
          Decimal.leading (String.ofList (List.replicate 2 ' ') ++ a.text ++ "é1") =
            -9223372036854775808 := by
  intro s n
  have hn : n.Longest := ⟨by decide +kernel, by decide +kernel, by decide +kernel⟩
  have hbytes : n.bytes = Text.bytes " 18446744073709551617-é" := by decide
  obtain ⟨c, hc⟩ : ∃ c, s.members[0]? = some c := ⟨_, rfl⟩
  refine ⟨hn, hbytes, ?_, c, hc, ?_⟩
  · exact (integers_are_read_back.2.1 _ n hn hbytes).trans (by decide +kernel)
  · obtain ⟨a, t, hrun, hread⟩ := integers_are_read_back.2.2 _ 0 c hc ⟨⟨⟨s.supply, c⟩, .empty, 0⟩, {}⟩ rfl
      (-9223372036854775808)
    exact ⟨a, t, hrun, hread 2 "é1" (by simp)⟩

end Caches

end KnightLang
