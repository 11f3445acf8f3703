namespace KnightLang.Decimal

def ofNat (n : Nat) : String := String.ofList (Nat.toDigits 10 n)

def ofInt : Int → String
  | .ofNat n => ofNat n
  | .negSucc n => "-" ++ ofNat (n + 1)

def digitValue (c : Char) : Nat := c.toNat - '0'.toNat

def value (digits : List Char) : Nat := digits.foldl (fun n c => 10 * n + digitValue c) 0

def wrapped (digits : List Char) : Int64 :=
  digits.foldl (fun n c => n * 10 + Int64.ofNat (digitValue c)) 0

theorem wrapped_eq (digits : List Char) : wrapped digits = .ofNat (value digits) := by
  unfold wrapped value
  suffices h : ∀ n : Nat,
      digits.foldl (fun n c => n * 10 + Int64.ofNat (digitValue c)) (.ofNat n) =
        .ofNat (digits.foldl (fun n c => 10 * n + digitValue c) n) from h 0
  induction digits with
  | nil => simp
  | cons d ds ih =>
    intro n
    rw [List.foldl_cons, List.foldl_cons, ← ih, Int64.ofNat_add, Int64.ofNat_mul, Int64.mul_comm]
    rfl

/-- The integer at the head of a text: spaces, at most one minus sign, then digits as far as they go.
Anything else counts as no digits, and what follows has no influence. -/
def leading (s : String) : Int64 :=
  match s.toList.dropWhile (· = ' ') with
  | '-' :: rest => -wrapped (rest.takeWhile Char.isDigit)
  | rest => wrapped (rest.takeWhile Char.isDigit)

end KnightLang.Decimal
