namespace KnightLang.Text

def bytes (s : String) : List UInt8 := s.toByteArray.data.toList

def byteLength (cs : List Char) : Nat := cs.foldl (fun n c => n + c.utf8Size) 0

theorem foldl_utf8Size (cs : List Char) (n : Nat) :
    cs.foldl (fun n c => n + c.utf8Size) n = n + byteLength cs := by
  induction cs generalizing n with
  | nil => rfl
  | cons c cs ih => rw [byteLength, List.foldl_cons, List.foldl_cons, ih, ih (0 + _)]; omega

@[simp] theorem byteLength_nil : byteLength [] = 0 := rfl

@[simp] theorem byteLength_cons (c : Char) (cs : List Char) :
    byteLength (c :: cs) = c.utf8Size + byteLength cs := by
  rw [byteLength, List.foldl_cons, foldl_utf8Size, Nat.zero_add]

@[simp] theorem byteLength_append (cs ds : List Char) :
    byteLength (cs ++ ds) = byteLength cs + byteLength ds := by
  rw [byteLength, List.foldl_append, foldl_utf8Size]; rfl

theorem utf8ByteSize_ofList (cs : List Char) :
    (String.ofList cs).utf8ByteSize = byteLength cs := by
  induction cs with
  | nil => simp
  | cons c cs ih =>
    have h : String.ofList (c :: cs) = String.singleton c ++ String.ofList cs := by simp
    rw [h, String.utf8ByteSize_append, ih, String.utf8ByteSize_singleton, byteLength_cons]

theorem byteLength_toList (s : String) : byteLength s.toList = s.utf8ByteSize := by
  rw [← utf8ByteSize_ofList, String.ofList_toList]

/-- The part of a text between two byte offsets, if they are in order and neither splits a character. -/
def slice? (s : String) (start stop : Nat) : Option String :=
  match s.pos? ⟨start⟩, s.pos? ⟨stop⟩ with
  | some p, some q => if start ≤ stop then some (s.extract p q) else none
  | _, _ => none

theorem pos?_eq_some_iff {s : String} {i : Nat} {p : s.Pos} :
    s.pos? ⟨i⟩ = some p ↔ p.offset = ⟨i⟩ := by
  unfold String.pos? String.Slice.pos?
  split
  · rw [Option.map_some, Option.some.injEq]
    constructor
    · rintro rfl
      simp [String.Pos.offset_ofToSlice]
    · intro hi
      exact String.Pos.ext (by simp [String.Pos.offset_ofToSlice, hi])
  · rename_i h
    simp only [Option.map_none, reduceCtorEq, false_iff]
    intro hi
    apply h
    rw [String.Pos.Raw.isValidForSlice_eq_true_iff, String.Pos.Raw.isValidForSlice_toSlice_iff,
      ← hi]
    exact p.isValid

theorem slice?_append (head t tail : String) :
    slice? (head ++ t ++ tail) head.utf8ByteSize (head.utf8ByteSize + t.utf8ByteSize) =
      some t := by
  have hp : (⟨head.utf8ByteSize⟩ : String.Pos.Raw).IsValid (head ++ t ++ tail) :=
    String.Pos.Raw.isValid_iff_exists_append.2 ⟨head, t ++ tail, String.append_assoc, rfl⟩
  have hq : (⟨head.utf8ByteSize + t.utf8ByteSize⟩ : String.Pos.Raw).IsValid (head ++ t ++ tail) :=
    String.Pos.Raw.isValid_iff_exists_append.2
      ⟨head ++ t, tail, rfl, by simp [String.Pos.Raw.ext_iff, String.utf8ByteSize_append]⟩
  have hp' := (pos?_eq_some_iff (p := String.pos _ _ hp)).2 rfl
  have hq' := (pos?_eq_some_iff (p := String.pos _ _ hq)).2 rfl
  simp only [slice?, hp', hq', Nat.le_add_right, if_true, Option.some.injEq]
  rw [← String.toByteArray_inj, String.toByteArray_extract]
  change (head ++ t ++ tail).toByteArray.extract head.utf8ByteSize
    (head.utf8ByteSize + t.utf8ByteSize) = t.toByteArray
  rw [String.append_assoc, String.toByteArray_append, String.toByteArray_append,
    ByteArray.extract_append, ByteArray.extract_eq_empty_iff.2 (by simp), ByteArray.empty_append,
    String.size_toByteArray, Nat.sub_self, Nat.add_sub_cancel_left,
    ByteArray.extract_append_eq_left String.size_toByteArray.symm]

theorem eq_append_of_slice? {s t : String} {i j : Nat} (h : slice? s i j = some t) :
    ∃ head tail, s = head ++ t ++ tail ∧ head.utf8ByteSize = i ∧ i + t.utf8ByteSize = j := by
  unfold slice? at h
  split at h
  · rename_i p q hp hq
    rw [pos?_eq_some_iff] at hp hq
    split at h
    · rename_i hij
      obtain rfl := Option.some.inj h
      have hj : j ≤ s.utf8ByteSize := by
        simpa [hq, String.Pos.Raw.le_iff] using q.isValid.le_rawEndPos
      refine ⟨s.extract s.startPos p, s.extract q s.endPos, ?_, ?_, ?_⟩
      · rw [← String.toByteArray_inj]
        simp only [String.toByteArray_append, String.toByteArray_extract, hp, hq,
          String.offset_startPos, String.offset_endPos, String.byteIdx_rawEndPos]
        rw [ByteArray.extract_append_extract, String.Pos.Raw.byteIdx_zero, Nat.zero_min,
          Nat.max_eq_right hij, ByteArray.extract_append_extract, Nat.zero_min,
          Nat.max_eq_right hj, ← String.size_toByteArray, ByteArray.extract_zero_size]
      · rw [← String.size_toByteArray, String.toByteArray_extract]
        simp [hp]
        omega
      · rw [← String.size_toByteArray, String.toByteArray_extract]
        simp [hp, hq]
        omega
    · simp at h
  · simp at h

theorem slice?_eq_some_iff {s t : String} {i j : Nat} :
    slice? s i j = some t ↔
      ∃ head tail, s = head ++ t ++ tail ∧ head.utf8ByteSize = i ∧ i + t.utf8ByteSize = j := by
  constructor
  · exact eq_append_of_slice?
  · rintro ⟨head, tail, rfl, rfl, rfl⟩
    exact slice?_append head t tail

def decode? (bs : List UInt8) : Option String := String.fromUTF8? ⟨bs.toArray⟩

structure Started where
  needed : Nat
  least : UInt8
  greatest : UInt8
  code : Nat

def begin (b : UInt8) : Char ⊕ Option Started :=
  if b < 0x80 then .inl (Char.ofNat b.toNat)
  else if b < 0xc2 then .inr none
  else if b < 0xe0 then .inr (some ⟨1, 0x80, 0xbf, b.toNat - 0xc0⟩)
  else if b < 0xf0 then
    .inr (some ⟨2, if b = 0xe0 then 0xa0 else 0x80, if b = 0xed then 0x9f else 0xbf, b.toNat - 0xe0⟩)
  else if b < 0xf5 then
    .inr (some ⟨3, if b = 0xf0 then 0x90 else 0x80, if b = 0xf4 then 0x8f else 0xbf, b.toNat - 0xf0⟩)
  else .inr none

def replacement : Char := '\ufffd'

/-- Decodes with one replacement character for each longest run of bytes that begins a character and
cannot be continued, and for each byte that begins none. -/
def decodeFrom (text : String) : Option Started → List UInt8 → String
  | none, [] => text
  | some _, [] => text.push replacement
  | some p, b :: bs =>
    if p.least ≤ b ∧ b ≤ p.greatest then
      let code := p.code * 64 + (b.toNat - 0x80)
      if p.needed = 1 then decodeFrom (text.push (Char.ofNat code)) none bs
      else decodeFrom text (some ⟨p.needed - 1, 0x80, 0xbf, code⟩) bs
    else
      let text := text.push replacement
      match begin b with
      | .inl c => decodeFrom (text.push c) none bs
      | .inr none => decodeFrom (text.push replacement) none bs
      | .inr (some q) => decodeFrom text (some q) bs
  | none, b :: bs =>
    match begin b with
    | .inl c => decodeFrom (text.push c) none bs
    | .inr none => decodeFrom (text.push replacement) none bs
    | .inr (some q) => decodeFrom text (some q) bs

def decodeLossy (bs : List UInt8) : String := decodeFrom "" none bs

end KnightLang.Text
