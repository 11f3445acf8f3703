import KnightLang.Eval.Console
import Mathlib.Data.List.DropRight

namespace KnightLang

namespace Text

variable {bs : List UInt8} {text : String}

theorem bytes_of_decode? (h : decode? bs = some text) : bytes text = bs := by
  unfold decode? String.fromUTF8? at h
  split at h
  · obtain rfl := Option.some.inj h
    rfl
  · cases h

theorem bytes_ne_of_decode? (h : decode? bs = none) (text : String) : bytes text ≠ bs := by
  rintro rfl
  unfold decode? String.fromUTF8? at h
  split at h
  · cases h
  · rename_i hvalid
    exact hvalid text.isValidUTF8

def EndsLine (c : Char) : Prop := c = '\r' ∨ c = '\n'

theorem exists_dropLineEnd (s : String) : ∃ stop, s = dropLineEnd s ++ stop ∧
    (∀ c ∈ stop.toList, EndsLine c) ∧ ∀ c ∈ (dropLineEnd s).toList.getLast?, ¬ EndsLine c := by
  let p (c : Char) : Bool := c = '\r' || c = '\n'
  have hp (c : Char) : p c = true ↔ EndsLine c := by simp [p, EndsLine]
  have hdrop : (dropLineEnd s).toList = s.toList.rdropWhile p := String.toList_ofList
  refine ⟨String.ofList (s.toList.rtakeWhile p), ?_, fun c hc => ?_, fun c hc hend => ?_⟩
  · rw [← String.toList_inj, String.toList_append, hdrop, String.toList_ofList, List.rdropWhile,
      List.rtakeWhile, ← List.reverse_append, List.takeWhile_append_dropWhile, List.reverse_reverse]
  · rw [String.toList_ofList] at hc
    exact (hp c).1 (List.mem_rtakeWhile_imp hc)
  · rw [hdrop] at hc
    obtain ⟨hne, rfl⟩ := List.mem_getLast?_eq_getLast hc
    exact List.rdropWhile_last_not p _ hne ((hp _).2 hend)

end Text

namespace Input

/-- Bytes cut after each line feed. What is behind the last one is a line too, unless there is nothing. -/
def lines : List UInt8 → List (List UInt8)
  | [] => []
  | b :: bs =>
    if b = 10 then [b] :: lines bs
    else
      match lines bs with
      | [] => [[b]]
      | line :: rest => (b :: line) :: rest

theorem flatten_lines (bs : List UInt8) : (lines bs).flatten = bs := by
  induction bs with
  | nil => rfl
  | cons b bs ih =>
    unfold lines
    split
    · rw [List.flatten_cons, ih]
      rfl
    · split
      · rename_i hnil
        rw [hnil] at ih
        rw [← ih]
        rfl
      · rename_i line rest hcons
        rw [hcons] at ih
        rw [← ih]
        rfl

theorem lines_append_lineFeed {body : List UInt8} (h : 10 ∉ body) (rest : List UInt8) :
    lines (body ++ 10 :: rest) = (body ++ [10]) :: lines rest := by
  induction body with
  | nil => rfl
  | cons b body ih =>
    rw [List.mem_cons, not_or] at h
    rw [List.cons_append, lines, if_neg (Ne.symm h.1), ih h.2]
    rfl

theorem lines_of_notMem {bs : List UInt8} (h : 10 ∉ bs) (hne : bs ≠ []) : lines bs = [bs] := by
  induction bs with
  | nil => exact absurd rfl hne
  | cons b bs ih =>
    rw [List.mem_cons, not_or] at h
    rw [lines, if_neg (Ne.symm h.1)]
    cases bs with
    | nil => rfl
    | cons c bs => rw [ih h.2 (List.cons_ne_nil _ _)]

theorem notMem_of_splitLine? {bs : List UInt8} (h : splitLine? bs = none) : 10 ∉ bs := by
  unfold splitLine? at h
  split at h
  · rename_i hd
    intro hmem
    exact absurd (List.dropWhile_eq_nil_iff.1 hd 10 hmem) (by simp)
  · cases h

theorem exists_body_of_splitLine? {bs line rest : List UInt8} (h : splitLine? bs = some (line, rest)) :
    ∃ body, line = body ++ [10] ∧ 10 ∉ body := by
  unfold splitLine? at h
  split at h
  · cases h
  · rename_i stop tail hd
    obtain ⟨rfl, rfl⟩ := Prod.mk.inj (Option.some.inj h)
    have hstop : stop = 10 := by
      have hhead := List.head?_dropWhile_not (fun b : UInt8 => decide (b ≠ 10)) bs
      rw [hd] at hhead
      simpa using hhead
    refine ⟨bs.takeWhile (· ≠ 10), by rw [hstop], fun hmem => ?_⟩
    simpa using List.mem_takeWhile_imp hmem

theorem takeLine_cases (line held : List UInt8) (pieces : List (List UInt8)) (h : 10 ∉ line) :
    (∃ body, (takeLine line held pieces).1 = body ++ [10] ∧ 10 ∉ body) ∨
      10 ∉ (takeLine line held pieces).1 ∧ (takeLine line held pieces).2 = ([], []) := by
  fun_induction takeLine line held pieces with
  | case1 pieces line held last rest hs =>
    obtain ⟨body, rfl, hbody⟩ := exists_body_of_splitLine? hs
    refine .inl ⟨line ++ body, (List.append_assoc ..).symm, ?_⟩
    rw [List.mem_append]
    exact not_or.2 ⟨h, hbody⟩
  | case2 line held hs =>
    refine .inr ⟨?_, rfl⟩
    rw [List.mem_append]
    exact not_or.2 ⟨h, notMem_of_splitLine? hs⟩
  | case3 line held hs piece pieces ih =>
    apply ih
    rw [List.mem_append]
    exact not_or.2 ⟨h, notMem_of_splitLine? hs⟩

variable {i : Input}

theorem readLine_eq (h : i.failure = none) : i.readLine =
    (.ok (takeLine [] i.ahead i.pieces).1,
      { i with
        ahead := (takeLine [] i.ahead i.pieces).2.1
        pieces := (takeLine [] i.ahead i.pieces).2.2 }) := by
  simp only [readLine, h]
  split <;> rfl

theorem readLine_cases (h : i.failure = none) : ∃ line j, i.readLine = (.ok line, j) ∧
    j.failure = none ∧
    (line = [] ∧ lines i.content = [] ∧ lines j.content = [] ∨
      line ≠ [] ∧ lines i.content = line :: lines j.content) := by
  have hcases := takeLine_cases [] i.ahead i.pieces List.not_mem_nil
  have happend := takeLine_append [] i.ahead i.pieces
  rw [readLine_eq h]
  refine ⟨_, _, rfl, h, ?_⟩
  generalize takeLine [] i.ahead i.pieces = r at hcases happend ⊢
  obtain ⟨line, ahead, pieces⟩ := r
  have hcontent : i.content = line ++ (ahead ++ pieces.flatten) := by
    rw [content, ← List.append_assoc, happend, List.nil_append]
  rw [hcontent]
  rcases hcases with ⟨body, rfl, hbody⟩ | ⟨hline, hrest⟩
  · refine .inr ⟨by simp, ?_⟩
    rw [List.append_assoc]
    exact lines_append_lineFeed hbody _
  · obtain ⟨rfl, rfl⟩ := Prod.mk.inj hrest
    by_cases hne : line = []
    · subst hne
      exact .inl ⟨rfl, rfl, rfl⟩
    · refine .inr ⟨hne, ?_⟩
      rw [List.flatten_nil, List.append_nil, List.append_nil]
      exact lines_of_notMem hline hne

/-- An input is used up to another one, for these, line by line, and no more. -/
structure Yields {α : Type} (fits : Option (List UInt8) → α → Prop) (i : Input) (xs : List α)
    (j : Input) : Prop where
  fits {k : Nat} {x : α} : xs[k]? = some x → fits (lines i.content)[k]? x
  left : lines j.content = (lines i.content).drop xs.length
  failure : j.failure = none

namespace Yields

variable {α β : Type} {fits : Option (List UInt8) → α → Prop} {i j k : Input} {xs ys : List α}

theorem refl (h : i.failure = none) : i.Yields fits [] i := ⟨nofun, rfl, h⟩

theorem one {x : α} (hx : fits (lines i.content).head? x)
    (hl : lines j.content = (lines i.content).tail) (h : j.failure = none) : i.Yields fits [x] j where
  fits {k y} hk := by
    cases k with
    | zero =>
      obtain rfl := Option.some.inj hk
      rwa [List.head?_eq_getElem?] at hx
    | succ k => cases hk
  left := hl.trans List.drop_one.symm
  failure := h

theorem trans (h : i.Yields fits xs j) (h' : j.Yields fits ys k) : i.Yields fits (xs ++ ys) k where
  fits {n x} hn := by
    rw [List.getElem?_append] at hn
    split at hn
    · exact h.fits hn
    · rename_i hle
      have hx := h'.fits hn
      rw [h.left, List.getElem?_drop, Nat.add_sub_cancel' (Nat.not_lt.1 hle)] at hx
      exact hx
  left := by rw [h'.left, h.left, List.drop_drop, List.length_append]
  failure := h'.failure

theorem map {fits' : Option (List UInt8) → β → Prop} {f : α → β} (h : i.Yields fits xs j)
    (hf : ∀ line? x, fits line? x → fits' line? (f x)) : i.Yields fits' (xs.map f) j where
  fits {n y} hn := by
    rw [List.getElem?_map, Option.map_eq_some_iff] at hn
    obtain ⟨x, hx, rfl⟩ := hn
    apply hf
    exact h.fits hx
  left := by rw [h.left, List.length_map]
  failure := h.failure

theorem content_suffix (h : i.Yields fits xs j) : j.content <:+ i.content := by
  rw [← flatten_lines j.content, ← flatten_lines i.content, h.left]
  refine ⟨((lines i.content).take xs.length).flatten, ?_⟩
  rw [← List.flatten_append, List.take_append_drop]

end Yields

end Input

inductive Reads : Option (List UInt8) → Except Failure (Option String) → Prop
  | text {text stop : String} (hstop : ∀ c ∈ stop.toList, Text.EndsLine c)
      (hlast : ∀ c ∈ text.toList.getLast?, ¬ Text.EndsLine c) :
      Reads (some (Text.bytes (text ++ stop))) (.ok (some text))
  | invalid {line : List UInt8} (h : ∀ text, Text.bytes text ≠ line) :
      Reads (some line) (.error .invalidText)
  | done : Reads none (.ok none)

namespace Console

def lineText (line : List UInt8) : Except Failure (Option String) :=
  match Text.decode? line with
  | none => .error .invalidText
  | some text => .ok (some (Text.dropLineEnd text))

theorem reads_lineText (line : List UInt8) : Reads (some line) (lineText line) := by
  unfold lineText
  cases hd : Text.decode? line with
  | none => exact .invalid (Text.bytes_ne_of_decode? hd)
  | some text =>
    obtain ⟨stop, htext, hstop, hlast⟩ := Text.exists_dropLineEnd text
    have hr := Reads.text hstop hlast
    rwa [← htext, Text.bytes_of_decode? hd] at hr

variable {c : Console} {i : Input}

theorem readLine_of_nil (h : c.input.readLine = (.ok [], i)) : readLine.run c =
    (.ok none, { c with input := i, events := .lineRead c.output.written.size :: c.events }) := by
  simp only [readLine, ExceptT.run, h]

theorem readLine_of_ne_nil {line : List UInt8} (h : c.input.readLine = (.ok line, i))
    (hne : line ≠ []) : readLine.run c =
    (lineText line, { c with input := i, events := .lineRead c.output.written.size :: c.events }) := by
  simp only [readLine, ExceptT.run, h]
  cases line with
  | nil => exact absurd rfl hne
  | cons b line => rfl

theorem readLine_reads (h : c.input.failure = none) : ∃ r d, readLine.run c = (r, d) ∧
    Reads (Input.lines c.input.content).head? r ∧
    Input.lines d.input.content = (Input.lines c.input.content).tail ∧ d.input.failure = none := by
  obtain ⟨line, i, hread, hfailure, ⟨rfl, hnil, hnil'⟩ | ⟨hne, hcons⟩⟩ := Input.readLine_cases h
  · refine ⟨_, _, readLine_of_nil hread, ?_, ?_, hfailure⟩
    · rw [hnil]
      exact .done
    · rw [hnil]
      exact hnil'
  · refine ⟨_, _, readLine_of_ne_nil hread hne, ?_, ?_, hfailure⟩
    · rw [hcons]
      exact reads_lineText line
    · rw [hcons]
      rfl

end Console

end KnightLang
