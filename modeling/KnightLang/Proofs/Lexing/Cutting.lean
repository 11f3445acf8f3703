import KnightLang.Proofs.Lexing.Spelling

/-!
How a source is cut into tokens, as a relation. Main statements: reading tokens computes it, and where
there is no cut, there is one up to the character that cannot be read.
-/
namespace KnightLang.Token

open Text (byteLength)

/-- The characters from byte `n` on are these lexemes, each as long as can be, and between them layout. -/
inductive Cuts : Nat → List Char → List Lexeme → Prop
  | nil (n : Nat) : Cuts n [] []
  | separator {n : Nat} {c : Char} {cs : List Char} {ls : List Lexeme} (hc : isSeparator c)
      (h : Cuts (n + 1) cs ls) : Cuts n (c :: cs) ls
  | comment {n : Nat} {body rest : List Char} {ls : List Lexeme} (hb : '\n' ∉ body)
      (hr : ∀ c ∈ rest.head?, c = '\n') (h : Cuts (n + 1 + byteLength body) rest ls) :
      Cuts n ('#' :: (body ++ rest)) ls
  | token {n : Nat} {s rest : List Char} {t : Token} {ls : List Lexeme} (hs : Spells s t)
      (hl : Longest s rest) (h : Cuts (n + byteLength s) rest ls) :
      Cuts n (s ++ rest) (⟨t, ⟨n, n + byteLength s⟩⟩ :: ls)

def Stray (c : Char) : Prop :=
  isSeparator c = Bool.false ∧ c ≠ '#' ∧ ∀ cs t, ¬ Spells (c :: cs) t

inductive Fault (n : Nat) : List Char → CompileError → Prop
  | unclosed {q : Char} {cs : List Char} (hq : isQuote q) (h : q ∉ cs) :
      Fault n (q :: cs) (.unterminatedString ⟨n, n + byteLength (q :: cs)⟩)
  | stray {c : Char} {cs : List Char} (h : Stray c) :
      Fault n (c :: cs) (.unexpectedCharacter c ⟨n, n + c.utf8Size⟩)

inductive Scans (n : Nat) (cs : List Char) : Except CompileError (List Lexeme) → Prop
  | ok {ls : List Lexeme} (h : Cuts n cs ls) : Scans n cs (.ok ls)
  | error {before rest : List Char} {ls : List Lexeme} {e : CompileError} (hcs : cs = before ++ rest)
      (h : Cuts n before ls) (he : Fault (n + byteLength before) rest e) : Scans n cs (.error e)

section

variable {n : Nat} {c q : Char} {s cs rest before body : List Char} {t : Token} {ls : List Lexeme}
  {r : Except CompileError (List Lexeme)}

theorem Longest.anti (h : Longest s rest) (hb : before <+: rest) : Longest s before := by
  intro more t hm hp
  exact h more t hm (hp.trans hb)

theorem utf8Size_of_isSeparator (h : isSeparator c) : c.utf8Size = 1 := by
  rw [isSeparator_iff] at h
  fin_cases h <;> rfl

theorem utf8Size_of_isQuote (h : isQuote q) : q.utf8Size = 1 := by
  rw [isQuote_iff] at h
  fin_cases h <;> rfl

theorem byteLength_comment (body : List Char) : byteLength ('#' :: body) = 1 + byteLength body :=
  Text.byteLength_cons '#' body

theorem byteLength_quoted (h : isQuote q) (cs : List Char) :
    byteLength (q :: (cs ++ [q])) = 1 + byteLength cs + 1 := by
  simp only [Text.byteLength_cons, Text.byteLength_append, utf8Size_of_isQuote h, Text.byteLength_nil]
  omega

theorem byteLength_of_run (ht : ofRun? c cs = some t) (h : ∀ d ∈ cs, continues c d) :
    byteLength (c :: cs) = 1 + cs.length := by
  rw [Text.byteLength_cons, (isPlain_of_ofRun? ht).2, byteLength_run h]

namespace Scans

theorem separator (hc : isSeparator c) (h : Scans (n + 1) cs r) : Scans n (c :: cs) r := by
  cases h with
  | ok h => exact .ok (.separator hc h)
  | @error before rest ls e hcs h he =>
    subst hcs
    have hcut : c :: (before ++ rest) = (c :: before) ++ rest := rfl
    apply error hcut (.separator hc h)
    rwa [Text.byteLength_cons, utf8Size_of_isSeparator hc, ← Nat.add_assoc]

theorem comment (hb : '\n' ∉ body) (hr : ∀ c ∈ rest.head?, c = '\n')
    (h : Scans (n + 1 + byteLength body) rest r) : Scans n ('#' :: (body ++ rest)) r := by
  cases h with
  | ok h => exact .ok (.comment hb hr h)
  | @error before rest ls e hcs h he =>
    subst hcs
    have hcut : '#' :: (body ++ (before ++ rest)) = ('#' :: (body ++ before)) ++ rest := by simp
    have hr' : ∀ c ∈ before.head?, c = '\n' := by
      intro c hc
      apply hr
      rw [Option.mem_def, List.head?_append, hc]
      rfl
    apply error hcut (.comment hb hr' h)
    rwa [byteLength_comment, Text.byteLength_append, ← Nat.add_assoc, ← Nat.add_assoc]

theorem token (hs : Spells s t) (hl : Longest s rest) (h : Scans (n + byteLength s) rest r) :
    Scans n (s ++ rest) (r.map (⟨t, ⟨n, n + byteLength s⟩⟩ :: ·)) := by
  cases h with
  | ok h => exact .ok (.token hs hl h)
  | @error before rest ls e hcs h he =>
    subst hcs
    apply error (List.append_assoc s before rest).symm
    · exact .token hs (hl.anti (List.prefix_append _ _)) h
    · rwa [Text.byteLength_append, ← Nat.add_assoc]

end Scans

theorem stray_of_ofChars? (hs : isSeparator c = Bool.false) (hh : c ≠ '#')
    (hq : isQuote c = Bool.false) (h : ofChars? c cs = none) : Stray c := by
  refine ⟨hs, hh, ?_⟩
  intro ds t hd
  rcases hd.quoted_or_run with ⟨hq', -⟩ | ⟨hr, -⟩
  · simp [hq] at hq'
  · simp [ofRun?_of_ofChars? h] at hr

theorem drop_length_takeWhile (p : Char → Bool) (cs : List Char) :
    cs.drop (cs.takeWhile p).length = cs.dropWhile p := by
  calc cs.drop (cs.takeWhile p).length
    _ = (cs.takeWhile p ++ cs.dropWhile p).drop (cs.takeWhile p).length := by
      rw [List.takeWhile_append_dropWhile]
    _ = cs.dropWhile p := List.drop_left

theorem notMem_takeWhile (q : Char) (cs : List Char) : q ∉ cs.takeWhile (· ≠ q) := by
  intro h
  simpa using List.mem_takeWhile_imp h

theorem head?_dropWhile (q : Char) (cs : List Char) :
    ∀ d ∈ (cs.dropWhile (· ≠ q)).head?, d = q := by
  intro d hd
  have hn := List.head?_dropWhile_not (fun x => decide (x ≠ q)) cs
  rw [Option.mem_def.1 hd] at hn
  simpa using hn

theorem scans_scanFrom (n : Nat) (found : Array Lexeme) (cs : List Char) :
    ∃ r, Scans n cs r ∧ scanFrom n found cs = r.map (found.toList ++ ·) := by
  have push {found : Array Lexeme} {l : Lexeme} (r : Except CompileError (List Lexeme)) :
      r.map ((found.push l).toList ++ ·) = (r.map (l :: ·)).map (found.toList ++ ·) := by
    cases r <;> simp [Except.map]
  -- where reading fails, nothing is cut yet; each case before puts its own part in front
  fun_induction scanFrom n found cs with
  | case1 n found =>
    refine ⟨.ok [], .ok (.nil n), ?_⟩
    simp [Except.map]
  | case2 n found c cs hc ih =>
    obtain ⟨r, hr, h⟩ := ih
    exact ⟨r, hr.separator hc, h⟩
  | case3 n found cs hc ih =>
    obtain ⟨r, hr, h⟩ := ih
    refine ⟨r, ?_, h⟩
    have hs := Scans.comment (notMem_takeWhile '\n' cs) (head?_dropWhile '\n' cs) hr
    rwa [List.takeWhile_append_dropWhile] at hs
  | case4 n found c cs hc hh hq content stop h =>
    rw [drop_length_takeWhile, List.dropWhile_eq_nil_iff] at h
    have hn : c ∉ cs := by
      intro hm
      simpa using h c hm
    have hcontent : content = cs := List.takeWhile_eq_self_iff.2 h
    refine ⟨_, .error (List.nil_append _).symm (.nil n) (.unclosed hq hn), ?_⟩
    simp only [Except.map, stop, hcontent, Text.byteLength_cons, utf8Size_of_isQuote hq,
      Text.byteLength_nil, Nat.add_zero, Nat.add_assoc]
  | case5 n found c cs hc hh hq content stop d rest h ih =>
    obtain ⟨r, hr, hscan⟩ := ih
    rw [drop_length_takeWhile] at h
    obtain rfl : d = c := head?_dropWhile c cs d (by rw [h]; rfl)
    have hcs : cs = content ++ d :: rest := by rw [← h, List.takeWhile_append_dropWhile]
    have hs : Spells (d :: (content ++ [d])) (.text (String.ofList content)) :=
      .text hq (notMem_takeWhile d cs)
    have hsize : n + byteLength (d :: (content ++ [d])) = stop + 1 := by
      rw [byteLength_quoted hq, ← Nat.add_assoc, ← Nat.add_assoc]
    have htoken := Scans.token (n := n) hs (longest_text hq) (hsize ▸ hr)
    rw [hsize] at htoken
    refine ⟨_, ?_, hscan.trans (push r)⟩
    simpa [← hcs] using htoken
  | case6 n found c cs hc hh hq h =>
    have hstray : Stray c :=
      stray_of_ofChars? (eq_false_of_ne_true hc) hh (eq_false_of_ne_true hq) h
    exact ⟨_, .error (List.nil_append _).symm (.nil n) (.stray hstray), rfl⟩
  | case7 n found c cs hc hh hq t taken h stop ih =>
    obtain ⟨r, hr, hscan⟩ := ih
    obtain ⟨ht, hall, rest, hcs, hrest⟩ := run_of_ofChars? h
    have hdrop : cs.drop taken.length = rest := by rw [hcs, List.drop_left]
    have hsize : n + byteLength (c :: taken) = stop := by
      rw [byteLength_of_run ht hall, ← Nat.add_assoc]
    have hl := (longest_run_iff ht hall).2 hrest
    rw [hdrop, ← hsize] at hr
    have htoken := hr.token (spells_of_run ht hall) hl
    rw [hsize, List.cons_append, ← hcs] at htoken
    exact ⟨_, htoken, hscan.trans (push r)⟩

theorem takeWhile_append_eq {p : Char → Bool} (h : ∀ d ∈ cs, p d)
    (hr : ∀ d ∈ rest.head?, p d = Bool.false) :
    (cs ++ rest).takeWhile p = cs ∧ (cs ++ rest).dropWhile p = rest := by
  rw [List.takeWhile_append_of_pos h, List.dropWhile_append_of_pos h]
  cases rest with
  | nil => simp
  | cons d ds =>
    have hd : p d = Bool.false := hr d rfl
    simp [hd]

theorem takeWhile_until (hq : q ∉ cs) (hr : ∀ d ∈ rest.head?, d = q) :
    (cs ++ rest).takeWhile (· ≠ q) = cs ∧ (cs ++ rest).dropWhile (· ≠ q) = rest := by
  apply takeWhile_append_eq
  · intro d hd
    rw [decide_eq_true_eq]
    rintro rfl
    exact hq hd
  · intro d hd
    simp [hr d hd]

theorem scanFrom_comment (hb : '\n' ∉ body) (hr : ∀ c ∈ rest.head?, c = '\n') (n : Nat)
    (found : Array Lexeme) : scanFrom n found ('#' :: (body ++ rest)) =
      scanFrom (n + 1 + byteLength body) found rest := by
  obtain ⟨ht, hd⟩ := takeWhile_until hb hr
  rw [scanFrom, if_neg (by decide), if_pos rfl, ht, hd]

theorem scanFrom_text (hq : isQuote q) (hn : q ∉ cs) (n : Nat) (found : Array Lexeme)
    (rest : List Char) : scanFrom n found (q :: (cs ++ [q]) ++ rest) =
      scanFrom (n + byteLength (q :: (cs ++ [q])))
        (found.push ⟨.text (String.ofList cs), n, n + byteLength (q :: (cs ++ [q]))⟩) rest := by
  obtain ⟨c, _, hcons, hs, hh⟩ := (Spells.text hq hn).exists_cons
  obtain ⟨rfl, -⟩ := List.cons.inj hcons
  have hrest : ∀ d ∈ (q :: rest).head?, d = q := by simp
  obtain ⟨ht, hd⟩ := takeWhile_until hn hrest
  have hcs : cs ++ [q] ++ rest = cs ++ q :: rest := by simp
  have hsize : n + byteLength (q :: (cs ++ [q])) = n + 1 + byteLength cs + 1 := by
    rw [byteLength_quoted hq, ← Nat.add_assoc, ← Nat.add_assoc]
  rw [List.cons_append, hcs, scanFrom, if_neg (by simp [hs]), if_neg hh, if_pos hq, hsize]
  dsimp only
  split
  · rename_i hdrop
    rw [drop_length_takeWhile, hd] at hdrop
    cases hdrop
  · rename_i e rest' hdrop
    rw [drop_length_takeWhile, hd] at hdrop
    obtain ⟨rfl, rfl⟩ := List.cons.inj hdrop
    rw [ht]

theorem scanFrom_run (ht : ofRun? c cs = some t) (hall : ∀ d ∈ cs, continues c d)
    (hrest : ∀ d ∈ rest.head?, continues c d = Bool.false) (n : Nat) (found : Array Lexeme) :
    scanFrom n found (c :: cs ++ rest) = scanFrom (n + byteLength (c :: cs))
      (found.push ⟨t, n, n + byteLength (c :: cs)⟩) rest := by
  obtain ⟨hs, hh, hq⟩ := (isPlain_of_ofRun? ht).1
  have hchars : ofChars? c (cs ++ rest) = some (t, cs) := by
    rw [ofChars?_eq, (takeWhile_append_eq hall hrest).1, ht]
    rfl
  have hsize : n + byteLength (c :: cs) = n + 1 + cs.length := by
    rw [byteLength_of_run ht hall, ← Nat.add_assoc]
  rw [List.cons_append, scanFrom, if_neg (by simp [hs]), if_neg hh, if_neg (by simp [hq]), hchars,
    hsize]
  dsimp only
  rw [List.drop_left]

theorem scanFrom_token (hs : Spells s t) (hl : Longest s rest) (n : Nat) (found : Array Lexeme) :
    scanFrom n found (s ++ rest) =
      scanFrom (n + byteLength s) (found.push ⟨t, n, n + byteLength s⟩) rest := by
  obtain ⟨c, cs, rfl, -⟩ := hs.exists_cons
  rcases hs.quoted_or_run with ⟨hq, content, rfl, hn, rfl⟩ | ⟨ht, hall⟩
  · exact scanFrom_text hq hn n found rest
  · exact scanFrom_run ht hall ((longest_run_iff ht hall).1 hl) n found

theorem Cuts.scanFrom_eq (h : Cuts n cs ls) (found : Array Lexeme) :
    scanFrom n found cs = .ok (found.toList ++ ls) := by
  induction h generalizing found with
  | nil n =>
    rw [scanFrom]
    simp
  | separator hc h ih => rw [scanFrom, if_pos hc, ih]
  | comment hb hr h ih => rw [scanFrom_comment hb hr, ih]
  | token hs hl h ih =>
    rw [scanFrom_token hs hl, ih]
    simp

end

theorem scans_scan (source : String) : Scans 0 source.toList (scan source) := by
  obtain ⟨r, hr, h⟩ := scans_scanFrom 0 #[] source.toList
  have hid : r.map (#[].toList ++ ·) = r := by cases r <;> rfl
  rw [scan, h, hid]
  exact hr

theorem scan_eq_ok_iff {source : String} {ls : List Lexeme} :
    scan source = .ok ls ↔ Cuts 0 source.toList ls := by
  constructor
  · intro h
    have hs := scans_scan source
    rw [h] at hs
    cases hs with
    | ok h => exact h
  · intro h
    have hs := h.scanFrom_eq #[]
    rwa [List.nil_append] at hs

end KnightLang.Token
