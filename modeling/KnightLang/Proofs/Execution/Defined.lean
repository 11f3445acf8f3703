import KnightLang.Eval.Builtins
import KnightLang.Eval.Arithmetic
import KnightLang.Proofs.Strings.Content

/-!
Operations that are not defined for all operands. A quotient and a remainder need a divisor, a
difference needs to be none below zero, and a text can be cut only between characters. Here the actions
that use them do something of their own, `undefined`, where they are not defined. Main statements: it
makes no difference what that is.
-/
namespace KnightLang

namespace Text

theorem dropLineEnd_append (line : String) : ∃ tail, dropLineEnd line ++ tail = line := by
  have htail := List.takeWhile_append_dropWhile (p := fun c => decide (c = '\r') || decide (c = '\n'))
    (l := line.toList.reverse)
  refine ⟨String.ofList (line.toList.reverse.takeWhile
    fun c => decide (c = '\r') || decide (c = '\n')).reverse, ?_⟩
  rw [dropLineEnd, ← String.ofList_append, ← List.reverse_append, htail, List.reverse_reverse,
    String.ofList_toList]

theorem slice?_dropLineEnd (line : String) :
    slice? line 0 (dropLineEnd line).utf8ByteSize = some (dropLineEnd line) := by
  obtain ⟨tail, ht⟩ := dropLineEnd_append line
  have hs := slice?_append "" (dropLineEnd line) tail
  simpa [ht] using hs

end Text

namespace Action

variable (undefined : {α : Type} → Action α)

def quotientOr (a b : Int64) : Action Int64 := if b = 0 then undefined else return a / b

def remainderOr (a b : Int64) : Action Int64 := if b = 0 then undefined else return a % b

def differenceOr (m n : Nat) : Action Nat := if m < n then undefined else return m - n

def divOr (left right : Value) : Action Value := do
  match left with
  | .int a =>
    let b ← toInt right
    if b = 0 then fail .divisionByZero else return .int (← quotientOr undefined a b)
  | _ => unsupported .divide left

def modOr (left right : Value) : Action Value := do
  match left with
  | .int a =>
    let b ← toInt right
    if b ≤ 0 then fail (.modulusNotPositive b) else return .int (← remainderOr undefined a b)
  | _ => unsupported .divide left

def sliceOr (s : Str) (start stop : Nat) : Action Str := do
  match ← onStrings (Cache.substring s start stop) with
  | some part => return part
  | none =>
    fail (.outOfBounds (.ofNat start) (.ofNat (← differenceOr undefined stop start)) s.length)

def getOr (string start count : Value) : Action Value := do
  let s ← toStr string
  let start ← toInt start
  let count ← toInt count
  let (first, last) ← range start count s.length
  if first = last then return .str (← onStrings Cache.emptyString)
  else if first = 0 ∧ last = s.length then return .str s
  else return .str (← sliceOr undefined s first last)

def deleteOr (s : Str) (first last : Nat) : Action Str := do
  if first = 0 then
    if last = s.length then onStrings Cache.emptyString else sliceOr undefined s last s.length
  else if first = last then return s
  else if last = s.length then sliceOr undefined s 0 first
  else
    let head ← sliceOr undefined s 0 first
    let tail ← sliceOr undefined s last s.length
    onStrings (Cache.concat head tail)

def replaceOr (s : Str) (first last : Nat) (replacement : Str) : Action Str := do
  let head ← sliceOr undefined s 0 first
  let head ← onStrings (Cache.concat head replacement)
  let tail ← sliceOr undefined s last s.length
  onStrings (Cache.concat head tail)

def substituteOr (string start count replacement : Value) : Action Value := do
  let start ← toInt start
  let count ← toInt count
  let replacement ← toStr replacement
  if count = 0 ∧ replacement.isEmpty then return string
  else
    let s ← toStr string
    let (first, last) ← range start count s.length
    if replacement.isEmpty then return .str (← deleteOr undefined s first last)
    else return .str (← replaceOr undefined s first last replacement)

theorem divOr_eq (left right : Value) : divOr undefined left right = div left right := by
  unfold divOr div
  cases left with
  | int a =>
    refine congrArg (toInt right >>= ·) (funext fun b => ?_)
    by_cases hb : b = 0
    · simp only [hb, if_true]
    · simp only [quotientOr, hb, if_false, pure_bind]
  | _ => rfl

theorem modOr_eq (left right : Value) : modOr undefined left right = mod left right := by
  unfold modOr mod
  cases left with
  | int a =>
    refine congrArg (toInt right >>= ·) (funext fun b => ?_)
    by_cases hb : b ≤ 0
    · simp only [hb, if_true]
    · have hb' : b ≠ 0 := by
        rintro rfl
        exact hb (Int64.le_refl 0)
      simp only [remainderOr, hb, hb', if_false, pure_bind]
  | _ => rfl

theorem sliceOr_eq {start stop : Nat} (h : start ≤ stop) (s : Str) :
    sliceOr undefined s start stop = slice s start stop := by
  unfold sliceOr slice
  refine congrArg (onStrings (Cache.substring s start stop) >>= ·) (funext fun part => ?_)
  cases part with
  | some part => rfl
  | none => simp only [differenceOr, Nat.not_lt.2 h, if_false, pure_bind]

theorem range_bind_congr {α : Type} (start count : Int64) (length : Nat) {f g : Nat × Nat → Action α}
    (h : ∀ first last, first ≤ last → last ≤ length → f (first, last) = g (first, last)) :
    (range start count length >>= f) = (range start count length >>= g) := by
  unfold range byteRange
  split
  · rename_i ends he
    split at he
    · cases he
    · dsimp only at he
      split at he
      · rename_i hle
        obtain rfl := Except.ok.inj he
        simp only [pure_bind]
        exact h _ _ (Nat.le_add_right _ _) hle
      · cases he
  · rfl

theorem getOr_eq (string start count : Value) :
    getOr undefined string start count = get string start count := by
  unfold getOr get
  refine congrArg (toStr string >>= ·) (funext fun s => ?_)
  refine congrArg (toInt start >>= ·) (funext fun start => ?_)
  refine congrArg (toInt count >>= ·) (funext fun count => ?_)
  refine range_bind_congr start count s.length fun first last hle _ => ?_
  simp only [sliceOr_eq undefined hle]

theorem deleteOr_eq {s : Str} {first last : Nat} (h : last ≤ s.length) :
    deleteOr undefined s first last = delete s first last := by
  unfold deleteOr delete
  simp only [sliceOr_eq undefined h, sliceOr_eq undefined (Nat.zero_le first)]

theorem replaceOr_eq {s : Str} {first last : Nat} (h : last ≤ s.length) (replacement : Str) :
    replaceOr undefined s first last replacement = replace s first last replacement := by
  unfold replaceOr replace
  simp only [sliceOr_eq undefined h, sliceOr_eq undefined (Nat.zero_le first)]

theorem substituteOr_eq (string start count replacement : Value) :
    substituteOr undefined string start count replacement =
      substitute string start count replacement := by
  unfold substituteOr substitute
  refine congrArg (toInt start >>= ·) (funext fun start => ?_)
  refine congrArg (toInt count >>= ·) (funext fun count => ?_)
  refine congrArg (toStr replacement >>= ·) (funext fun replacement => ?_)
  split
  · rfl
  · refine congrArg (toStr string >>= ·) (funext fun s => ?_)
    refine range_bind_congr start count s.length fun first last _ hle => ?_
    simp only [deleteOr_eq undefined hle, replaceOr_eq undefined hle]

end Action

end KnightLang
