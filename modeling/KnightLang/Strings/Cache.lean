import KnightLang.Strings.Guard
import KnightLang.Strings.Handle
import KnightLang.Text.Decimal
import Std.Data.TreeMap

/-!
The string cache. It interns short texts, remembers substrings and concatenations of interned
strings, and keeps the decimal form of every integer that it was asked for. Nothing is ever dropped.
-/
namespace KnightLang

open Std (TreeMap)

/-- The counters that all caches share: they hand out tags until the tags are used up, pool numbers
that start again when they are used up, and addresses without end. -/
structure Supply where
  nextTag : UInt32 := 1
  nextPool : UInt32 := 1
  nextAddress : Nat := 0

namespace Supply

def takeTag (s : Supply) : Option UInt32 × Supply :=
  if s.nextTag = 0xffffffff then (none, s)
  else (some s.nextTag, { s with nextTag := s.nextTag + 1 })

def takePool (s : Supply) : UInt32 × Supply :=
  (s.nextPool, { s with nextPool := s.nextPool + 1 })

def unique (text : String) (s : Supply) : Str × Supply :=
  (⟨text, .unique s.nextAddress⟩, { s with nextAddress := s.nextAddress + 1 })

end Supply

structure Pool where
  number : UInt32
  strings : TreeMap String Str

def Pool.intern (text : String) (p : Pool) (s : Supply) : Str × Pool × Supply :=
  match p.strings[text]? with
  | some str => (str, p, s)
  | none =>
    match s.takeTag with
    | (some tag, s) =>
      let str := ⟨text, .interned tag p.number⟩
      (str, { p with strings := p.strings.insert text str }, s)
    | (none, s) =>
      let (str, s) := s.unique text
      (str, p, s)

structure CacheOptions where
  maxLength : Nat := 32
  least : Int64 := -10
  greatest : Int64 := 255

structure Cache where
  options : CacheOptions
  pool : Pool
  substrings : TreeMap UInt64 Str := ∅
  longSubstrings : TreeMap UInt32 (TreeMap (Nat × Nat) Str lexOrd.compare) := ∅
  concats : TreeMap UInt64 Str := ∅
  integers : TreeMap Int64 Str := ∅
  empty : Str
  null : Str
  yes : Str
  no : Str

structure Interner where
  supply : Supply
  cache : Cache

/-- A new cache holds the empty text and the words for null, true and false, whatever its limit. -/
def Cache.create (options : CacheOptions) (s : Supply) : Cache × Supply :=
  let (number, s) := s.takePool
  let (empty, p, s) := Pool.intern "" ⟨number, ∅⟩ s
  let (null, p, s) := p.intern "null" s
  let (yes, p, s) := p.intern "true" s
  let (no, p, s) := p.intern "false" s
  ({ options, pool := p, empty, null, yes, no }, s)

def Interner.create (options : CacheOptions) (s : Supply) : Interner :=
  let (cache, supply) := Cache.create options s
  { supply, cache }

namespace Cache

/-- One key for a tag and two bounds, if each bound fits in 16 bits. -/
def substringKey? (tag : UInt32) (start stop : Nat) : Option UInt64 :=
  if start < 65536 ∧ stop < 65536 then
    some (tag.toUInt64 <<< 32 ||| start.toUInt64 <<< 16 ||| stop.toUInt64)
  else none

def concatKey (left right : UInt32) : UInt64 := left.toUInt64 <<< 32 ||| right.toUInt64

section

variable {m : Type → Type} [Monad m] [MonadStateOf Interner m] [Guarded m]

@[inline] def unique (text : String) : m Str :=
  modifyGet fun ⟨supply, cache⟩ =>
    let (str, supply) := supply.unique text
    (str, ⟨supply, cache⟩)

@[inline] def intern (text : String) : m Str :=
  within .pool <| modifyGet fun ⟨supply, cache⟩ =>
    let (str, pool, supply) := cache.pool.intern text supply
    (str, ⟨supply, { cache with pool }⟩)

@[inline] def string (text : String) : m Str := do
  let limit := (← getThe Interner).cache.options.maxLength
  if text.utf8ByteSize > limit then unique text else intern text

/-- The same for a text that the caller gives away: one that is too long is kept as it is. -/
@[inline] def ownedString (text : String) : m Str := do
  let limit := (← getThe Interner).cache.options.maxLength
  if text.utf8ByteSize > limit then unique text else string text

@[inline] def remembered (find : Cache → Option Str) (keep : Str → Cache → Cache) (make : m Str) :
    m Str := do
  match find (← getThe Interner).cache with
  | some str => pure str
  | none =>
    let str ← make
    modifyThe Interner fun ⟨supply, cache⟩ => ⟨supply, keep str cache⟩
    pure str

@[inline] def substring (s : Str) (start stop : Nat) : m (Option Str) := do
  match Text.slice? s.text start stop with
  | none => pure none
  | some text =>
    match s.tag? with
    | none => some <$> string text
    | some tag =>
      match substringKey? tag start stop with
      | some key =>
        some <$> within .substrings (remembered (·.substrings[key]?)
          (fun str c => { c with substrings := c.substrings.insert key str }) (string text))
      | none =>
        some <$> within .longSubstrings (remembered
          (fun c => c.longSubstrings[tag]? >>= (·[(start, stop)]?))
          (fun str c => { c with
            longSubstrings := c.longSubstrings.insert tag
              ((c.longSubstrings.getD tag ∅).insert (start, stop) str) })
          (string text))

@[inline] def concat (left right : Str) : m Str :=
  match left.tag?, right.tag? with
  | some l, some r =>
    let key := concatKey l r
    within .concats (remembered (·.concats[key]?)
      (fun str c => { c with concats := c.concats.insert key str })
      (string (left.text ++ right.text)))
  | _, _ => string (left.text ++ right.text)

@[inline] def intString (n : Int64) : m Str :=
  within .integers (remembered (·.integers[n]?)
    (fun str c => { c with integers := c.integers.insert n str })
    (string (Decimal.ofInt n.toInt)))

def range (least greatest : Int64) : List Int64 :=
  (List.range (greatest.toInt - least.toInt + 1).toNat).map fun k : Nat =>
    Int64.ofInt (least.toInt + k)

def warm : m Unit := do
  let options := (← getThe Interner).cache.options
  (range options.least options.greatest).forM fun n => discard (intString n)

@[inline] def emptyString : m Str := return (← getThe Interner).cache.empty

@[inline] def nullString : m Str := return (← getThe Interner).cache.null

@[inline] def boolString (b : Bool) : m Str := do
  let cache := (← getThe Interner).cache
  return if b then cache.yes else cache.no

@[inline] def interned : m Nat := within .pool do
  return (← getThe Interner).cache.pool.strings.size

end

end Cache

end KnightLang
