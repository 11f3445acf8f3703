import KnightLang.Strings.Cache
import KnightLang.Tree.Basic

namespace KnightLang

inductive Panic
  | blockAsBool
  | blockAsInt
  | blockAsString
  | capacityOverflow
  | missingArgument (index count : Nat)
  deriving DecidableEq, Repr

def Panic.message : Panic → String
  | blockAsBool => "a block cannot be converted into a bool"
  | blockAsInt => "a block cannot be converted into an int"
  | blockAsString => "a block cannot be converted into a string"
  | capacityOverflow => "capacity overflow"
  | missingArgument index count =>
    "index out of bounds: the len is " ++ Decimal.ofNat count ++ " but the index is " ++
      Decimal.ofNat index

namespace Value

def toBool : Value → Except Panic Bool
  | null => .ok false
  | bool b => .ok b
  | int n => .ok (n != 0)
  | str s => .ok !s.isEmpty
  | block _ => .error .blockAsBool

def toInt : Value → Except Panic Int64
  | null => .ok 0
  | bool b => .ok (if b then 1 else 0)
  | int n => .ok n
  | str s => .ok (Decimal.leading s.text)
  | block _ => .error .blockAsInt

/-- The string of a value; for all but strings it is the one that the cache keeps. -/
def toStr {m : Type → Type} [Monad m] [MonadStateOf Interner m] [Guarded m] :
    Value → m (Except Panic Str)
  | null => .ok <$> Cache.nullString
  | bool b => .ok <$> Cache.boolString b
  | int n => .ok <$> Cache.intString n
  | str s => pure (.ok s)
  | block _ => pure (.error .blockAsString)

end Value

end KnightLang
