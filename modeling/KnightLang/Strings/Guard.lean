/-!
Guarded cells. Shared state lies in cells, and an operation reaches the content of a cell inside a
section that is guarded by it. Operations are written for any way of guarding; there are two, bare
access and locks that block for ever when their holder asks for them again.
-/
namespace KnightLang

inductive Cell
  | pool | substrings | longSubstrings | concats | integers | names | programs
  | slot (n : Nat)
  deriving DecidableEq, Repr

class Guarded (m : Type → Type) where
  within {α : Type} : Cell → m α → m α

export Guarded (within)

instance {σ : Type} : Guarded (StateM σ) where
  within _ x := x

/-- Computations that are given the cells held so far, and have no result when they block. -/
abbrev Locked (σ : Type) : Type → Type := ReaderT (List Cell) (StateT σ Option)

instance {σ : Type} : Guarded (Locked σ) where
  within cell x := fun held => if cell ∈ held then failure else x (cell :: held)

inductive Strategy
  | safe | reckless
  deriving DecidableEq, Repr

namespace Strategy

def name : Strategy → String
  | safe => "safe"
  | reckless => "reckless"

def active : Strategy := safe

def run {σ α : Type} (strategy : Strategy)
    (op : {m : Type → Type} → [Monad m] → [MonadStateOf σ m] → [Guarded m] → m α) (s : σ) :
    Option (α × σ) :=
  match strategy with
  | safe => (op (m := Locked σ)).run [] |>.run s
  | reckless => some ((op (m := StateM σ)).run s)

end Strategy

end KnightLang
