import KnightLang.Text.Decimal

namespace KnightLang

structure Span where
  start : Nat
  stop : Nat
  deriving DecidableEq, Repr

def Span.text (s : Span) : String := Decimal.ofNat s.start ++ ".." ++ Decimal.ofNat s.stop

end KnightLang
