import KnightLang.Proofs.Grammar.Trees
import KnightLang.Proofs.Lockstep.Past

namespace KnightLang

namespace Token

def unaryOp? : Token → Option UnaryOp
  | .unary op => some op
  | _ => none

def binaryOp? : Token → Option BinaryOp
  | .binary op => some op
  | _ => none

end Token

namespace Parse

variable {p q : Phrase} {ls rest : List Lexeme} {length : Nat}

theorem Begins.tree? (h : Begins p ls rest) {ws : Workspace} (hs : ∃ E, ws.strings.Sound E) :
    ∃ n, (Parse.finish length [] ls ws).1 = .ok n ∧
      p.tree? (Parse.finish length [] ls ws).2.store.names = some n.bare := by
  rw [h.finish_eq]
  exact ⟨_, rfl, (p.yields_build ws hs).2.2⟩

end Parse

end KnightLang
