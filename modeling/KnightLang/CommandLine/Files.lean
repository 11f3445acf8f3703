import KnightLang.Files.Tree
import KnightLang.Text.Octets

namespace KnightLang.CommandLine

inductive Found
  | content (bytes : List UInt8)
  | input
  deriving DecidableEq, Repr

abbrev SourceFiles : Type := String → Except KnightLang.Files.Fault Found

def SourceFiles.ofTree (t : KnightLang.Files.Tree) (here : Nat) : SourceFiles := fun path =>
  match t.find here (Octets.ofText path) with
  | .error f => .error f
  | .ok id =>
    match t.node? id with
    | some (.device (.descriptor 0)) => .ok .input
    | _ => (t.content? id).map fun bytes => .content bytes.data.toList

end KnightLang.CommandLine
