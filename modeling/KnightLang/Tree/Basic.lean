import KnightLang.Strings.Handle
import KnightLang.Syntax.Builtin
import KnightLang.Syntax.Operator

namespace KnightLang

structure Variable where
  name : String
  slot : Nat
  deriving DecidableEq, Repr

mutual

inductive Value
  | null
  | bool (b : Bool)
  | int (n : Int64)
  | str (s : Str)
  | block (body : Node)

inductive Node
  | literal (id : Nat) (value : Value)
  | var (id : Nat) (v : Variable)
  | unary (id : Nat) (op : UnaryOp) (operand : Node)
  | binary (id : Nat) (op : BinaryOp) (left right : Node)
  | call (id : Nat) (word : String) (builtin : Builtin) (args : List Node)

end

instance : Inhabited Value := ⟨.null⟩

def Node.id : Node → Nat
  | literal id _ | var id _ | unary id _ _ | binary id _ _ _ | call id _ _ _ => id

structure Program where
  root : Node

inductive Kind
  | null | bool | int | string | block
  deriving DecidableEq, Repr

def Kind.name : Kind → String
  | null => "null"
  | bool => "bool"
  | int => "int"
  | string => "string"
  | block => "block"

namespace Value

def kind : Value → Kind
  | null => .null
  | bool _ => .bool
  | int _ => .int
  | str _ => .string
  | block _ => .block

def isNull : Value → Bool
  | null => true
  | _ => false

/-- Values of different types are never equal, and a block equals only itself. -/
def equal : Value → Value → Bool
  | null, null => true
  | bool a, bool b => a = b
  | int a, int b => a = b
  | str a, str b => a.equal b
  | block a, block b => a.id = b.id
  | _, _ => false

end Value

end KnightLang
