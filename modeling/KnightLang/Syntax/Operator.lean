namespace KnightLang

inductive UnaryOp
  | not | noop | system
  deriving DecidableEq, Repr

inductive BinaryOp
  | and | or | add | sub | mul | div | mod | exp | less | greater | equal | assign | chain
  deriving DecidableEq, Repr

namespace UnaryOp

def symbol : UnaryOp → Char
  | not => '!'
  | noop => ':'
  | system => '\x60'

def name : UnaryOp → String
  | not => "not"
  | noop => "noop"
  | system => "system"

def ofSymbol? : Char → Option UnaryOp
  | '!' => some not
  | ':' => some noop
  | '\x60' => some system
  | _ => none

theorem ofSymbol?_symbol (op : UnaryOp) : ofSymbol? op.symbol = some op := by cases op <;> rfl

end UnaryOp

namespace BinaryOp

def symbol : BinaryOp → Char
  | and => '&'
  | or => '|'
  | add => '+'
  | sub => '-'
  | mul => '*'
  | div => '/'
  | mod => '%'
  | exp => '^'
  | less => '<'
  | greater => '>'
  | equal => '?'
  | assign => '='
  | chain => ';'

def name : BinaryOp → String
  | and => "and"
  | or => "or"
  | add => "add"
  | sub => "sub"
  | mul => "mul"
  | div => "div"
  | mod => "mod"
  | exp => "exp"
  | less => "less"
  | greater => "greater"
  | equal => "equal"
  | assign => "assign"
  | chain => "chain"

def ofSymbol? : Char → Option BinaryOp
  | '&' => some and
  | '|' => some or
  | '+' => some add
  | '-' => some sub
  | '*' => some mul
  | '/' => some div
  | '%' => some mod
  | '^' => some exp
  | '<' => some less
  | '>' => some greater
  | '?' => some equal
  | '=' => some assign
  | ';' => some chain
  | _ => none

theorem ofSymbol?_symbol (op : BinaryOp) : ofSymbol? op.symbol = some op := by cases op <;> rfl

end BinaryOp

end KnightLang
