import KnightLang.Text.Decimal
import KnightLang.Text.Quoted
import KnightLang.Tree.Basic

namespace KnightLang

def boolText (b : Bool) : String := if b then "true" else "false"

mutual

def Value.render : Value → String
  | .null => "null"
  | .bool b => boolText b
  | .int n => Decimal.ofInt n.toInt
  | .str s => Text.quote s.text
  | .block body => "(block " ++ body.render ++ ")"

def Node.render : Node → String
  | .literal _ value => value.render
  | .var _ v => "(var " ++ Text.quote v.name ++ ")"
  | .unary _ op operand => "(" ++ op.name ++ " " ++ operand.render ++ ")"
  | .binary _ op left right => "(" ++ op.name ++ " " ++ left.render ++ " " ++ right.render ++ ")"
  | .call _ word _ args =>
    if args.isEmpty then word else "(" ++ word ++ Node.renderAll args ++ ")"

def Node.renderAll : List Node → String
  | [] => ""
  | node :: nodes => " " ++ node.render ++ Node.renderAll nodes

end

def Program.render (p : Program) : String := "(program " ++ p.root.render ++ ")"

mutual

def Value.dump : Value → String
  | .null => "Null()"
  | .bool b => "Bool(" ++ boolText b ++ ")"
  | .int n => "Number(" ++ Decimal.ofInt n.toInt ++ ")"
  | .str s => "String(" ++ s.text ++ ")"
  | .block body => "Block(" ++ body.dump ++ ")"

def Node.dump : Node → String
  | .literal _ value => value.dump
  | _ => "AST"

end

end KnightLang
