import KnightLang.Syntax.Span
import KnightLang.Text.Quoted

namespace KnightLang

inductive CompileError
  | unterminatedString (span : Span)
  | unexpectedCharacter (c : Char) (span : Span)
  | unexpectedEnd (span : Span)
  | integerOutOfRange (digits : String) (span : Span)
  | unknownFunction (word : String) (span : Span)
  deriving DecidableEq, Repr

inductive Stage
  | lexer | parser
  deriving DecidableEq, Repr

def Stage.name : Stage → String
  | lexer => "Lexer"
  | parser => "Parser"

namespace CompileError

def span : CompileError → Span
  | unterminatedString s | unexpectedCharacter _ s | unexpectedEnd s | integerOutOfRange _ s
  | unknownFunction _ s => s

def stage : CompileError → Stage
  | unterminatedString _ | unexpectedCharacter _ _ => .lexer
  | unexpectedEnd _ | integerOutOfRange _ _ | unknownFunction _ _ => .parser

def message : CompileError → String
  | unterminatedString _ => "unterminated string literal"
  | unexpectedCharacter c _ => "unexpected character: " ++ Text.quote (String.singleton c)
  | unexpectedEnd _ => "unexpected end of input"
  | integerOutOfRange digits _ => "integer literal " ++ digits ++ " is out of range"
  | unknownFunction word _ => "unknown function " ++ Text.quote word

def text (e : CompileError) : String :=
  e.stage.name ++ " error at " ++ e.span.text ++ ": " ++ e.message

end CompileError

end KnightLang
