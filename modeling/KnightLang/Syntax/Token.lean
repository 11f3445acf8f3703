import KnightLang.Syntax.CompileError
import KnightLang.Syntax.Operator
import KnightLang.Text.Utf8

namespace KnightLang

inductive Token
  | integer (digits : String)
  | text (content : String)
  | true
  | false
  | null
  | name (spelling : String)
  | word (spelling : String)
  | unary (op : UnaryOp)
  | binary (op : BinaryOp)
  deriving DecidableEq, Repr

structure Lexeme where
  token : Token
  span : Span
  deriving DecidableEq, Repr

namespace Token

def display : Token → String
  | integer digits => digits
  | text content => Text.quote content
  | true => "TRUE"
  | false => "FALSE"
  | null => "NULL"
  | name spelling => spelling
  | word spelling => spelling
  | unary op => String.singleton op.symbol
  | binary op => String.singleton op.symbol

def ofWord (cs : List Char) : Token :=
  match cs with
  | 'T' :: _ => true
  | 'F' :: _ => false
  | 'N' :: _ => null
  | _ => word (String.ofList cs)

def ofSymbol? (c : Char) : Option Token :=
  match UnaryOp.ofSymbol? c with
  | some op => some (unary op)
  | none => (BinaryOp.ofSymbol? c).map binary

def isSeparator (c : Char) : Bool :=
  c = ' ' || c = '\t' || c = '\n' || c = '\r' || c = '(' || c = ')' || c = '[' || c = ']' ||
    c = '\x7b' || c = '\x7d'

def isQuote (c : Char) : Bool := c = '"' || c = '\''

def startsName (c : Char) : Bool := c.isLower || c = '_'

def continuesName (c : Char) : Bool := c.isLower || c.isDigit || c = '_'

def continuesWord (c : Char) : Bool := c.isUpper || c = '_'

/-- The token that starts with `c` and is no string, with the characters after its first; it goes on
as long as the characters allow. -/
def ofChars? (c : Char) (cs : List Char) : Option (Token × List Char) :=
  if c.isDigit then
    let taken := cs.takeWhile Char.isDigit
    some (integer (String.ofList (c :: taken)), taken)
  else if startsName c then
    let taken := cs.takeWhile continuesName
    some (name (String.ofList (c :: taken)), taken)
  else if c.isUpper then
    let taken := cs.takeWhile continuesWord
    some (ofWord (c :: taken), taken)
  else (ofSymbol? c).map (·, [])

def scanFrom (offset : Nat) (found : Array Lexeme) :
    List Char → Except CompileError (List Lexeme)
  | [] => .ok found.toList
  | c :: cs =>
    if isSeparator c then scanFrom (offset + 1) found cs
    else if c = '#' then
      scanFrom (offset + 1 + Text.byteLength (cs.takeWhile (· ≠ '\n'))) found
        (cs.dropWhile (· ≠ '\n'))
    else if isQuote c then
      let content := cs.takeWhile (· ≠ c)
      let stop := offset + 1 + Text.byteLength content
      match h : cs.drop content.length with
      | [] => .error (.unterminatedString ⟨offset, stop⟩)
      | _ :: rest =>
        scanFrom (stop + 1) (found.push ⟨text (String.ofList content), ⟨offset, stop + 1⟩⟩) rest
    else
      match ofChars? c cs with
      | none => .error (.unexpectedCharacter c ⟨offset, offset + c.utf8Size⟩)
      | some (token, taken) =>
        let stop := offset + 1 + taken.length
        scanFrom stop (found.push ⟨token, ⟨offset, stop⟩⟩) (cs.drop taken.length)
  termination_by cs => cs.length
  decreasing_by
    · simp
    · have := (List.dropWhile_suffix (fun d => decide (d ≠ '\n')) (l := cs)).length_le
      simp only [List.length_cons]; omega
    · have := congrArg List.length h
      simp only [List.length_drop, List.length_cons] at this ⊢; omega
    · simp only [List.length_drop, List.length_cons]; omega

def scan (source : String) : Except CompileError (List Lexeme) :=
  scanFrom 0 #[] source.toList

end Token

end KnightLang
