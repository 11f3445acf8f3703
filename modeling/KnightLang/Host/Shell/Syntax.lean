namespace KnightLang.Host.Shell

inductive Modifier
  | plain
  | length
  | default (orEmpty : Bool)
  | assign (orEmpty : Bool)
  | alternative (orEmpty : Bool)
  | require (orEmpty : Bool)
  | trim (atEnd longest : Bool)
  | bad
  deriving DecidableEq, Repr

inductive Direction
  | input
  | output
  | append
  | update
  | overwrite
  deriving DecidableEq, Repr

mutual

inductive Piece
  | text (s : String) (quoted : Bool)
  | quote
  | parameter (name : String) (modifier : Modifier) (word : List Piece) (quoted : Bool)
  | printed (script : Command) (quoted : Bool)
  | arithmetic (expression : List Piece) (quoted : Bool)

inductive Redirection
  | file (channel : Nat) (direction : Direction) (path : List Piece)
  | copy (channel : Nat) (source : List Piece)
  | document (channel : Nat) (id : Nat)

inductive Case
  | mk (patterns : List (List Piece)) (body : Command)

inductive Command
  | nothing
  | simple (line : Nat) (assignments words : List (List Piece)) (redirections : List Redirection)
  | pipeline (parts : List Command)
  | not (c : Command)
  | and (left right : Command)
  | or (left right : Command)
  | sequence (first second : Command)
  | background (line : Nat) (c : Command)
  | subshell (line : Nat) (c : Command) (redirections : List Redirection)
  | redirected (line : Nat) (c : Command) (redirections : List Redirection)
  | branch (condition yes no : Command)
  | loop (whileTrue : Bool) (condition body : Command)
  | each (line : Nat) (name : String) (words : List (List Piece)) (body : Command)
  | choose (line : Nat) (subject : List Piece) (cases : List Case)
  | define (line : Nat) (name : String) (body : Command)

end

abbrev Word : Type := List Piece

instance : Inhabited Command := ⟨.nothing⟩

def plainText? : Word → Option String
  | [.text s false] => some s
  | _ => none

def isNameStart (c : Char) : Bool := c.isAlpha || c = '_'

def isNamePart (c : Char) : Bool := c.isAlphanum || c = '_'

def isName (s : String) : Bool :=
  match s.toList with
  | [] => false
  | c :: rest => isNameStart c && rest.all isNamePart

def assignment? : Word → Option (String × Word)
  | .text s false :: rest =>
    let cs := s.toList
    match cs.dropWhile isNamePart with
    | '=' :: value =>
      let name := String.ofList (cs.takeWhile isNamePart)
      if isName name then
        some (name, if value.isEmpty then rest else .text (String.ofList value) false :: rest)
      else none
    | _ => none
  | _ => none

def keywords : List String :=
  ["!", "case", "do", "done", "elif", "else", "esac", "fi", "for", "if", "in", "then", "until",
    "while", "\x7b", "\x7d"]

end KnightLang.Host.Shell
