import KnightLang.CommandLine.Files
import KnightLang.CommandLine.Help
import KnightLang.CommandLine.Interactive

namespace KnightLang.CommandLine

structure Exit where
  status : Nat
  stdout : ByteArray := .empty
  stderr : String := ""

namespace Exit

def printing (text : String) : Exit := { status := 0, stdout := text.toByteArray }

def failing (reason : String) : Exit := { status := 1, stderr := "Error: " ++ reason ++ "\n" }

end Exit

def textOf (bytes : List UInt8) : Except String String :=
  match Text.decode? bytes with
  | none => .error Failure.invalidText.reason
  | some text => .ok text

def Source.load (sources : SourceFiles) (stdin : List UInt8) : Source → Except String String × List UInt8
  | expression text => (.ok text, stdin)
  | file path =>
    match sources path with
    | .error f => (.error f.message, stdin)
    | .ok (.content bytes) => (textOf bytes, stdin)
    | .ok .input => (textOf stdin, [])

def statusOf (code : Int32) : Nat := (code.toInt % 256).toNat

def runSource (around : Surroundings) (fuel : Nat) (files : Files.Tree) (stdin : List UInt8)
    (source : String) : Option Exit :=
  let (parsed, workspace) := Program.parse source .fresh
  match parsed with
  | .error e => some { status := 1, stderr := e.text ++ "\n" }
  | .ok program => do
    let (result, s) ←
      program.execute around fuel ⟨workspace, { input := .arriving stdin, files }⟩
    let stdout := s.console.output.written
    match result with
    | .ok _ => return { status := 0, stdout }
    | .error (.error (.quit code)) => return { status := statusOf code, stdout }
    | .error (.error e) => return { Exit.failing e.message with stdout }
    | .error (.panic p) => return { status := 101, stdout, stderr := p.message ++ "\n" }

def parseSource (source : String) : Exit :=
  match (Program.parse source .fresh).1 with
  | .error e => { status := 1, stderr := e.text ++ "\n" }
  | .ok program => .printing (program.render ++ "\n")

def lexemeLine (l : Lexeme) : String := l.token.display ++ " @ " ++ l.span.text

def tokenizeSource (source : String) : Exit :=
  match Token.scan source with
  | .error e => { status := 1, stderr := e.text ++ "\n" }
  | .ok lexemes => .printing (Text.lines (lexemes.map lexemeLine))

def interactive (around : Surroundings) (fuel : Nat) (files : Files.Tree) (stdin : List UInt8) :
    Option Exit := do
  let (panic, session) ← Interactive.run around fuel files stdin
  let stdout := session.state.console.output.written
  match panic with
  | none => return { status := 0, stdout, stderr := session.errors }
  | some p => return { status := 101, stdout, stderr := session.errors ++ p.message ++ "\n" }

def Command.run (around : Surroundings) (fuel : Nat) (sources : SourceFiles) (files : Files.Tree)
    (stdin : List UInt8) : Command → Option Exit
  | version => some (.printing ("knight " ++ KnightLang.version ++ "\n"))
  | help topic => some (.printing (helpText topic))
  | repl => interactive around fuel files stdin
  | task t source =>
    match source.load sources stdin with
    | (.error reason, _) => some (.failing reason)
    | (.ok text, stdin) =>
      match t with
      | .run => runSource around fuel files stdin text
      | .parse => some (parseSource text)
      | .tokens => some (tokenizeSource text)

def run (around : Surroundings) (fuel : Nat) (sources : SourceFiles) (files : Files.Tree)
    (stdin : List UInt8) (arguments : List String) : Option Exit :=
  match Command.ofArguments arguments with
  | .error e => some { status := 2, stderr := "error: " ++ e.message ++ "\n" }
  | .ok command => command.run around fuel sources files stdin

end KnightLang.CommandLine
