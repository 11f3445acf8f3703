import KnightLang.Eval.Machine
import KnightLang.Text.Blank
import KnightLang.Version

/-!
The interactive session: every line is a program of its own, and all lines share one store. The
session and the programs read from one input. A program's reader takes the input in pieces, and what
it has taken no longer waits for the session.
-/
namespace KnightLang.Interactive

def greeting : String :=
  "Knight " ++ version ++ "\nType :help for help, :quit to exit.\n\n"

def farewell : String := "Goodbye!\n"

def help : String := Text.lines
  ["Knight REPL Commands:",
    "  :help, :h, :?   Show this help",
    "  :quit, :q       Exit the REPL",
    "  :clear          Clear the screen",
    "",
    "Each line is parsed as one Knight expression, e.g.",
    "  ; = n 10 * n n",
    "  OUTPUT + \"hello \" \"world\"",
    "Variables persist between lines."]

def clearScreen : String := "\x1b[2J\x1b[1;1H"

inductive Line
  | blank
  | quit
  | help
  | clear
  | program (source : String)
  deriving DecidableEq, Repr

/-- A line is looked at without the blanks around it. Only these words are commands; whatever else
starts with a colon is a program. -/
def Line.ofText (text : String) : Line :=
  match Text.trim text with
  | "" => blank
  | ":quit" | ":q" | ":exit" => quit
  | ":help" | ":h" | ":?" => help
  | ":clear" => clear
  | source => program source

structure Session where
  state : State
  errors : String := ""

namespace Session

def print (text : String) (s : Session) : Session :=
  let (_, console) := Console.write text s.state.console
  { s with state := { s.state with console } }

def printError (text : String) (s : Session) : Session := { s with errors := s.errors ++ text }

def readLine (s : Session) : List UInt8 × Session :=
  let (line, input) := s.state.console.input.readWaitingLine
  (line, { s with state := { s.state with console := { s.state.console with input } } })

end Session

inductive Next
  | more | finished | panicked (p : Panic)

def evaluate (around : Surroundings) (fuel : Nat) (source : String) (s : Session) :
    Option (Next × Session) :=
  let (parsed, workspace) := Program.parse source s.state.workspace
  let s := { s with state := { s.state with workspace } }
  match parsed with
  | .error e => some (.more, s.printError ("Parse error: " ++ e.message ++ "\n"))
  | .ok program => do
    let (result, state) ← program.execute around fuel s.state
    let s := { s with state }
    match result with
    | .ok .null => return (.more, s)
    | .ok v => return (.more, s.print (v.dump ++ "\n"))
    | .error (.error (.quit code)) =>
      return (.finished, s.print ("Quit with status " ++ Decimal.ofInt code.toInt ++ "\n"))
    | .error (.error e) => return (.more, s.printError ("Runtime error: " ++ e.message ++ "\n"))
    | .error (.panic p) => return (.panicked p, s)

def useLine (around : Surroundings) (fuel : Nat) (line : List UInt8) (s : Session) :
    Option (Next × Session) :=
  if line.isEmpty then some (.finished, s.print farewell)
  else
    match Text.decode? line with
    | none => some (.finished, s.printError ("Error: " ++ Failure.invalidText.reason ++ "\n"))
    | some text =>
      match Line.ofText text with
      | .blank => some (.more, s)
      | .quit => some (.finished, s.print farewell)
      | .help => some (.more, s.print help)
      | .clear => some (.more, s.print clearScreen)
      | .program source => evaluate around fuel source s

def useLines (around : Surroundings) (fuel : Nat) : Nat → Session → Option (Option Panic × Session)
  | 0, s => some (none, s)
  | lines + 1, s =>
    let (line, s) := s.readLine
    match useLine around fuel line s with
    | none => none
    | some (.more, s) => useLines around fuel lines s
    | some (.finished, s) => some (none, s)
    | some (.panicked p, s) => some (some p, s)

/-- A session on an input: there is one line per byte at most, and the end of the input. -/
def run (around : Surroundings) (fuel : Nat) (files : Files.Tree) (stdin : List UInt8) :
    Option (Option Panic × Session) :=
  let s : Session := { state := ⟨.fresh, { input := .arriving stdin, files }⟩ }
  useLines around fuel (stdin.length + 1) (s.print greeting)

end KnightLang.Interactive
