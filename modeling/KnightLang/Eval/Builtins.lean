import KnightLang.Eval.Splice
import KnightLang.Tree.Render

namespace KnightLang.Action

def write (text : String) : Action Unit := transfer (Console.write text)

def flush : Action Unit := transfer Console.flush

def display (text : String) : Action Value := do
  write text
  flush
  return .null

/-- Writes a line. A backslash at its end stands for staying in the line, and flushes. -/
def output (v : Value) : Action Value := do
  let s ← toStr v
  if s.text.endsWith "\\" then display (s.text.dropEnd 1).copy
  else
    write (s.text ++ "\n")
    return .null

def prompt : Action Value := do
  flush
  match ← transfer Console.readLine with
  | none => return .null
  | some line => string line

def random (around : Surroundings) : Action Value := do
  return .int (around.draw (← onConsole Console.startDraw))

def longestCommand : Nat := 131071

def commandFault? (command : String) : Option CommandFault :=
  if command.toList.contains '\x00' then some .zeroByte
  else if longestCommand < command.utf8ByteSize then some .tooLong
  else none

def system (around : Surroundings) (v : Value) : Action Value := do
  let command := (← toStr v).text
  flush
  match commandFault? command with
  | some fault => fail (.commandNotStarted command fault)
  | none =>
    let (ending, printed) ← onConsole (Console.runCommand fun n => around.command n command)
    if ending = .exited 0 then string (Text.decodeLossy printed)
    else fail (.commandFailed command ending)

def unary (around : Surroundings) (op : UnaryOp) (v : Value) : Action Value := do
  match op with
  | .not => return .bool !(← toBool v)
  | .noop => return v
  | .system => system around v

def quitCode (n : Int64) : Int32 :=
  if n < Int32.minValue.toInt64 then Int32.minValue
  else if Int32.maxValue.toInt64 < n then Int32.maxValue
  else n.toInt32

/-- The program of a source, parsed only if this very instance was not parsed before. -/
def sourceProgram (source : Str) : Action Program := do
  match ← onStore (Store.program? source) with
  | some program => return program
  | none =>
    match ← onWorkspace (Program.parse source.text) with
    | .error e => fail (.ofCompileError e)
    | .ok program =>
      onStore (Store.insertProgram source program)
      return program

end KnightLang.Action
