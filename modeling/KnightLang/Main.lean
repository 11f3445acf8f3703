import KnightLang.CommandLine.Run
import KnightLang.Host

namespace KnightLang.Main

open CommandLine

partial def readToEnd (stream : IO.FS.Stream) (found : ByteArray) : IO ByteArray := do
  let chunk ← stream.read 65536
  if chunk.isEmpty then return found else readToEnd stream (found ++ chunk)

def readFile (path : String) : IO (Except Files.Fault CommandLine.Found) := do
  try
    let content ← IO.FS.readBinFile path
    return .ok (.content content.data.toList)
  catch
    | .noFileOrDirectory _ _ _ => return .error .missing
    | .inappropriateType _ code _ =>
      return .error (if code = 21 then .directory else .notDirectory)
    | e => return .error (.unreadable e.toString)

def sourceFile : Command → IO SourceFiles
  | .task _ (.file path) => do
    let found ← readFile path
    return fun _ => found
  | _ => return fun _ => .error .missing

def input : Command → IO (List UInt8)
  | .task .run _ | .repl => do return (← readToEnd (← IO.getStdin) .empty).data.toList
  | _ => return []

end KnightLang.Main

open KnightLang CommandLine in
def main (arguments : List String) : IO UInt32 := do
  let seed ← IO.rand 0 0x3fffffffffffffff
  let around := Host.surroundings ⟨Files.Tree.root, [("PATH", Host.Kernel.usualPath)]⟩ seed
  let (sources, stdin) ←
    match Command.ofArguments arguments with
    | .ok command => do pure (← Main.sourceFile command, ← Main.input command)
    | .error _ => pure (fun _ => .error .missing, [])
  match run around 0xfffffffffffffff sources Host.initialFiles stdin arguments with
  | none => return 1
  | some exit =>
    let out ← IO.getStdout
    out.write exit.stdout
    out.flush
    IO.eprint exit.stderr
    return exit.status.toUInt32
