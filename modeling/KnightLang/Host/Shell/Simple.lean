import KnightLang.Host.Shell.Lookup
import KnightLang.Host.Shell.Places
import KnightLang.Host.Shell.Printf
import KnightLang.Host.Shell.Read
import KnightLang.Host.Shell.Redirect
import KnightLang.Host.Shell.Test

namespace KnightLang.Host.Shell

open Kernel (Work)

namespace Run

/-! ### Commands of the shell that print or answer -/

def echoed : List String → String × Bool
  | [] => ("", false)
  | [w] => Escape.decodeAll w
  | w :: rest =>
    match Escape.decodeAll w with
    | (s, true) => (s, true)
    | (s, false) =>
      let (after, stopped) := echoed rest
      (s ++ " " ++ after, stopped)

def echo (arguments : List String) : Run Nat := do
  let (bare, words) := match arguments with
    | "-n" :: rest => (true, rest)
    | words => (false, words)
  let (s, stopped) := echoed words
  print (if bare || stopped then s else s ++ "\n")
  return 0

def printFormat (arguments : List String) : Run Nat := do
  match ← noOptions arguments with
  | [] => fail "usage: printf format [arg ...]"
  | format :: words =>
    let (ended, p) := Printf.run format words
    for w in p.warnings.reverse do warn w
    print p.printed
    match ended with
    | .faulty message => fail message
    | _ => return if p.warnings.isEmpty then 0 else 1

def condition (bracketed : Bool) (words : List String) : Run Nat := do
  let words ←
    if !bracketed then pure words
    else if (words.getLast?.any (·.startsWith "]")) then pure words.dropLast
    else fail "missing ]"
  match ← work (Test.evaluate words).run with
  | .ok holds => return if holds then 0 else 1
  | .error message => fail message

def loopCount (arguments : List String) : Run Nat := do
  let n ← match arguments with
    | [] => pure 1
    | a :: _ =>
      let n ← number a
      if n = 0 then illegalNumber a else pure n
  return min n (← shell).loops

def leaveLoops (arguments : List String) : Run Nat := do
  match ← loopCount arguments with
  | 0 => return 0
  | n =>
    setStatus 0
    throw (.leaveLoops n)

def nextRound (arguments : List String) : Run Nat := do
  match ← loopCount arguments with
  | 0 => return 0
  | n =>
    setStatus 0
    throw (.nextRound n)

def leaveFunction (arguments : List String) : Run Nat := do
  match arguments with
  | [] => throw (.leaveFunction false)
  | a :: _ =>
    setStatus (← number a)
    throw (.leaveFunction true)

def exit (arguments : List String) : Run Nat := do
  if let a :: _ := arguments then
    let n ← number a
    modifyShell fun s => { s with kept := some n }
  throw .exit

def showTimes (_ : List String) : Run Nat := do
  print "0m0.000000s 0m0.000000s\n0m0.000000s 0m0.000000s\n"
  return 0

def limits (arguments : List String) : Run Nat := do
  let (found, _) ← options "HSatfdsmcnpl:vwr" arguments
  let limit := match found.getLast? with
    | some ('c', _) => "0"
    | some ('n', _) => "20000"
    | some ('s', _) => "8192"
    | _ => "unlimited"
  print (limit ++ "\n")
  return 0

def plainCommands : List (String × (List String → Run Nat)) :=
  [(":", fun _ => return 0), ("true", fun _ => return 0), ("false", fun _ => return 1),
    ("[", condition true), ("test", condition false), ("echo", echo), ("printf", printFormat),
    ("cd", changeDirectory), ("chdir", changeDirectory), ("pwd", printDirectory),
    ("umask", fileMask), ("read", readLine), ("export", exportNames), ("readonly", readonlyNames),
    ("unset", unsetNames), ("local", declareLocal), ("set", setCommand), ("shift", shift),
    ("getopts", getOptions), ("alias", setAliases), ("unalias", unsetAliases), ("hash", hash),
    ("type", describeAll), ("break", leaveLoops), ("continue", nextRound),
    ("return", leaveFunction), ("exit", exit), ("jobs", listJobs), ("wait", awaitJobs),
    ("bg", continueJob), ("fg", continueJob), ("kill", kill), ("trap", trap), ("times", showTimes),
    ("ulimit", limits)]

end Run

namespace Evaluator

/-! ### Commands of the shell that run others -/

def source (e : Evaluator) (arguments : List String) : Run Nat := do
  match ← Run.noOptions arguments with
  | [] => return 0
  | name :: _ =>
    let path ←
      if name.contains '/' then pure name
      else
        let files := (← Run.world).files
        let here := (← Run.shell).process.directory
        let isFile (path : String) : Bool := match files.find here path with
          | .ok id => match files.node? id with
            | some (.file _ _) | some (.program _) => true
            | _ => false
          | .error _ => false
        let candidates := ((← Run.programPath).splitOn ":").map fun place =>
          if place.isEmpty then name else place ++ "/" ++ name
        match candidates.find? isFile with
        | some path => pure path
        | none => Run.fail (name ++ ": not found")
    match ← Run.work (.readFile path false) with
    | .error f =>
      match f with
      | .directory => return 0
      | f => Run.fail (openFault false path f)
    | .ok text =>
      Run.modifyShell fun s => { s with speaker := some path }
      match ← Run.attempt (e.runText {} text) with
      | .ok status => return status
      | .error (.leaveFunction _) => return (← Run.shell).status
      | .error b => throw b

def replace (e : Evaluator) (words : List String) : Run Nat := do
  let environment ← Run.environment
  let failing (f : Files.Fault) : Run Nat := do
    Run.warn (words.headD "" ++ ": " ++ Run.startFault f)
    Run.setStatus (match f with
      | .missing | .notDirectory | .nameTooLong | .tooManyLinks => 127
      | _ => 126)
    throw .exit
  match ← Run.findProgram none (words.headD "") with
  | .program path =>
    match ← Run.work (.programAt e.programs 8 path) with
    | .ok program => throw (.halt (.exited (← Run.work (program ⟨words, environment⟩))))
    | .error f => failing f
  | .unknown f => failing f
  | _ => return 0

def execute (e : Evaluator) (arguments : List String) : Run Nat := do
  match ← Run.noOptions arguments with
  | [] => return 0
  | words => e.replace words

def explain (arguments : List String) : Run Nat := do
  let (found, words) ← Run.options "pvV" arguments
  let path := if found.any (·.1 = 'p') then some Kernel.usualPath else none
  match found.any (·.1 ≠ 'p'), words with
  | true, word :: _ => Run.describe path (found.any (·.1 = 'V')) word
  | _, _ => return 0

def builtin (e : Evaluator) (setting : Setting) (name : String) (arguments : List String) :
    Run Nat := do
  let speaker := (← Run.shell).speaker
  Run.modifyShell fun s => { s with speaker := some name, printed := "" }
  let r ← Run.attempt
    (match name with
    | "eval" =>
      if arguments.isEmpty then return 0
      else e.runText { tested := setting.tested } (" ".intercalate arguments)
    | "." => e.source arguments
    | "exec" => e.execute arguments
    | "command" => explain arguments
    | name =>
      match Run.plainCommands.lookup name with
      | some f => f arguments
      | none => return 127)
  let printed := (← Run.shell).printed
  Run.modifyShell fun s => { s with speaker := some name, printed := "" }
  let fault ← if printed.isEmpty then pure none else Run.write 1 printed
  let status ← match r with
    | .ok status =>
      if fault.isSome then
        Run.warn (name ++ ": I/O error")
        pure (status ||| 1)
      else pure status
    | .error b =>
      Run.modifyShell fun s => { s with speaker }
      throw b
  Run.modifyShell fun s => { s with speaker }
  Run.setStatus status
  return status

def callFunction (e : Evaluator) (setting : Setting) (body : Command) (arguments : List String) :
    Run Nat := do
  let s ← Run.shell
  if s.calls ≥ 1000 then Run.fail "Maximum function recursion depth (1000) reached"
  Run.modifyShell fun s => { s with arguments, loops := 0, calls := s.calls + 1, optionIndex := 1,
                                    optionOffset := none }
  let r ← Run.attempt (e.evaluate { tested := setting.tested } body)
  Run.modifyShell fun t => { t with arguments := s.arguments, loops := s.loops, calls := s.calls,
                                    optionIndex := s.optionIndex, optionOffset := s.optionOffset }
  match r with
  | .error (.leaveFunction _) => return (← Run.shell).status
  | r => Run.resume r

def hasTraps : Run Bool := return (← Run.shell).traps.any (·.2 ≠ "")

def external (e : Evaluator) (setting : Setting) (path : String) (words : List String) : Run Nat := do
  let environment ← Run.environment
  let start ← Run.messageStart
  let x : Work Nat := do
    match ← Work.programAt e.programs 8 path with
    | .ok program => program ⟨words, environment⟩
    | .error f =>
      Work.complain (start ++ words.headD "" ++ ": " ++ Run.startFault f ++ "\n")
      return match f with
        | .missing | .notDirectory | .nameTooLong | .tooManyLinks => 127
        | _ => 126
  if setting.last && !(← hasTraps) then throw (.halt (.exited (← Run.work x)))
  else Run.spawn x

/-! ### The words of a command -/

structure Chosen where
  found : List String
  rest : List Word
  trait : Option Trait := none
  outer : Option Trait := none
  functions : Bool := true
  path : Option String := none

def reach (e : Evaluator) (count : Nat) : List String → List Word → Run (List String × List Word)
  | found, [] => return (found, [])
  | found, w :: rest => do
    if count ≤ found.length then return (found, w :: rest)
    else e.reach count (found ++ (← e.fields w)) rest

def behind (e : Evaluator) : Nat → Nat → Chosen → Run (Option Chosen × Chosen)
  | 0, _, c => return (none, c)
  | fuel + 1, i, c => do
    let (found, rest) ← e.reach (i + 1) c.found c.rest
    let c := { c with found, rest }
    match found[i]? with
    | none => return (none, c)
    | some w =>
      match w.toList with
      | ['-', '-'] =>
        let (found, rest) ← e.reach (i + 2) found rest
        let c := { c with found, rest }
        if i + 1 < found.length then return (some { c with found := found.drop (i + 1) }, c)
        else return (none, c)
      | '-' :: l :: ls =>
        if (l :: ls).all (· = 'p') then
          e.behind fuel (i + 1) { c with path := some Kernel.usualPath }
        else return (none, { c with path := none })
      | _ => return (some { c with found := found.drop i }, c)

def choose (e : Evaluator) : Nat → Chosen → Run Chosen
  | 0, c => return c
  | fuel + 1, c => do
    let name := c.found.headD ""
    if c.functions && (← Run.shell).functions.any (·.1 = name) then return { c with trait := none }
    else
      match commandTraits.lookup name with
      | none => return { c with trait := none }
      | some t =>
        let c := { c with trait := some t, outer := some (c.outer.getD t) }
        if name ≠ "command" then return c
        else
          match ← e.behind (c.rest.length + c.found.length + 1000) 1 c with
          | (some inner, _) => e.choose fuel { inner with functions := false }
          | (none, c) => return c

def remaining (e : Evaluator) (assigns : Bool) : List Word → Run (List String)
  | [] => return []
  | w :: rest => do
    let fs ← match assigns, assignment? w with
      | true, some (name, value) => List.singleton <$> e.assigned name value
      | _, _ => e.fields w
    return fs ++ (← e.remaining assigns rest)

def trace (before : List (Nat × Nat)) (texts : List String) : Run Unit := do
  if ← Run.option 'x' then
    let start := (← Run.value? "PS4").getD ""
    let now := (← Run.shell).process.channels
    putChannel 2 (before.lookup 2)
    let _ ← Run.write 2 (start ++ " ".intercalate texts ++ "\n")
    putChannel 2 (now.lookup 2)

def assignAll (e : Evaluator) (passing exported : Bool) (assignments : List Word) :
    Run (List String) :=
  assignments.mapM fun w => do
    match assignment? w with
    | none => return ""
    | some (name, value) =>
      let text ← e.assigned name value
      if passing then Run.makeLocal true text
      else Run.assignAs exported name ((Run.splitAssignment text).2.getD "")
      return text

def perform (e : Evaluator) (setting : Setting) (c : Chosen) (words : List String) : Run Nat := do
  let special := c.outer.any (·.special)
  let name := words.headD ""
  match c.trait with
  | some _ =>
    match ← Run.attempt (e.builtin setting name (words.drop 1)) with
    | .error .fault => if special then throw .fault else return (← Run.shell).status
    | r => Run.resume r
  | none =>
    match ← Run.meaning c.functions c.path name with
    | .function body => e.callFunction setting body (words.drop 1)
    | .program path => e.external setting path words
    | .builtin _ => e.builtin setting name (words.drop 1)
    | .unknown f =>
      Run.warn (name ++ ": " ++ Run.startFault f)
      return 127

def simple (e : Evaluator) (setting : Setting) (line : Nat) (assignments words : List Word)
    (redirections : List Redirection) : Run Nat := do
  Run.work .spend
  Run.modifyShell fun s => { s with line, inner := 0 }
  let (found, rest) ← e.reach 1 [] words
  let c ← if found.isEmpty then pure { found, rest }
    else e.choose 100 { found, rest }
  let words := c.found ++ (← e.remaining (c.trait.any (·.assigns)) c.rest)
  let special := c.outer.any (·.special)
  let passing := !words.isEmpty && !special
  let replaces := c.trait.isSome && words.headD "" = "exec"
  let os ← e.openings redirections
  let before := (← Run.shell).process.channels
  let level := (← Run.shell).frames.length
  match ← Run.attempt (e.redirect os) with
  | .error .fault =>
    unredirect before os
    Run.setStatus 2
    if special then throw .fault else return 2
  | .error b => throw b
  | .ok () =>
    let r ← Run.attempt do
      if passing then Run.openFrame
      let texts ← e.assignAll passing (replaces && words.length > 1) assignments
      trace before (texts ++ words)
      if words.isEmpty then return (← Run.shell).inner
      else e.perform setting c words
    unless replaces && r matches .ok _ do unredirect before os
    match r with
    | .error .fault => throw .fault
    | .error .exit => throw .exit
    | .error (.halt h) => throw (.halt h)
    | r =>
      if passing then Run.closeFrames level
      Run.resume r

end Evaluator

end KnightLang.Host.Shell
