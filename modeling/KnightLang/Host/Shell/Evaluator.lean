import KnightLang.Host.Shell.Expansion
import KnightLang.Host.Shell.Grammar
import KnightLang.Host.Shell.Jobs

namespace KnightLang.Host.Shell

open Kernel (Programs Work)
open Process (Ending)

structure Setting where
  tested : Bool := false
  last : Bool := false

structure Evaluator where
  programs : Programs
  evaluate : Setting → Command → Run Nat
  rounds : Nat

namespace Evaluator

def runLines (e : Evaluator) (setting : Setting) (endsOpen : Bool) : Nat → Source → Nat → Run Nat
  | 0, _, status => return status
  | fuel + 1, source, status => do
    if source.rest.isEmpty then return status
    else
      let s ← Run.shell
      match Parser.line { source with aliases := s.aliases, documents := [], next := s.nextDocument } with
      | .error fault =>
        Run.modifyShell fun s => { s with line := fault.line }
        Run.fail ("Syntax error: " ++ fault.message)
      | .ok (c, source) =>
        Run.modifyShell fun s =>
          { s with documents := source.documents ++ s.documents, nextDocument := source.next,
                   reached := source.line }
        match c with
        | .nothing => e.runLines setting endsOpen fuel source status
        | c =>
          let last := setting.last && endsOpen && source.rest.isEmpty
          let status ← e.evaluate { setting with last } c
          e.runLines setting endsOpen fuel source status

def runText (e : Evaluator) (setting : Setting) (text : String) : Run Nat := do
  let reached := (← Run.shell).reached
  Run.andThen (e.runLines setting (!text.endsWith "\n") (text.length + 1) { rest := text.toList } 0)
    (Run.modifyShell fun s => { s with reached })

def runTraps (e : Evaluator) : Run Unit := do
  let s ← Run.shell
  unless s.pending.isEmpty do
    let status := s.kept.getD s.status
    Run.modifyShell fun s => { s with pending := [], kept := some status }
    let finish : Run Unit := Run.modifyShell fun t => { t with kept := s.kept }
    for signal in s.pending.mergeSort (· ≤ ·) do
      match (← Run.shell).traps.lookup signal with
      | none | some "" => pure ()
      | some action =>
        match ← Run.attempt (e.runText {} action) with
        | .ok _ => Run.setStatus status
        | .error (.leaveFunction true) =>
          finish
          throw (.leaveFunction true)
        | .error (.leaveFunction false) =>
          Run.setStatus status
          finish
          throw (.leaveFunction false)
        | .error (.leaveLoops n) =>
          Run.setStatus status
          finish
          throw (.leaveLoops n)
        | .error b => throw b
    finish

def conclude (e : Evaluator) (x : Run Nat) : Run Ending := do
  let gone : Kernel.Halt → Run Ending
    | .exited n => return .exited (n % 256)
    | .killed n => return .killed n
    | h => throw (.halt h)
  match ← Run.attempt x with
  | .error (.halt h) => gone h
  | _ =>
    let s ← Run.shell
    let status := s.kept.getD s.status
    match s.traps.lookup 0 with
    | none | some "" => return .exited (status % 256)
    | some action =>
      Run.modifyShell fun s =>
        { s with traps := s.traps.filter (·.1 ≠ 0), status, kept := some status, loops := 0,
                 speaker := none }
      match ← Run.attempt (e.runText {} action) with
      | .error (.halt h) => gone h
      | _ => return .exited (((← Run.shell).kept.getD status) % 256)

def settlePipe (id : Nat) : Work Unit := do
  let w ← get
  unless w.delayed.isEmpty do
    let here (d : Kernel.Delayed) : Bool :=
      (w.channels[d.channel]?).any fun c => decide (c.target = .pipe id)
    let (mine, others) := w.delayed.partition here
    let time := mine.foldl (fun t (d : Kernel.Delayed) => max t d.time) w.clock
    set { w.setClock time with delayed := others }
    for d in mine.mergeSort fun (a b : Kernel.Delayed) => a.time ≤ b.time do
      let _ ← Work.writePipe id d.data

def substitute (e : Evaluator) (c : Command) : Run String := do
  let _ ← Run.newJob
  let pipe ← Run.work (.newPipe none)
  let channel ← Run.work (.newChannel { target := .pipe pipe, writes := true })
  let ending ← Run.inCopy (fun s =>
      { s with process := { s.process with
          channels := (1, channel) :: s.process.channels.filter (·.1 ≠ 1) } })
    (e.conclude (e.evaluate { last := true } c))
  Run.work (settlePipe pipe)
  Run.report ending
  Run.notice
  Run.receive
  Run.modifyShell fun s => { s with inner := ending.status }
  return Octets.ofBytes (((← Run.world).pipes[pipe]?.map (·.content)).getD .empty)

def fields (e : Evaluator) (w : Word) : Run (List String) := Run.fields e.substitute w

def text (e : Evaluator) (w : Word) : Run String := Run.text e.substitute {} w

def assigned (e : Evaluator) (name : String) (value : Word) : Run String :=
  Run.assignmentText e.substitute name value

end Evaluator

end KnightLang.Host.Shell
