import KnightLang.Host.Shell.Simple

namespace KnightLang.Host.Shell

open Kernel (Work)
open Process (Ending)

namespace Evaluator

/-! ### Loops -/

inductive Round
  | done (status : Nat)
  | next
  | stop

def round (x : Run Nat) : Run Round := do
  match ← Run.attempt x with
  | .ok status => return .done status
  | .error (.leaveLoops n) => if n ≤ 1 then return .stop else throw (.leaveLoops (n - 1))
  | .error (.nextRound n) => if n ≤ 1 then return .next else throw (.nextRound (n - 1))
  | .error b => throw b

def insideLoop (x : Run Nat) : Run Nat := do
  let loops := (← Run.shell).loops
  Run.modifyShell fun s => { s with loops := loops + 1 }
  Run.andThen x (Run.modifyShell fun s => { s with loops })

def repeated (condition body : Run Nat) (whileTrue : Bool) : Nat → Nat → Run Nat
  | 0, _ => throw (.halt .endless)
  | fuel + 1, status => do
    match ← round condition with
    | .stop => return status
    | .next => repeated condition body whileTrue fuel status
    | .done n =>
      if (n = 0) ≠ whileTrue then return status
      else
        match ← round body with
        | .stop => return 0
        | .next => repeated condition body whileTrue fuel 0
        | .done status => repeated condition body whileTrue fuel status

def forEach (name : String) (body : Run Nat) : List String → Nat → Run Nat
  | [], status => return status
  | w :: rest, _ => do
    Run.assign name w
    match ← round body with
    | .stop => return 0
    | .next => forEach name body rest 0
    | .done status => forEach name body rest status

/-! ### Choices -/

def matchesAny (e : Evaluator) (subject : List Char) : List Word → Run Bool
  | [] => return false
  | p :: rest => do
    let gs ← Run.expand e.substitute Run.depth {} p
    if Pattern.isMatch (Glyph.pattern gs) subject then return true
    else e.matchesAny subject rest

def chooseCase (e : Evaluator) (setting : Setting) (subject : List Char) : List Case → Run Nat
  | [] => return 0
  | .mk patterns body :: rest => do
    if ← e.matchesAny subject patterns then
      match body with
      | .nothing => return 0
      | body => e.evaluate setting body
    else e.chooseCase setting subject rest

/-! ### Other processes -/

def part (e : Evaluator) (setting : Setting) (channels : List (Nat × Nat)) (c : Command) :
    Run Ending :=
  Run.inCopy (fun s =>
      { s with process := { s.process with
          channels := channels ++ s.process.channels.filter fun (n, _) =>
            !channels.any (·.1 = n) } })
    (e.conclude (e.evaluate { setting with last := true } c))

def parts (e : Evaluator) (setting : Setting) : List (Nat × Nat) → List Command → Run Nat
  | _, [] => return 0
  | input, [c] => do
    let ending ← e.part setting input c
    Run.report ending
    return ending.status
  | input, c :: rest => do
    let pipe ← Run.work (.newPipe (some (← Run.world).horizon))
    let out ← Run.work (.newChannel { target := .pipe pipe, writes := true })
    let ending ← e.part setting ((1, out) :: input) c
    Run.work (settlePipe pipe)
    Run.report ending
    let input ← Run.work (.newChannel { target := .pipe pipe, reads := true })
    e.parts setting [(0, input)] rest

/-- Runs a pipeline. If a part needs more of what the one before writes than is looked at, all is
done again and more is looked at. -/
def pipeline (e : Evaluator) (setting : Setting) (cs : List Command) : Nat → Run Nat
  | 0 => throw (.halt .endless)
  | tries + 1 => do
    let before ← get
    let _ ← Run.newJob
    match ← Run.attempt (e.parts setting [] cs) with
    | .error (.halt (.starved pipe)) =>
      if pipe < before.world.pipes.size then throw (.halt (.starved pipe))
      else
        set { before with world.horizon := 16 * before.world.horizon }
        e.pipeline setting cs tries
    | r =>
      Run.modifyWorld fun w => { w with horizon := before.world.horizon }
      Run.notice
      Run.receive
      Run.resume r

def subshell (e : Evaluator) (setting : Setting) (c : Command) (rs : List Redirection) : Run Nat := do
  let os ← e.openings rs
  let body : Run Nat := do
    e.redirect os
    e.evaluate { setting with last := true } c
  if setting.last && !(← hasTraps) then
    let _ ← body
    throw .exit
  else
    let _ ← Run.newJob
    let ending ← Run.inCopy id (e.conclude body)
    Run.report ending
    Run.notice
    Run.receive
    return ending.status

/-- Starts a command in the background. It is run to its end at once, but what it writes and when it
ends are told when their time has come. -/
def background (e : Evaluator) (c : Command) : Run Nat := do
  Run.work .settle
  let number ← Run.newJob
  let w ← Run.world
  let null ← Run.work (.openPath "/dev/null" .reading)
  Run.modifyWorld fun v => { v with
    aside := some (w.aside.getD ⟨w.next, w.channels.size⟩), budget := some (w.budget.getD 5000) }
  let r ← Run.attempt (Run.inCopy (fun s =>
      let others := s.process.channels.filter (·.1 ≠ 0)
      { s with process := { s.process with
          deaf := 2 :: 3 :: s.process.deaf
          channels := match null with
            | .ok i => (0, i) :: others
            | .error _ => others } })
    (e.conclude (e.evaluate { last := true } c)))
  let finish := (← Run.world).clock
  Run.modifyWorld fun v => { v.setClock w.clock with aside := w.aside, budget := w.budget }
  let (finish, ending) ← match r with
    | .ok ending => pure (some finish, ending)
    | .error (.halt .endless) => pure (none, .killed 15)
    | .error b => throw b
  let job : Job := { number, process := w.next, finish, ending }
  Run.modifyShell fun s => { s with background := some w.next, jobs := job :: s.jobs }
  return 0

/-! ### Commands -/

def dispatch (e : Evaluator) (setting : Setting) : Command → Run (Nat × Bool)
  | .nothing => return ((← Run.shell).status, false)
  | .simple line assignments words rs => do
    return (← e.simple setting line assignments words rs, true)
  | .pipeline cs => do return (← e.pipeline setting cs 8, true)
  | .not c => do
    let status ← e.evaluate { tested := true } c
    return (if status = 0 then 1 else 0, false)
  | .and a b => do
    let status ← e.evaluate { tested := true } a
    if status ≠ 0 then return (status, false) else return (← e.evaluate setting b, false)
  | .or a b => do
    let status ← e.evaluate { tested := true } a
    if status = 0 then return (0, false) else return (← e.evaluate setting b, false)
  | .sequence a b => do
    let _ ← e.evaluate { tested := setting.tested } a
    return (← e.evaluate setting b, false)
  | .background line c => do
    Run.modifyShell fun s => { s with line }
    return (← e.background c, true)
  | .subshell line c rs => do
    Run.modifyShell fun s => { s with line }
    return (← e.subshell setting c rs, true)
  | .redirected line c rs => do
    Run.modifyShell fun s => { s with line }
    return (← e.redirected rs (e.evaluate { tested := setting.tested } c), false)
  | .branch condition yes no => do
    let status ← e.evaluate { tested := true } condition
    match status, no with
    | 0, _ => return (← e.evaluate setting yes, false)
    | _, .nothing => return (0, false)
    | _, no => return (← e.evaluate setting no, false)
  | .loop whileTrue condition body => do
    let status ← insideLoop (repeated (e.evaluate { tested := true } condition)
      (e.evaluate { tested := setting.tested } body) whileTrue e.rounds 0)
    return (status, false)
  | .each line name words body => do
    Run.modifyShell fun s => { s with line }
    let fields ← words.mapM e.fields
    let status ← insideLoop
      (forEach name (e.evaluate { tested := setting.tested } body) fields.flatten 0)
    return (status, false)
  | .choose line subject cases => do
    Run.modifyShell fun s => { s with line }
    let subject ← e.text subject
    return (← e.chooseCase setting subject.toList cases, false)
  | .define _ name body => do
    Run.modifyShell fun s => { s with functions := (name, body) :: s.functions.filter (·.1 ≠ name) }
    return (0, false)

def step (e : Evaluator) (setting : Setting) (c : Command) : Run Nat := do
  e.runTraps
  if ← Run.option 'n' then return (← Run.shell).status
  else
    let (status, checked) ← e.dispatch setting c
    Run.setStatus status
    e.runTraps
    if checked && !setting.tested && status ≠ 0 && (← Run.option 'e') then throw .exit
    return status

end Evaluator

def evaluate (programs : Kernel.Programs) : Nat → Setting → Command → Run Nat
  | 0, _, _ => throw (.halt .endless)
  | depth + 1, setting, c =>
    Evaluator.step { programs, evaluate := evaluate programs depth, rounds := 0xffffffff } setting c

end KnightLang.Host.Shell
