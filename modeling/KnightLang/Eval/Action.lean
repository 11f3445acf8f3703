import KnightLang.Eval.Console
import KnightLang.Parse
import KnightLang.Tree.Coercion

namespace KnightLang

structure State where
  workspace : Workspace
  console : Console

inductive Stop
  | error (e : RuntimeError)
  | panic (p : Panic)
  deriving DecidableEq, Repr

abbrev Action : Type → Type := ExceptT Stop (StateM State)

/-- What a program does not decide: the numbers that it draws, and how commands turn out, which is how
they end, what they print and which files they leave. -/
structure Surroundings where
  draw : Nat → Int64
  command : Nat → String → Files.Tree → (Process.Ending × List UInt8) × Files.Tree

namespace Surroundings

def drawn (seed n : Nat) : Int64 :=
  .ofNat ((seed + (n + 1) * 6364136223846793005) * 1442695040888963407 % 0x8000000000000000)

end Surroundings

namespace Action

@[inline] def fail {α : Type} (e : RuntimeError) : Action α := throw (.error e)

@[inline] def onWorkspace {α : Type} (x : StateM Workspace α) : Action α :=
  fun ⟨workspace, console⟩ =>
    let (a, workspace) := x workspace
    (.ok a, ⟨workspace, console⟩)

@[inline] def onStrings {α : Type} (x : StateM Interner α) : Action α :=
  onWorkspace (Workspace.onStrings x)

@[inline] def onStore {α : Type} (x : StateM Store α) : Action α :=
  onWorkspace (Workspace.onStore x)

@[inline] def onConsole {α : Type} (x : StateM Console α) : Action α :=
  fun ⟨workspace, console⟩ =>
    let (a, console) := x console
    (.ok a, ⟨workspace, console⟩)

@[inline] def transfer {α : Type} (x : ExceptT Failure (StateM Console) α) : Action α := do
  match ← onConsole x.run with
  | .ok a => return a
  | .error failure => fail (.inputOutput failure)

@[inline] def ofPanic {α : Type} : Except Panic α → Action α
  | .ok a => return a
  | .error p => throw (.panic p)

def toBool (v : Value) : Action Bool := ofPanic v.toBool

def toInt (v : Value) : Action Int64 := ofPanic v.toInt

def toStr (v : Value) : Action Str := do ofPanic (← onStrings v.toStr)

def string (text : String) : Action Value := return .str (← onStrings (Cache.string text))

end Action

end KnightLang
