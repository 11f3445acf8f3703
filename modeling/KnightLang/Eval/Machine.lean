import KnightLang.Eval.Arithmetic
import KnightLang.Eval.Builtins

/-!
Evaluation, as a machine that takes one step at a time. It has a node or a value at hand, and a stack
of frames that say what becomes of the value. An operand whose value is the value of the whole, such
as the right side of `;` and the chosen branch of `IF`, takes the place of the whole and adds no frame.
-/
namespace KnightLang

inductive Frame
  | unary (op : UnaryOp)
  | left (op : BinaryOp) (right : Node)
  | right (op : BinaryOp) (left : Value)
  | chain (next : Node)
  | and (right : Node)
  | or (right : Node)
  | assign (target : Variable)
  | branch (args : List Node)
  | loopTest (args : List Node)
  | loopBody (args : List Node)
  | argument (builtin : Builtin) (args : List Node) (done : List Value)

inductive Control
  | node (n : Node)
  | value (v : Value)

structure Config where
  control : Control
  frames : List Frame
  state : State

inductive Step
  | next (c : Config)
  | halt (result : Except Stop Value) (s : State)

namespace Machine

@[inline] def after {α : Type} (action : Action α) (s : State) (go : α → State → Step) : Step :=
  match action s with
  | (.ok a, s) => go a s
  | (.error stop, s) => .halt (.error stop) s

@[inline] def eval (n : Node) (frames : List Frame) (s : State) : Step :=
  .next ⟨.node n, frames, s⟩

@[inline] def give (v : Value) (frames : List Frame) (s : State) : Step :=
  .next ⟨.value v, frames, s⟩

@[inline] def withArgument (args : List Node) (i : Nat) (s : State) (go : Node → Step) : Step :=
  match args[i]? with
  | some n => go n
  | none => .halt (.error (.panic (.missingArgument i args.length))) s

@[inline] def force (v : Value) (frames : List Frame) (s : State) : Step :=
  match v with
  | .block body => eval body frames s
  | v => give v frames s

def apply (builtin : Builtin) (args : List Value) (frames : List Frame) (s : State) : Step :=
  match builtin, args with
  | .ascii, [v] => after (Action.ascii v) s (give · frames)
  | .call, [v] => force v frames s
  | .dump, [v] => after (Action.display v.dump) s (give · frames)
  | .eval, [v] =>
    after (Action.toStr v >>= Action.sourceProgram) s fun program s => eval program.root frames s
  | .get, [string, start, count] => after (Action.get string start count) s (give · frames)
  | .length, [v] =>
    after (Action.toStr v) s fun str s => give (.int (.ofNat str.length)) frames s
  | .output, [v] => after (Action.output v) s (give · frames)
  | .quit, [v] =>
    after (Action.toInt v) s fun n s => .halt (.error (.error (.quit (Action.quitCode n)))) s
  | .substitute, [string, start, count, replacement] =>
    after (Action.substitute string start count replacement) s (give · frames)
  | _, _ => .halt (.error (.panic (.missingArgument args.length args.length))) s

def call (around : Surroundings) (builtin : Builtin) (args : List Node) (frames : List Frame)
    (s : State) : Step :=
  match builtin with
  | .block => withArgument args 0 s fun body => give (.block body) frames s
  | .dumpTree =>
    withArgument args 0 s fun tree => after (Action.display tree.render) s (give · frames)
  | .prompt => after Action.prompt s (give · frames)
  | .random => after (Action.random around) s (give · frames)
  | .branch => withArgument args 0 s (eval · (.branch args :: frames) s)
  | .loop => withArgument args 0 s (eval · (.loopTest args :: frames) s)
  | _ => withArgument args 0 s (eval · (.argument builtin args [] :: frames) s)

def enter (around : Surroundings) (n : Node) (frames : List Frame) (s : State) : Step :=
  match n with
  | .literal _ v => give v frames s
  | .var _ v =>
    after (Action.onStore (Store.read? v)) s fun value s =>
      match value with
      | some value => force value frames s
      | none => .halt (.error (.error (.undefinedVariable v.name))) s
  | .unary _ op operand => eval operand (.unary op :: frames) s
  | .binary _ .chain left right => eval left (.chain right :: frames) s
  | .binary _ .and left right => eval left (.and right :: frames) s
  | .binary _ .or left right => eval left (.or right :: frames) s
  | .binary _ .assign target right =>
    match target with
    | .var _ v => eval right (.assign v :: frames) s
    | _ => .halt (.error (.error (.notAssignable target.render))) s
  | .binary _ op left right => eval left (.left op right :: frames) s
  | .call _ _ builtin args => call around builtin args frames s

def resume (around : Surroundings) (v : Value) (frame : Frame) (frames : List Frame) (s : State) :
    Step :=
  match frame with
  | .unary op => after (Action.unary around op v) s (give · frames)
  | .left op right => eval right (.right op v :: frames) s
  | .right op left => after (Action.binary op left v) s (give · frames)
  | .chain next => eval next frames s
  | .and right =>
    after (Action.toBool v) s fun b s => if b then eval right frames s else give v frames s
  | .or right =>
    after (Action.toBool v) s fun b s => if b then give v frames s else eval right frames s
  | .assign target => after (Action.onStore (Store.write target v)) s fun _ s => give v frames s
  | .branch args =>
    after (Action.toBool v) s fun b s =>
      withArgument args (if b then 1 else 2) s (eval · frames s)
  | .loopTest args =>
    after (Action.toBool v) s fun b s =>
      if b then withArgument args 1 s (eval · (.loopBody args :: frames) s)
      else give .null frames s
  | .loopBody args => withArgument args 0 s (eval · (.loopTest args :: frames) s)
  | .argument builtin args done =>
    let done := done ++ [v]
    if done.length < builtin.arity then
      withArgument args done.length s (eval · (.argument builtin args done :: frames) s)
    else apply builtin done frames s

def step (around : Surroundings) : Config → Step
  | ⟨.node n, frames, s⟩ => enter around n frames s
  | ⟨.value v, frame :: frames, s⟩ => resume around v frame frames s
  | ⟨.value v, [], s⟩ => .halt (.ok v) s

def run (around : Surroundings) : Nat → Config → Option (Except Stop Value × State)
  | 0, _ => none
  | fuel + 1, c =>
    match step around c with
    | .next c => run around fuel c
    | .halt result s => some (result, s)

end Machine

def Node.eval (around : Surroundings) (fuel : Nat) (n : Node) (s : State) :
    Option (Except Stop Value × State) :=
  Machine.run around fuel ⟨.node n, [], s⟩

/-- Runs a program: warms the cache, evaluates the tree, and flushes the output unless the run has
panicked. When that flush fails, this is the result. -/
def Program.execute (around : Surroundings) (fuel : Nat) (p : Program) (s : State) :
    Option (Except Stop Value × State) :=
  let (_, s) := Action.onStrings Cache.warm s
  match p.root.eval around fuel s with
  | none => none
  | some (.error (.panic reason), s) => some (.error (.panic reason), s)
  | some (result, s) =>
    match Action.flush s with
    | (.ok _, s) => some (result, s)
    | (.error stop, s) => some (.error stop, s)

end KnightLang
