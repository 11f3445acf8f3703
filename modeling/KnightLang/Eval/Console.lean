import KnightLang.Eval.Error
import KnightLang.Files.Tree
import KnightLang.Text.Lines
import KnightLang.Text.Utf8

namespace KnightLang

/-- Bytes to be read. A reader takes them in pieces: what it has taken and not yet used is `ahead`,
and the other pieces wait in order. After the last byte comes the end, or a failure. -/
structure Input where
  ahead : List UInt8 := []
  pieces : List (List UInt8) := []
  failure : Option String := none

namespace Input

def splitLine? (bs : List UInt8) : Option (List UInt8 × List UInt8) :=
  match bs.dropWhile (· ≠ 10) with
  | [] => none
  | stop :: rest => some (bs.takeWhile (· ≠ 10) ++ [stop], rest)

theorem append_of_splitLine? {bs line rest : List UInt8} (h : splitLine? bs = some (line, rest)) :
    line ++ rest = bs := by
  unfold splitLine? at h
  split at h
  · simp at h
  · rename_i stop tail hd
    simp only [Option.some.injEq, Prod.mk.injEq] at h
    obtain ⟨rfl, rfl⟩ := h
    rw [List.append_assoc, List.singleton_append, ← hd, List.takeWhile_append_dropWhile]

def takeLine (line held : List UInt8) (pieces : List (List UInt8)) :
    List UInt8 × List UInt8 × List (List UInt8) :=
  match splitLine? held with
  | some (last, rest) => (line ++ last, rest, pieces)
  | none =>
    match pieces with
    | [] => (line ++ held, [], [])
    | piece :: pieces => takeLine (line ++ held) piece pieces

theorem takeLine_append (line held : List UInt8) (pieces : List (List UInt8)) :
    (takeLine line held pieces).1 ++ (takeLine line held pieces).2.1 ++
      (takeLine line held pieces).2.2.flatten = line ++ held ++ pieces.flatten := by
  fun_induction takeLine line held pieces with
  | case1 line held pieces last rest h => simp [← append_of_splitLine? h]
  | case2 => simp
  | case3 => simp_all

/-- The next line with its line end. It is empty at the end of the input, and there is none where
reading fails; the bytes before the failure are lost. -/
def readLine (i : Input) : Except Failure (List UInt8) × Input :=
  let (line, ahead, pieces) := takeLine [] i.ahead i.pieces
  let i' := { i with ahead, pieces }
  if line.getLast? = some 10 then (.ok line, i')
  else
    match i.failure with
    | some reason => (.error (.unreadable reason), i')
    | none => (.ok line, i')

def readWaitingLine (i : Input) : List UInt8 × Input :=
  let (line, rest, pieces) := takeLine [] [] i.pieces
  (line, { i with pieces := rest :: pieces })

def cut : Nat → List UInt8 → List (List UInt8)
  | 0, _ => []
  | count + 1, bs => bs.take 8192 :: cut count (bs.drop 8192)

def arriving (bs : List UInt8) : Input := { pieces := cut ((bs.length + 8191) / 8192) bs }

def content (i : Input) : List UInt8 := i.ahead ++ i.pieces.flatten

end Input

structure FlushFailures where
  fails : Nat → Bool := fun _ => false

instance : Coe (Option Nat) FlushFailures := ⟨fun failing => ⟨fun n => failing == some n⟩⟩

/-- Bytes written so far, in a place that may take no more than some number of them, and where
flushes may fail. -/
structure Output where
  written : ByteArray := .empty
  capacity : Option Nat := none
  failingFlush : FlushFailures := {}
  flushes : Nat := 0

namespace Output

def write (data : ByteArray) (o : Output) : Bool × Output :=
  match o with
  | ⟨written, none, failingFlush, flushes⟩ => (true, ⟨written ++ data, none, failingFlush, flushes⟩)
  | ⟨written, some capacity, failingFlush, flushes⟩ =>
    let room := capacity - written.size
    if data.size ≤ room then (true, ⟨written ++ data, some capacity, failingFlush, flushes⟩)
    else (false, ⟨written ++ data.extract 0 room, some capacity, failingFlush, flushes⟩)

def flush (o : Output) : Bool × Output :=
  (!o.failingFlush.fails (o.flushes + 1), { o with flushes := o.flushes + 1 })

end Output

inductive Event
  | flushed (written : Nat)
  | lineRead (written : Nat)
  | commandStarted (written : Nat)
  deriving DecidableEq, Repr

structure Console where
  input : Input := {}
  output : Output := {}
  events : List Event := []
  draws : Nat := 0
  commands : Nat := 0
  files : Files.Tree := {}

namespace Console

def write (text : String) : ExceptT Failure (StateM Console) Unit :=
  fun ⟨input, output, events, draws, commands, files⟩ =>
    let (all, output) := output.write text.toByteArray
    (if all then .ok () else .error .sinkFull, ⟨input, output, events, draws, commands, files⟩)

def flush : ExceptT Failure (StateM Console) Unit :=
  fun ⟨input, output, events, draws, commands, files⟩ =>
    let (done, output) := output.flush
    if done then
      (.ok (), ⟨input, output, .flushed output.written.size :: events, draws, commands, files⟩)
    else (.error .flushFailed, ⟨input, output, events, draws, commands, files⟩)

/-- The text of the next line without its line end, or nothing at the end of the input. -/
def readLine : ExceptT Failure (StateM Console) (Option String) :=
  fun ⟨input, output, events, draws, commands, files⟩ =>
    let events := .lineRead output.written.size :: events
    let (line, input) := input.readLine
    let text :=
      match line with
      | .error failure => .error failure
      | .ok [] => .ok none
      | .ok line =>
        match Text.decode? line with
        | none => .error .invalidText
        | some text => .ok (some (Text.dropLineEnd text))
    (text, ⟨input, output, events, draws, commands, files⟩)

def runCommand {α : Type} (command : Nat → Files.Tree → α × Files.Tree) : StateM Console α :=
  fun ⟨input, output, events, draws, commands, files⟩ =>
    let (result, files) := command commands files
    (result, ⟨input, output, .commandStarted output.written.size :: events, draws, commands + 1, files⟩)

def startDraw : StateM Console Nat :=
  fun ⟨input, output, events, draws, commands, files⟩ =>
    (draws, ⟨input, output, events, draws + 1, commands, files⟩)

def flushPositions (c : Console) : List Nat :=
  c.events.foldl (fun positions event =>
    match event with
    | .flushed written => written :: positions
    | _ => positions) []

end Console

end KnightLang
