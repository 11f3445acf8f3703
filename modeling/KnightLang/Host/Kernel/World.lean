import KnightLang.Files.Tree
import KnightLang.Process.Signal
import KnightLang.Text.Octets

namespace KnightLang.Host.Kernel

open Files Process

/-- A pipe keeps all that was written to it. A pipe with a capacity takes no more than that, and then
only a beginning of what was to be written is known. -/
structure Pipe where
  content : ByteArray := .empty
  taken : Nat := 0
  capacity : Option Nat := none
  cut : Bool := false

inductive Target
  | node (id : Nat)
  | pipe (id : Nat)
  deriving DecidableEq, Repr

structure Channel where
  target : Target
  position : Nat := 0
  reads : Bool := false
  writes : Bool := false
  appends : Bool := false

structure Delayed where
  time : Nat
  process : Nat
  channel : Nat
  data : ByteArray

/-- A process in the background is run to its end at once; what it writes to the channels that it
shares with others, which are those below a number, waits until their time has come. -/
structure Aside where
  process : Nat
  shared : Nat

structure World where
  files : Tree
  pipes : Array Pipe := #[]
  channels : Array Channel := #[]
  aside : Option Aside := none
  delayed : List Delayed := []
  budget : Option Nat := none
  next : Nat := 4243
  signals : List (Nat × Nat) := []
  living : List Nat := []
  horizon : Nat := 65536

namespace World

def clock (w : World) : Nat := w.files.now

def setClock (w : World) (time : Nat) : World := { w with files := { w.files with now := time } }

end World

inductive Halt
  | exited (status : Nat)
  | killed (signal : Nat)
  | starved (pipe : Nat)
  | endless

structure Entry where
  number : Nat
  parent : Nat
  directory : Nat
  channels : List (Nat × Nat)
  mask : Nat := 0x12
  deaf : List Nat := []

inductive Access
  | reading
  | writing
  | appending
  | updating
  | creating
  deriving DecidableEq, Repr

def Access.channel (a : Access) (target : Target) : Channel :=
  { target, reads := a = .reading || a = .updating, writes := a ≠ .reading,
    appends := a = .appending }

abbrev Work : Type → Type := ReaderT Entry (ExceptT Halt (StateM World))

namespace Work

def stop {α : Type} (h : Halt) : Work α := throw h

def files : Work Tree := return (← get).files

def setFiles (files : Tree) : Work Unit := modify fun w => { w with files }

def channel? (n : Nat) : Work (Option (Nat × Channel)) := do
  match (← read).channels.lookup n with
  | none => return none
  | some i => return (← get).channels[i]?.map fun c => (i, c)

def moveChannel (i position : Nat) : Work Unit := modify fun w =>
  { w with channels := w.channels.modify i fun c => { c with position } }

def newChannel (c : Channel) : Work Nat := modifyGet fun w =>
  (w.channels.size, { w with channels := w.channels.push c })

def newPipe (capacity : Option Nat) : Work Nat := modifyGet fun w =>
  (w.pipes.size, { w with pipes := w.pipes.push { capacity } })

def overwritten (content : ByteArray) (position : Nat) (data : ByteArray) : ByteArray :=
  if position = content.size then content ++ data
  else
    let gap : ByteArray := ⟨Array.replicate (position - content.size) 0⟩
    content.extract 0 position ++ gap ++ data ++
      content.extract (position + data.size) content.size

def writePipe (id : Nat) (data : ByteArray) : Work (Option Fault) := do
  let pipe := ((← get).pipes[id]?).getD {}
  let room := (pipe.capacity.map (· - pipe.content.size)).getD data.size
  if data.size ≤ room then
    modify fun w => { w with pipes := w.pipes.modify id fun p =>
      { p with content := p.content ++ data } }
    return none
  else
    modify fun w => { w with pipes := w.pipes.modify id fun p =>
      { p with content := p.content ++ data.extract 0 room, cut := true } }
    if (← read).deaf.contains 13 then return some .brokenPipe else stop (.killed 13)

def writeNode (i : Nat) (c : Channel) (id : Nat) (data : ByteArray) : Work (Option Fault) := do
  match (← files).node? id with
  | some (.file content mode) =>
    let position := if c.appends then content.size else c.position
    modify fun w =>
      { w with files := w.files.set id (.file (overwritten content position data) mode) }
    moveChannel i (position + data.size)
    return none
  | some (.device .full) => return some .full
  | some (.device _) => return none
  | _ => return some .badDescriptor

def writeChannel (i : Nat) (c : Channel) (data : ByteArray) : Work (Option Fault) :=
  match c.target with
  | .pipe id => writePipe id data
  | .node id => writeNode i c id data

def write (n : Nat) (text : String) : Work (Option Fault) := do
  match ← channel? n with
  | some (i, c) =>
    if !c.writes then return some .badDescriptor
    else if text.isEmpty then return none
    else
      let data := Octets.toBytes text
      match (← get).aside with
      | some ⟨process, shared⟩ =>
        if i < shared then
          modify fun w => { w with delayed := w.delayed ++ [⟨w.clock, process, i, data⟩] }
          return none
        else writeChannel i c data
      | none => writeChannel i c data
  | none => return some .badDescriptor

def settle : Work Unit := do
  let w ← get
  if w.aside.isNone && !w.delayed.isEmpty then
    let due := w.delayed.filter (·.time ≤ w.clock)
    set { w with delayed := w.delayed.filter fun d => !(d.time ≤ w.clock) }
    for d in due.mergeSort fun (a b : Delayed) => a.time ≤ b.time do
      if let some c := (← get).channels[d.channel]? then
        let _ ← writeChannel d.channel c d.data

def sleep (microseconds : Nat) : Work Unit := do
  modify fun w => w.setClock (w.clock + microseconds)
  settle

def settleAll : Work Unit := do
  let w ← get
  if w.aside.isNone && !w.delayed.isEmpty then
    set (w.setClock (w.delayed.foldl (fun t (d : Delayed) => max t d.time) w.clock))
    settle

def spend : Work Unit := do
  match (← get).budget with
  | none => pure ()
  | some 0 => stop .endless
  | some (n + 1) => modify fun w => { w with budget := some n }

def complain (text : String) : Work Unit := do
  let _ ← write 2 text

def passCut (cause : Halt) : Work Unit := do
  match ← channel? 1 with
  | some (_, { target := .pipe id, .. }) =>
    match (← get).pipes[id]? with
    | some { capacity := some _, .. } =>
      modify fun w => { w with pipes := w.pipes.modify id fun p => { p with cut := true } }
    | _ => stop cause
  | _ => stop cause

def noise : Nat → Nat → List UInt8
  | 0, _ => []
  | count + 1, seed =>
    let seed := (seed * 6364136223846793005 + 1442695040888963407) % 0x10000000000000000
    (seed / 0x100000000).toUInt8 :: noise count seed

def readAvailable (n : Nat) (amount : Option Nat) :
    Work (Except Fault (ByteArray × Option Halt)) := do
  match ← channel? n with
  | none => return .error .badDescriptor
  | some (i, c) =>
    if !c.reads then return .error .badDescriptor
    else
      match c.target with
      | .pipe id =>
        let pipe := ((← get).pipes[id]?).getD {}
        let left := pipe.content.size - pipe.taken
        let count := (amount.getD left).min left
        modify fun w => { w with pipes := w.pipes.modify id fun p =>
          { p with taken := pipe.taken + count } }
        let partly := pipe.cut && (amount.isNone || count < amount.getD 0)
        return .ok (pipe.content.extract pipe.taken (pipe.taken + count),
          if partly then some (.starved id) else none)
      | .node id =>
        let endlessOf (bytes : Nat → List UInt8) : Work (Except Fault (ByteArray × Option Halt)) := do
          match amount with
          | some count => return .ok (⟨(bytes count).toArray⟩, none)
          | none => return .ok (⟨(bytes ((← get).horizon + 1)).toArray⟩, some .endless)
        match (← files).node? id with
        | some (.device .zero) | some (.device .full) => endlessOf fun count => List.replicate count 0
        | some (.device .random) => endlessOf fun count => noise count 1
        | _ =>
          match (← files).content? id with
          | .error f => return .error f
          | .ok content =>
            let stop := (amount.map (c.position + ·)).getD content.size
            let data := content.extract c.position stop
            moveChannel i (c.position + data.size)
            return .ok (data, none)

def readBytes (n : Nat) (amount : Option Nat) (streaming : Bool) : Work (Except Fault ByteArray) := do
  match ← readAvailable n amount with
  | .error f => return .error f
  | .ok (data, none) => return .ok data
  | .ok (data, some cause) =>
    if streaming then passCut cause else stop cause
    return .ok data

def giveBack (n count : Nat) : Work Unit := do
  match ← channel? n with
  | some (i, c) =>
    match c.target with
    | .pipe id => modify fun w => { w with pipes := w.pipes.modify id fun p =>
        { p with taken := p.taken - count } }
    | .node id =>
      match (← files).node? id with
      | some (.file _ _) => moveChannel i (c.position - count)
      | _ => pure ()
  | none => pure ()

def lineLength (content : ByteArray) : Nat → Nat → Nat → Nat
  | 0, _, count => count
  | fuel + 1, position, count =>
    if h : position < content.size then
      if content[position] = 10 then count + 1
      else lineLength content fuel (position + 1) (count + 1)
    else count

def readLine (n : Nat) : Work (Except Fault String) := do
  match ← channel? n with
  | none => return .error .badDescriptor
  | some (_, c) =>
    let (content, start, cut) ←
      match c.target with
      | .pipe id =>
        let pipe := ((← get).pipes[id]?).getD {}
        pure (pipe.content, pipe.taken, pipe.cut)
      | .node id => pure (((← files).content? id).toOption.getD .empty, c.position, false)
    let count := lineLength content (content.size - start) start 0
    let complete := count > 0 && content[start + count - 1]? = some 10
    let line ← readBytes n (some (if cut && !complete then count + 1 else count)) false
    return line.map Octets.ofBytes

def readAll (n : Nat) (streaming : Bool) : Work (Except Fault String) := do
  return (← readBytes n none streaming).map Octets.ofBytes

def openNode (id : Nat) (access : Access) : Work (Except Fault Nat) := do
  let opened : Work (Except Fault Nat) := .ok <$> newChannel (access.channel (.node id))
  match (← files).node? id with
  | some (.directory _ _ _) => if access = .reading then opened else return .error .directory
  | some (.unreadable reason) => return .error (.unreadable reason)
  | some (.device .terminal) => return .error .noDevice
  | some (.device (.descriptor n)) =>
    match ← channel? n with
    | none => return .error .missing
    | some (_, { target := .node other, .. }) =>
      return .ok (← newChannel (access.channel (.node other)))
    | some (_, c) => return .ok (← newChannel { c with position := 0 })
  | some (.file _ mode) =>
    if access = .creating then return .error .exists
    else
      if access = .writing then
        modify fun w => { w with files := w.files.set id (.file .empty mode) }
      opened
  | _ => opened

def openPath (path : String) (access : Access) : Work (Except Fault Nat) := do
  let here := (← read).directory
  match (← files).find here path with
  | .ok id => openNode id access
  | .error .missing =>
    if access = .reading then return .error .missing
    else
      match (← files).create here path (0x1b6 &&& (0x1ff ^^^ (← read).mask)) with
      | .error f => return .error f
      | .ok (id, files) =>
        setFiles files
        return .ok (← newChannel (access.channel (.node id)))
  | .error f => return .error f

def withChannel {α : Type} (n i : Nat) (x : Work α) : Work α :=
  withReader (fun p => { p with channels := (n, i) :: p.channels.filter (·.1 ≠ n) }) x

def readFile (path : String) (streaming : Bool) : Work (Except Fault String) := do
  match ← openPath path .reading with
  | .error f => return .error f
  | .ok i => withChannel 0 i (readAll 0 streaming)

def writeFile (path : String) (access : Access) (text : String) : Work (Option Fault) := do
  match ← openPath path access with
  | .error f => return some f
  | .ok i => withChannel 0 i (write 0 text)

end Work

end KnightLang.Host.Kernel
