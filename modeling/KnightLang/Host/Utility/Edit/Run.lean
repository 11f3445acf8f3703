import KnightLang.Host.Utility.Edit.Script
import KnightLang.Host.Utility.Lines
import KnightLang.Host.Utility.Manage

namespace KnightLang.Host.Utility.Edit

open Kernel (Call Work Halt)
open Files (Fault)

structure Line where
  text : String
  ended : Bool

structure Output where
  text : String := ""
  missing : Bool := false

def Output.add (o : Output) (text : String) (lineEnd : String) : Output :=
  { text := o.text ++ (if o.missing then lineEnd else "") ++ text, missing := false }

def Output.addLine (o : Output) (text : String) (lineEnd : String) (ended : Bool) : Output :=
  { o.add (text ++ (if ended then lineEnd else "")) lineEnd with missing := !ended }

inductive Queued
  | text (s : String)
  | file (path : String)
  | line (l : Line)

inductive Extent
  | upTo (line : Nat)
  | untilMatch

structure Settings where
  script : Script
  quiet : Bool
  separate : Bool
  inPlace : Option String
  lineEnd : Char
  width : Nat

structure State where
  pattern : String := ""
  ended : Bool := true
  held : String := ""
  line : Nat := 0
  ranges : List (Nat × Extent) := []
  changed : Bool := false
  queue : List Queued := []
  used : Option Pattern := none
  name : String := "-"
  lines : List Line := []
  paths : List String := []
  cut : Option Halt := none
  output : Output := {}
  written : List (String × Output × Nat) := []
  readers : List (String × List Line) := []
  status : Nat := 0
  editing : Bool := false

inductive Stopped
  | failed (status : Nat) (text : String)
  | quit (status : Nat)

abbrev Editor : Type → Type := ExceptT Stopped (StateT State Work)

def work {α : Type} (x : Work α) : Editor α := liftM (m := StateT State Work) (liftM x)

def linesOf (lineEnd : Char) (text : String) : List Line :=
  (piecesWithEnds lineEnd text).map fun l =>
    if l.endsWith (String.singleton lineEnd) then ⟨(l.dropEnd 1).copy, true⟩ else ⟨l, false⟩

/-! ### Output -/

def Settings.ending (s : Settings) : String := String.singleton s.lineEnd

def emit (s : Settings) (text : String) : Editor Unit :=
  modify fun t => { t with output := t.output.add text s.ending }

def emitLine (s : Settings) (text : String) (ended : Bool) : Editor Unit :=
  modify fun t => { t with output := t.output.addLine text s.ending ended }

def emitTo (s : Settings) (path text : String) (ended : Bool) : Editor Unit := do
  if path = "/dev/stdout" then
    match s.inPlace with
    | none => emitLine s text ended
    | some _ => work (say (text ++ (if ended then s.ending else "")))
  else if path = "/dev/stderr" then work (Work.complain (text ++ (if ended then s.ending else "")))
  else
    match (← get).written.lookup path with
    | none => pure ()
    | some (o, channel) =>
      let o := o.addLine text s.ending ended
      let _ ← work (Work.withChannel 3 channel (Work.write 3 o.text))
      modify fun t => { t with written := t.written.map fun (p, old, c) =>
        if p = path then (p, { o with text := "" }, c) else (p, old, c) }

def emptyQueue (s : Settings) : Editor Unit := do
  let queue := (← get).queue
  modify fun t => { t with queue := [] }
  for q in queue do
    match q with
    | .text text => emit s text
    | .line l => emitLine s l.text l.ended
    | .file path =>
      match ← work (readInput (if path = "/dev/stdin" then "-" else path) false) with
      | .ok text => unless text.isEmpty do emit s text
      | .error _ => pure ()

/-! ### Input -/

def closeFile (s : Settings) : Editor Unit := do
  let t ← get
  match s.inPlace with
  | none => pure ()
  | some suffix =>
    if t.editing then
      work do
        if let .ok (_, node) ← nodeAt true t.name then
          unless suffix.isEmpty do
            let old := if suffix.contains '*' then suffix.replace "*" (lastPart t.name)
              else t.name ++ suffix
            let _ ← change fun tree here => tree.rename here t.name old
          let _ ← change fun tree here => do
            let (directory, name) ← tree.place here t.name
            let mode := node.mode
            return ((tree.leave directory name).add directory name
              (.file (Octets.toBytes t.output.text) mode)).2
      set { t with output := {}, editing := false }

def openNext (s : Settings) : Editor Bool := do
  match (← get).paths with
  | [] => return false
  | path :: paths =>
    modify fun t => { t with paths }
    let found ← work do
      match s.inPlace, ← nodeAt true path with
      | some _, .ok (_, .file _ _) | none, _ => readSome path
      | some _, .error f => return .error f
      | some _, .ok _ => return .error .badDescriptor
    match found with
    | .ok (text, cut) =>
      let all := linesOf s.lineEnd text
      let lines := if cut.isSome && all.getLast?.any (!·.ended) then all.dropLast else all
      modify fun t => { t with lines, cut, name := path, editing := s.inPlace.isSome }
      if s.separate then modify fun t => { t with line := 0 }
    | .error .badDescriptor =>
      work (Work.complain ("sed: couldn't edit " ++ path ++ ": not a regular file\n"))
      modify fun t => { t with status := 4 }
    | .error .directory =>
      throw (.failed 4 ("read error on " ++ (if path = "-" then "stdin" else path) ++
        ": Is a directory"))
    | .error f =>
      work (Work.complain ("sed: can't read " ++ path ++ ": " ++ f.text ++ "\n"))
      modify fun t => { t with status := 2 }
    return true

def fill (s : Settings) : Nat → Editor Unit
  | 0 => pure ()
  | fuel + 1 => do
    let t ← get
    if t.lines.isEmpty && t.cut.isNone then
      if ← openNext s then fill s fuel

def isLast (s : Settings) : Editor Bool := do
  unless s.separate do fill s ((← get).paths.length + 1)
  let t ← get
  return t.lines.isEmpty && t.cut.isNone

def nextLine? (s : Settings) : Editor (Option Line) := do
  let t ← get
  if t.lines.isEmpty && t.cut.isNone then
    closeFile s
    fill s (t.paths.length + 1)
  let rec find : Nat → Editor (Option Line)
    | 0 => return none
    | fuel + 1 => do
      let t ← get
      match t.lines, t.cut with
      | l :: lines, _ =>
        set { t with lines, line := t.line + 1, ended := l.ended }
        return some l
      | [], some cause =>
        -- What follows is not known: the output is a beginning too.
        let text := t.output.text
        set { t with output := {}, cut := none, paths := [] }
        unless text.isEmpty do work (say text)
        work (Work.passCut cause)
        return none
      | [], none =>
        closeFile s
        if t.paths.isEmpty then return none
        else
          let _ ← openNext s
          find fuel
  find (t.paths.length + 3)

/-! ### Addresses -/

def patternOf (p : Option Pattern) : Editor Pattern := do
  let used := (← get).used
  match p.orElse fun _ => used with
  | some p =>
    modify fun t => { t with used := some p }
    return p
  | none => throw (.failed 1 "-e expression #1, char 0: no previous regular expression")

def subject (p : Pattern) (text : String) : Regex.Subject :=
  { text := text.toList.toArray, ignoreCase := p.ignoreCase, lines := p.lines }

def hits (s : Settings) (a : Address) : Editor Bool := do
  let t ← get
  match a with
  | .line n => return t.line = n
  | .every first step => return t.line ≥ first && (t.line - first) % step = 0
  | .last => isLast s
  | .pattern p =>
    let p ← patternOf p
    return (p.regex.search (subject p t.pattern) 0).isSome

def selects (s : Settings) (i : Nat) (c : Command) : Editor Bool := do
  let t ← get
  let activate (e : Option Extent) : Editor Unit := modify fun t =>
    { t with ranges := (match e with
      | some e => [(i, e)]
      | none => []) ++ t.ranges.filter (·.1 ≠ i) }
  match c.start, c.stop with
  | none, _ => return true
  | some a, none => hits s a
  | some a, some stop =>
    let active : Option Extent := match t.ranges.lookup i, a with
      | some e, _ => some e
      | none, .line 0 => if t.line = 1 then some .untilMatch else none
      | none, _ => none
    match active with
    | some (.upTo n) =>
      if t.line ≥ n then activate none
      if t.line > n then hits s a else return true
    | some .untilMatch =>
      match stop with
      | .at b => if ← hits s b then activate none else activate (some .untilMatch)
      | _ => pure ()
      return true
    | none =>
      if ← hits s a then
        match stop with
        | .at (.line n) => if t.line < n then activate (some (.upTo n))
        | .after n => if n > 0 then activate (some (.upTo (t.line + n)))
        | .multiple n =>
          if n > 0 && t.line % n ≠ 0 then activate (some (.upTo ((t.line / n + 1) * n)))
        | .at _ => activate (some .untilMatch)
        return true
      else return false

def isActive (i : Nat) : Editor Bool := return ((← get).ranges.lookup i).isSome

/-! ### Substitution -/

structure Cased where
  text : String := ""
  one : Casing := .same
  all : Casing := .same

def Cased.add (c : Cased) (s : String) : Cased :=
  if s.isEmpty then c
  else
    let put (k : Casing) (s : String) : String :=
      match k with
      | .upper | .upperOne => s.map Char.toUpper
      | .lower | .lowerOne => s.map Char.toLower
      | .same => s
    let s := put c.all s
    let s := if c.one = .same then s else put c.one (s.take 1).copy ++ (s.drop 1).copy
    { c with text := c.text ++ s, one := .same }

def Cased.set (c : Cased) (k : Casing) : Cased :=
  match k with
  | .upperOne | .lowerOne => { c with one := k }
  | .upper | .lower => { c with all := k }
  | .same => { c with one := .same, all := .same }

def replaced (text : Array Char) (start : Nat) (p : Regex.Place) (pieces : List Piece) : String :=
  let part (i j : Nat) : String := String.ofList (text.extract i j).toList
  (pieces.foldl (fun (c : Cased) piece =>
    match piece with
    | .text s => c.add s
    | .casing k => c.set k
    | .group 0 => c.add (part start p.position)
    | .group n => match p.group? n with
      | some (i, j) => c.add (part i j)
      | none => c) {}).text

def replaceFrom (r : Regex) (s : Regex.Subject) (sub : Substitution) :
    Nat → Nat → Nat → Option Nat → String → String × Bool
  | 0, _, _, _, done => (done, false)
  | fuel + 1, count, i, last, done =>
    let part (i j : Nat) : String := String.ofList (s.text.extract i j).toList
    let rest : String × Bool := (done ++ part i s.text.size, false)
    if i > s.text.size then (done, false)
    else
      match r.search s i with
      | none => rest
      | some (start, p) =>
        let before := done ++ part i start
        let stop := p.position
        if start = stop && last = some start then
          -- An empty match right behind another one does not count.
          replaceFrom r s sub fuel count (start + 1) none (before ++ part start (start + 1))
        else
          let counts := count ≥ sub.first
          let put := if counts then before ++ replaced s.text start p sub.pieces
            else before ++ part start stop
          if counts && !sub.all then (put ++ part stop s.text.size, true)
          else
            let (text, more) :=
              if start = stop then
                replaceFrom r s sub fuel (count + 1) (stop + 1) none (put ++ part stop (stop + 1))
              else replaceFrom r s sub fuel (count + 1) stop (some stop) put
            (text, counts || more)

def substitute (s : Settings) (sub : Substitution) : Editor Unit := do
  let p ← patternOf sub.pattern
  let t ← get
  let subject := subject p t.pattern
  let (text, changed) := replaceFrom p.regex subject sub (2 * subject.text.size + 4) 1 0 none ""
  if changed then
    set { t with pattern := text, changed := true }
    if sub.prints then emitLine s text t.ended
    if let some path := sub.target then emitTo s path text t.ended

/-! ### Commands -/

def displayed (width : Nat) (text : String) : String :=
  let shown (c : Char) : String :=
    if c = '\\' then "\\\\"
    else if isShown c then String.singleton c
    else escaped c
  let (done, _) := text.foldl (fun ((done, column) : String × Nat) c =>
    let s := shown c
    if width > 1 && column + s.length > width - 1 then (done ++ "\\\n" ++ s, s.length)
    else (done ++ s, column + s.length)) ("", 0)
  done ++ "$\n"

inductive Flow
  | on
  | to (command : Nat)
  | endCycle (prints : Bool)
  | again
  | quit (status : Nat) (prints : Bool)

def firstLine (text : String) : String :=
  String.ofList (text.toList.takeWhile (· ≠ '\n'))

def target (s : Settings) (label : String) : Flow :=
  if label.isEmpty then .endCycle true
  else
    match s.script.labels.lookup label with
    | some i => .to i
    | none => .endCycle true

def enqueue (q : Queued) : Editor Unit := modify fun t => { t with queue := t.queue ++ [q] }

def readerLine? (s : Settings) (path : String) : Editor (Option Line) := do
  let lines ← match (← get).readers.lookup path with
    | some lines => pure lines
    | none => do
      match ← work (readInput (if path = "/dev/stdin" then "-" else path) false) with
      | .ok text => pure (linesOf s.lineEnd text)
      | .error _ => pure []
  modify fun t => { t with
    readers := (path, lines.drop 1) :: t.readers.filter (·.1 ≠ path) }
  return lines.head?

def perform (s : Settings) (i : Nat) (c : Command) : Editor Flow := do
  let t ← get
  let newline := s.ending
  match c.action with
  | .block _ | .close => return .on
  | .insert text =>
    emit s text
    return .on
  | .append text =>
    enqueue (.text text)
    return .on
  | .change text =>
    if c.negated || c.stop.isNone || !(← isActive i) then emit s text
    return .endCycle false
  | .jump label => return target s label
  | .jumpIfChanged label =>
    if t.changed then
      set { t with changed := false }
      return target s label
    else return .on
  | .jumpIfSame label =>
    if t.changed then
      set { t with changed := false }
      return .on
    else return target s label
  | .substitute sub =>
    substitute s sub
    return .on
  | .map pairs =>
    set { t with pattern := t.pattern.map fun c => (pairs.lookup c).getD c }
    return .on
  | .quit status => return .quit status true
  | .quitSilently status =>
    set { t with queue := [] }
    return .quit status false
  | .readFile path =>
    enqueue (.file path)
    return .on
  | .readLine path =>
    if let some l ← readerLine? s path then enqueue (.line l)
    return .on
  | .write path =>
    emitTo s path t.pattern t.ended
    return .on
  | .writeFirst path =>
    emitTo s path (firstLine t.pattern) true
    return .on
  | .display width =>
    emit s (displayed (width.getD s.width) t.pattern)
    return .on
  | .number =>
    emit s (Decimal.ofNat t.line ++ "\n")
    return .on
  | .delete => return .endCycle false
  | .deleteFirst =>
    if t.pattern.contains s.lineEnd then
      set { t with pattern :=
        String.ofList ((t.pattern.toList.dropWhile (· ≠ s.lineEnd)).drop 1) }
      return .again
    else return .endCycle false
  | .fileName =>
    emit s (t.name ++ "\n")
    return .on
  | .get =>
    set { t with pattern := t.held }
    return .on
  | .getMore =>
    set { t with pattern := t.pattern ++ newline ++ t.held }
    return .on
  | .hold =>
    set { t with held := t.pattern }
    return .on
  | .holdMore =>
    set { t with held := t.held ++ newline ++ t.pattern }
    return .on
  | .next =>
    if ← isLast s then return .quit t.status true
    else
      unless s.quiet do emitLine s t.pattern t.ended
      emptyQueue s
      match ← nextLine? s with
      | some l =>
        modify fun t => { t with pattern := l.text }
        return .on
      | none => return .quit t.status false
  | .nextMore =>
    if ← isLast s then return .quit t.status true
    else
      emptyQueue s
      match ← nextLine? s with
      | some l =>
        modify fun u => { u with pattern := t.pattern ++ newline ++ l.text }
        return .on
      | none => return .quit t.status false
  | .print =>
    emitLine s t.pattern t.ended
    return .on
  | .printFirst =>
    emitLine s (firstLine t.pattern) true
    return .on
  | .exchange =>
    set { t with pattern := t.held, held := t.pattern }
    return .on
  | .clear =>
    set { t with pattern := "" }
    return .on

def runFrom (s : Settings) : Nat → Nat → Editor Flow
  | 0, _ => work (Work.stop .endless)
  | fuel + 1, i => do
    match s.script.commands[i]? with
    | none => return .endCycle true
    | some c =>
      let chosen ← selects s i c
      if chosen = c.negated then
        match c.action with
        | .block past => runFrom s fuel past
        | _ => runFrom s fuel (i + 1)
      else
        match ← perform s i c with
        | .on => runFrom s fuel (i + 1)
        | .to j => runFrom s fuel j
        | flow => return flow

def cycleLength : Nat := 1000000

def cycles (s : Settings) : Nat → Bool → Editor Nat
  | 0, _ => work (Work.stop .endless)
  | fuel + 1, reading => do
    let going ←
      if reading then do
        match ← nextLine? s with
        | some l =>
          modify fun t => { t with pattern := l.text }
          pure true
        | none => pure false
      else pure true
    if !going then return (← get).status
    else
      let finish (prints : Bool) : Editor Unit := do
        let t ← get
        if prints && !s.quiet then emitLine s t.pattern t.ended
        emptyQueue s
      match ← runFrom s cycleLength 0 with
      | .again =>
        emptyQueue s
        cycles s fuel false
      | .endCycle prints =>
        finish prints
        modify fun t => { t with changed := false }
        cycles s fuel true
      | .quit status prints =>
        finish prints
        return status
      | _ => return 0

/-! ### The program -/

def Script.targets (s : Script) : List String :=
  (s.commands.toList.filterMap fun c =>
    match c.action with
    | .write path | .writeFirst path => some path
    | .substitute sub => sub.target
    | _ => none).eraseDups.filter fun p => p ≠ "/dev/stdout" && p ≠ "/dev/stderr"

def known : Options.Known :=
  { letters := "bsnrzuEe:f:l:i::V:\x7f",
    names := [("expression", 'e'), ("file", 'f'), ("in-place", 'i'), ("line-length", 'l'),
      ("null-data", 'z'), ("zero-terminated", 'z'), ("quiet", 'n'), ("silent", 'n'),
      ("posix", '\x7f'), ("regexp-extended", 'r'), ("separate", 's'), ("unbuffered", 'u'),
      ("binary", 'b'), ("sandbox", '\x7f'), ("follow-symlinks", '\x7f')] }

def usage : Work Nat := do
  Work.complain
    "Usage: sed [OPTION]... \x7bscript-only-if-no-other-script\x7d [input-file]...\n"
  return 1

def partsOf (call : Call) : List (Char × String) → Nat → Work (Except Nat (List (Origin × String)))
  | [], _ => return .ok []
  | (c, a) :: rest, n => do
    let go (p : Origin × String) (n : Nat) : Work (Except Nat (List (Origin × String))) := do
      return (← partsOf call rest n).map (p :: ·)
    if c = 'e' then go (.argument n, a) (n + 1)
    else if c = 'f' then
      match ← readInput a false with
      | .ok text => go (.file a, text) n
      | .error f =>
        complain call ("couldn't open file " ++ a ++ ": " ++ f.text)
        return .error 4
    else partsOf call rest n

def run (call : Call) (o : Options) : Work Nat := do
  let given ← partsOf call o.found 1
  match given, o.operands with
  | .error status, _ => return status
  | .ok [], [] => usage
  | .ok parts, operands =>
    let (parts, paths) := match parts, operands with
      | [], script :: rest => ([(Origin.argument 1, script)], rest)
      | parts, rest => (parts, rest)
    match read (o.has 'E' || o.has 'r') parts with
    | .error text =>
      complain call text
      return 1
    | .ok script =>
      match script.missingLabel? with
      | some label =>
        complain call ("can't find label for jump to \x60" ++ label ++ "'")
        return 4
      | none =>
        if o.has 'i' && paths.isEmpty then
          complain call "no input files"
          return 4
        let mut written := []
        for path in script.targets do
          match ← Work.openPath path .writing with
          | .ok channel => written := written ++ [(path, ({} : Output), channel)]
          | .error f =>
            complain call ("couldn't open file " ++ path ++ ": " ++ f.text)
            return 4
        let s : Settings :=
          { script, quiet := o.has 'n' || script.quiet, separate := o.has 's' || o.has 'i',
            inPlace := o.last? 'i', lineEnd := if o.has 'z' then '\x00' else '\n',
            width := ((o.last? 'l').bind (·.toNat?)).getD 70 }
        let start : State := { paths := if paths.isEmpty then ["-"] else paths, written }
        let x : Editor Nat := do
          let status ← cycles s 100000000 true
          closeFile s
          return status
        let (r, t) ← (x.run).run start
        let finishing (status : Nat) : Work Nat := finishWith call 4 t.output.text status
        match r with
        | .ok status => finishing (if status = 0 then t.status else status)
        | .error (.quit status) => finishing status
        | .error (.failed status text) =>
          let _ ← complainAfter call t.output.text text
          return status

end Edit

def edit : Kernel.Program := fun call => do
  match Options.readFrom Edit.known (call.arguments.length + 1) (call.arguments.drop 1) {} with
  | .ok o => Edit.run call o
  | .error text =>
    complain call text
    Edit.usage

end KnightLang.Host.Utility
