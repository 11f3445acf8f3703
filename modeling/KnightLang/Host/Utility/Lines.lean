import KnightLang.Host.Utility.Basic
import KnightLang.Text.Decimal

namespace KnightLang.Host.Utility

open Kernel (Call Work)
open Files (Fault)

/-! ### Whole files -/

structure Display where
  numberAll : Bool := false
  numberFilled : Bool := false
  squeeze : Bool := false
  ends : Bool := false
  tabs : Bool := false
  visible : Bool := false

def visibleByte (d : Display) (c : Char) : String :=
  let n := c.toNat
  let low (n : Nat) : String :=
    if n < 32 then "^" ++ String.singleton (Char.ofNat (n + 64))
    else if n = 127 then "^?"
    else String.singleton (Char.ofNat n)
  if c = '\t' then (if d.tabs then "^I" else "\t")
  else if c = '\n' then "\n"
  else if !d.visible then String.singleton c
  else if n < 128 then low n
  else "M-" ++ low (n - 128)

def displayLines (d : Display) : Nat → Bool → List String → String → String × Nat × Bool
  | n, blank, [], done => (done, n, blank)
  | n, blank, l :: rest, done =>
    let empty := l = "\n"
    if d.squeeze && empty && blank then displayLines d n blank rest done
    else
      let counts := if d.numberFilled then !empty else d.numberAll
      let number := if counts then alignRight 6 (Decimal.ofNat (n + 1)) ++ "\t" else ""
      let shown := l.foldl (fun s c =>
        if c = '\n' && d.ends then s ++ "$\n" else s ++ visibleByte d c) ""
      displayLines d (if counts then n + 1 else n) empty rest (done ++ number ++ shown)

def readsOutput (path : String) : Work Bool := do
  match path, ← Work.channel? 1, (← Work.files).find (← read).directory path with
  | "-", _, _ => return false
  | _, some (_, { target := .node id, .. }), .ok other =>
    match (← Work.files).node? id with
    | some (.file content _) => return id = other && content.size > 0
    | _ => return false
  | _, _, _ => return false

def concatenate : Kernel.Program := fun call =>
  let known : Options.Known :=
    { letters := "AbeEnstTuv",
      names := [("show-all", 'A'), ("number-nonblank", 'b'), ("show-ends", 'E'), ("number", 'n'),
        ("squeeze-blank", 's'), ("show-tabs", 'T'), ("show-nonprinting", 'v')] }
  withOptions call 1 known fun o => do
    let d : Display :=
      { numberAll := o.has 'n', numberFilled := o.has 'b', squeeze := o.has 's',
        ends := o.has 'E' || o.has 'e' || o.has 'A', tabs := o.has 'T' || o.has 't' || o.has 'A',
        visible := o.has 'v' || o.has 'e' || o.has 't' || o.has 'A' }
    let plain := o.found.all (·.1 = 'u')
    let mut status := 0
    let mut number := 0
    let mut blank := false
    for path in (if o.operands.isEmpty then ["-"] else o.operands) do
      if ← readsOutput path then
        complain call (plainName path ++ ": input file is output file")
        status := 1
      else
        match ← readInput path true with
        | .error f =>
          complain call (plainFault path f)
          status := 1
        | .ok text =>
          let mut shown := text
          unless plain do
            let (s, n, b) := displayLines d number blank (linesWithEnds text) ""
            shown := s
            number := n
            blank := b
          unless shown.isEmpty do
            if let some f ← Work.write 1 shown then
              complain call ("write error: " ++ f.text)
              return 1
    if (← Work.channel? 0).isNone && (o.operands.isEmpty || o.operands.contains "-") then
      complain call ("closing standard input: " ++ Fault.text .badDescriptor)
      status := 1
    return status

def reverseLines : Kernel.Program := fun call =>
  withOptions call 1 { letters := "" } fun o => do
    let fault (path : String) (f : Fault) : String :=
      if f = .directory then plainName path ++ ": read error: " ++ f.text
      else "failed to open " ++ quotedName path ++ " for reading: " ++ f.text
    let (texts, good) ← readInputs call false fault o.operands
    finish call (join (texts.map fun (_, s) => join (linesWithEnds s).reverse)) (if good then 0 else 1)

def reverseCharacters : Kernel.Program := fun call =>
  withOptions call 1 { letters := "" } fun o => do
    let fault (path : String) (f : Fault) : String := "cannot open " ++ path ++ ": " ++ f.text
    let (texts, good) ← readInputs call true fault o.operands
    let turned (l : String) : String :=
      let cs := l.toList
      if l.endsWith "\n" then String.ofList cs.dropLast.reverse ++ "\n" else String.ofList cs.reverse
    finish call (join (texts.map fun (_, s) => join ((linesWithEnds s).map turned)))
      (if good then 0 else 1)

/-! ### Beginnings and ends -/

structure Amount where
  sign : Char := ' '
  count : Nat

def Amount.read? (s : String) : Option Amount :=
  let (sign, cs) := match s.toList with
    | '-' :: rest => ('-', rest)
    | '+' :: rest => ('+', rest)
    | rest => (' ', rest)
  let ds := cs.takeWhile Char.isDigit
  let unit : Option Nat := match String.ofList (cs.drop ds.length) with
    | "" => some 1
    | "b" => some 512
    | "k" | "K" | "KiB" => some 1024
    | "kB" | "KB" => some 1000
    | "m" | "M" | "MiB" => some 1048576
    | "MB" => some 1000000
    | _ => none
  if ds.isEmpty then none else unit.map fun u => { sign, count := u * Decimal.value ds }

def oldCount (arguments : List String) : List String :=
  match arguments with
  | a :: rest =>
    match a.toList with
    | '-' :: c :: cs =>
      if c.isDigit then
        let ds := (c :: cs).takeWhile Char.isDigit
        let letters := (c :: cs).drop ds.length
        let what := if letters.contains 'c' then "-c" else "-n"
        let others := letters.filter fun c => c = 'q' || c = 'v' || c = 'z'
        (what ++ String.ofList ds) :: (others.map fun c => "-" ++ String.singleton c) ++ rest
      else arguments
    | _ => arguments
  | [] => []

def piecesWithEnds (c : Char) (s : String) : List String :=
  if c = '\n' then linesWithEnds s
  else
    let (pieces, last) := s.foldl (fun ((pieces, current) : Array String × String) d =>
      if d = c then (pieces.push (current.push d), "") else (pieces, current.push d)) (#[], "")
    (if last.isEmpty then pieces else pieces.push last).toList

def firstLines (c : Char) (a : Amount) (s : String) : String × Bool :=
  let pieces := piecesWithEnds c s
  if a.sign = '-' then (join (pieces.take (pieces.length - a.count)), true)
  else
    let shown := pieces.take a.count
    (join shown, decide (shown.length < a.count) ||
      (a.count ≠ 0 && !(shown.getLast?.any (·.endsWith (String.singleton c)))))

def firstBytes (a : Amount) (s : String) : String × Bool :=
  if a.sign = '-' then ((s.take (s.length - a.count)).copy, true)
  else ((s.take a.count).copy, decide (s.length < a.count))

def header (first : Bool) (path : String) : String :=
  (if first then "" else "\n") ++ "==> " ++ (if path = "-" then "standard input" else path) ++ " <==\n"

def readSome (path : String) : Work (Except Fault (String × Option Kernel.Halt)) := do
  let read (n : Nat) : Work (Except Fault (String × Option Kernel.Halt)) := do
    return (← Work.readAvailable n none).map fun (bytes, cause) => (Octets.ofBytes bytes, cause)
  if path = "-" then read 0
  else
    match ← Work.openPath path .reading with
    | .error f => return .error f
    | .ok i => Work.withChannel 0 i (read 0)

def head : Kernel.Program := fun call =>
  let known : Options.Known :=
    { letters := "c:n:qvz",
      names := [("bytes", 'c'), ("lines", 'n'), ("quiet", 'q'), ("silent", 'q'), ("verbose", 'v'),
        ("zero-terminated", 'z')] }
  let call' : Call :=
    { call with arguments := nameOf call :: oldCount (call.arguments.drop 1) }
  withOptions call' 1 known fun o => do
    let unit := o.lastOf? ['c', 'n']
    let given := unit.bind o.last?
    match (given.map Amount.read?).getD (some { count := 10 }) with
    | none =>
      complain call ("invalid number of " ++ (if unit = some 'c' then "bytes" else "lines") ++ ": " ++
        quoted (given.getD ""))
      return 1
    | some amount =>
      let take := if unit = some 'c' then firstBytes amount
        else firstLines (if o.has 'z' then '\x00' else '\n') amount
      let paths := if o.operands.isEmpty then ["-"] else o.operands
      let titled := match o.lastOf? ['q', 'v'] with
        | some 'q' => false
        | some _ => true
        | none => paths.length > 1
      let mut text := ""
      let mut status := 0
      let mut first := true
      for path in paths do
        match ← readSome path with
        | .error f =>
          text ← complainAfter call text (if f = .directory then "error reading " ++ quotedName path ++ ": " ++ f.text
            else "cannot open " ++ quotedName path ++ " for reading: " ++ f.text)
          status := 1
          if f = .directory && titled then
            text := text ++ header first path
            first := false
        | .ok (s, cause) =>
          let (shown, more) := take s
          if let some cause := cause then
            if more then Work.passCut cause
          if path = "-" then
            match ← Work.channel? 0 with
            | some (_, { target := .node _, .. }) => Work.giveBack 0 (s.length - shown.length)
            | _ => pure ()
          text := text ++ (if titled then header first path else "") ++ shown
          first := false
      finish call text status

def lastLines (c : Char) (a : Amount) (s : String) : String :=
  let pieces := piecesWithEnds c s
  if a.sign = '+' then join (pieces.drop (a.count - 1))
  else join (pieces.drop (pieces.length - a.count))

def lastBytes (a : Amount) (s : String) : String :=
  if a.sign = '+' then (s.drop (a.count - 1)).copy else (s.drop (s.length - a.count)).copy

def tail : Kernel.Program := fun call =>
  let known : Options.Known :=
    { letters := "c:n:qvzfFs:",
      names := [("bytes", 'c'), ("lines", 'n'), ("quiet", 'q'), ("silent", 'q'), ("verbose", 'v'),
        ("zero-terminated", 'z'), ("follow", 'f')] }
  let call' : Call :=
    { call with arguments := nameOf call :: oldCount (call.arguments.drop 1) }
  withOptions call' 1 known fun o => do
    let unit := o.lastOf? ['c', 'n']
    let given := unit.bind o.last?
    match (given.map Amount.read?).getD (some { count := 10 }) with
    | none =>
      complain call ("invalid number of " ++ (if unit = some 'c' then "bytes" else "lines") ++ ": " ++
        quoted (given.getD ""))
      return 1
    | some amount =>
      let take := if unit = some 'c' then lastBytes amount
        else lastLines (if o.has 'z' then '\x00' else '\n') amount
      let paths := if o.operands.isEmpty then ["-"] else o.operands
      let titled := match o.lastOf? ['q', 'v'] with
        | some 'q' => false
        | some _ => true
        | none => paths.length > 1
      let mut text := ""
      let mut status := 0
      let mut first := true
      for path in paths do
        match ← readInput path (amount.sign = '+') with
        | .error f =>
          text ← complainAfter call text (if f = .directory then "error reading " ++ quotedName path ++ ": " ++ f.text
            else "cannot open " ++ quotedName path ++ " for reading: " ++ f.text)
          status := 1
          if f = .directory && titled then
            text := text ++ header first path
            first := false
        | .ok s =>
          text := text ++ (if titled then header first path else "") ++ take s
          first := false
      let code ← finish call text status
      if o.has 'f' || o.has 'F' then Work.stop .endless else return code

/-! ### Counting -/

structure Counts where
  lines : Nat := 0
  words : Nat := 0
  bytes : Nat := 0
  widest : Nat := 0

def Counts.add (a b : Counts) : Counts :=
  ⟨a.lines + b.lines, a.words + b.words, a.bytes + b.bytes, max a.widest b.widest⟩

def isSpace (c : Char) : Bool := c = ' ' || (9 ≤ c.toNat && c.toNat ≤ 13)

def screenWidth (l : String) : Nat :=
  let (widest, _) := l.foldl (fun (widest, at') c =>
    let place := if c = '\t' then at' + (8 - at' % 8)
      else if c = '\r' || c = '\x0c' then 0
      else if ' ' ≤ c && c.toNat < 127 then at' + 1 else at'
    (max widest place, place)) (0, 0)
  widest

def Counts.of (s : String) : Counts :=
  let (words, _) := s.foldl (fun ((n, inside) : Nat × Bool) c =>
    if isSpace c then (n, false) else if inside then (n, true) else (n + 1, true)) (0, false)
  { lines := s.foldl (fun n c => if c = '\n' then n + 1 else n) 0, words, bytes := s.length,
    widest := (linesOf s).foldl (fun n l => max n (screenWidth l)) 0 }

def sizeOf? (path : Option String) : Work (Option (Option Nat)) := do
  let files ← Work.files
  let ofNode (id : Nat) : Option Nat := match files.node? id with
    | some (.file content _) => some content.size
    | _ => none
  match path with
  | none | some "-" =>
    match ← Work.channel? 0 with
    | some (_, { target := .node id, .. }) => return some (ofNode id)
    | some _ => return some none
    | none => return none
  | some p =>
    match files.find (← read).directory p with
    | .ok id => return some (ofNode id)
    | .error _ => return none

def count : Kernel.Program := fun call =>
  let known : Options.Known :=
    { letters := "clmLw",
      names := [("bytes", 'c'), ("chars", 'm'), ("lines", 'l'), ("words", 'w'),
        ("max-line-length", 'L')] }
  withOptions call 1 known fun o => do
    let asked := ['l', 'w', 'm', 'c', 'L'].filter o.has
    let asked := if asked.isEmpty then ['l', 'w', 'c'] else asked
    let paths := if o.operands.isEmpty then [none] else o.operands.map some
    let sizes ← paths.mapM sizeOf?
    let known := if asked.length = 1 && paths.length = 1 || sizes.head? = some none then []
      else sizes.filterMap id
    let size := known.foldl (fun n s => n + s.getD 0) 0
    let width := max (Decimal.ofNat size).length (if known.any (·.isNone) then 7 else 1)
    let row (c : Counts) (name : Option String) : String :=
      let numbers := asked.map fun k => alignRight width (Decimal.ofNat (match k with
        | 'l' => c.lines
        | 'w' => c.words
        | 'L' => c.widest
        | _ => c.bytes))
      " ".intercalate numbers ++ (match name with
        | some n => " " ++ n
        | none => "") ++ "\n"
    let mut text := ""
    let mut status := 0
    let mut total : Counts := {}
    for path in paths do
      match ← readInput (path.getD "-") false with
      | .error f =>
        text ← complainAfter call text (plainFault (path.getD "-") f)
        status := 1
        if f = .directory then text := text ++ row {} path
      | .ok s =>
        let c := Counts.of s
        total := total.add c
        text := text ++ row c path
    if paths.length > 1 then text := text ++ row total (some "total")
    finish call text status

end KnightLang.Host.Utility
