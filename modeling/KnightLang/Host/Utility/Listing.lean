import KnightLang.Host.Shell.Pattern
import KnightLang.Host.Text.Calendar
import KnightLang.Host.Utility.Manage
import KnightLang.Host.Utility.Order

namespace KnightLang.Host.Utility

open Kernel (Call Work)
open Files (Fault Tree)

/-! ### Facts about nodes -/

def kindLetter : Files.Node → Char
  | .file _ _ | .program _ | .unreadable _ => '-'
  | .directory _ _ _ => 'd'
  | .link _ => 'l'
  | .device (.descriptor _) => 'p'
  | .device _ => 'c'

def sizeOf : Files.Node → Nat
  | .file content _ => content.size
  | .directory _ _ _ => 4096
  | .link target => target.length
  | .program _ => Files.programHeader.size
  | _ => 0

def nameCount (tree : Tree) (id : Nat) : Nat :=
  match tree.node? id with
  | some (.directory entries _ _) => 2 + (entries.filter fun (_, i) => tree.isDirectory i).length
  | _ => tree.nodes.foldl (fun n node => match node with
    | .directory entries _ _ => n + (entries.filter (·.2 = id)).length
    | _ => n) 0

def spaceOf (n : Files.Node) : Nat :=
  match n with
  | .file content _ => (content.size + 4095) / 4096 * 4
  | .directory _ _ _ => 4
  | _ => 0

/-! ### Lists -/

structure Listing where
  all : Bool := false
  almostAll : Bool := false
  long : Bool := false
  order : Char := 'n'
  reversed : Bool := false
  recursive : Bool := false
  directoriesFirst : Bool := false
  marks : Char := ' '
  layout : Char := '1'
  width : Nat := 80
  follow : Bool := false
  numbers : Bool := false
  blocks : Bool := false
  numericOwner : Bool := false
  hidesOwner : Bool := false
  hidesGroup : Bool := false
  readable : Bool := false
  quoting : Char := 'N'
  ignored : List String := []
  hidesBackups : Bool := false
  ending : String := "\n"

structure Entry where
  name : String
  id : Nat
  node : Files.Node
  changed : Nat

def shownName (quoting : Char) (s : String) : String :=
  let escaping (c : Char) (special : Char → Bool) : String :=
    if special c then "\\" ++ String.singleton c
    else if isShown c then String.singleton c
    else escaped c
  let mapped (f : Char → String) : String := s.foldl (fun t c => t ++ f c) ""
  match quoting with
  | 'q' => mapped fun c => if isShown c then String.singleton c else "?"
  | 'b' => mapped fun c => escaping c fun c => c = '\\' || c = ' '
  | 'Q' => "\"" ++ mapped (fun c => escaping c fun c => c = '\\' || c = '"') ++ "\""
  | 's' =>
    let plain (c : Char) : Bool := c.isAlphanum || "%+,-./:@_".contains c
    if !s.isEmpty && s.all plain then s else quotedName s
  | 'S' => quotedName s
  | _ => s

def mark (marks : Char) (n : Files.Node) : String :=
  match n with
  | .directory _ _ _ => if marks = ' ' then "" else "/"
  | .link _ => if marks = 'F' || marks = 't' then "@" else ""
  | .program _ => if marks = 'F' then "*" else ""
  | .file _ mode => if marks = 'F' && mode &&& 0x49 ≠ 0 then "*" else ""
  | .device (.descriptor _) => if marks = 'F' || marks = 't' then "|" else ""
  | _ => ""

def extension (s : String) : String :=
  match s.splitOn "." with
  | [_] => ""
  | parts => "." ++ parts.getLast?.getD ""

def Listing.sorted (l : Listing) (entries : List Entry) : List Entry :=
  let byName (a b : Entry) : Ordering := compare a.name b.name
  let order (a b : Entry) : Ordering :=
    match l.order with
    | 't' => (compare b.changed a.changed).then (byName a b)
    | 'S' => (compare (sizeOf b.node) (sizeOf a.node)).then (byName a b)
    | 'X' => (compare (extension a.name) (extension b.name)).then (byName a b)
    | 'v' => (compareVersions a.name b.name).then (byName a b)
    | _ => byName a b
  if l.order = 'U' then entries
  else
    let sorted := entries.mergeSort fun a b => (if l.reversed then order b a else order a b).isLE
    if l.directoriesFirst then
      sorted.filter (·.node.isDirectory) ++ sorted.filter (!·.node.isDirectory)
    else sorted

def Listing.shows (l : Listing) (name : String) : Bool :=
  let hidden := name.startsWith "."
  let fits (p : String) : Bool := Shell.Pattern.isMatch (Shell.Pattern.ofString p) name.toList
  (l.all || l.almostAll || !hidden) && !(l.hidesBackups && name.endsWith "~") && !l.ignored.any fits

/-! ### Layouts -/

def readableSize (n : Nat) : String :=
  let rec go : List String → Nat → Nat → String
    | [], _, _ => Decimal.ofNat n
    | u :: units, scale, fuel =>
      match fuel with
      | 0 => Decimal.ofNat n
      | fuel + 1 =>
        if n < scale * 1024 || units.isEmpty then
          let tenths := (n * 10 + scale - 1) / scale
          if tenths < 100 then
            Decimal.ofNat (tenths / 10) ++ "." ++ Decimal.ofNat (tenths % 10) ++ u
          else Decimal.ofNat ((n + scale - 1) / scale) ++ u
        else go units (scale * 1024) fuel
  if n < 1024 then Decimal.ofNat n else go ["K", "M", "G", "T"] 1024 5

def columnWidths (rows : Nat) : Nat → List Nat → List Nat
  | 0, _ => []
  | fuel + 1, widths =>
    if widths.isEmpty then []
    else ((widths.take rows).foldl max 0 + 2) :: columnWidths rows fuel (widths.drop rows)

def acrossWidths (columns : Nat) (widths : List Nat) : List Nat :=
  (List.range columns).map fun c =>
    ((widths.zipIdx).filter fun (_, i) => i % columns = c).foldl (fun n (w, _) => max n w) 0 + 2

def indent : Nat → Nat → Nat → String
  | 0, _, _ => ""
  | fuel + 1, start, stop =>
    if start < stop then
      if stop / 8 > (start + 1) / 8 then "\t" ++ indent fuel ((start / 8 + 1) * 8) stop
      else " " ++ indent fuel (start + 1) stop
    else ""

def row (widths : List Nat) (names : List String) : String :=
  let rec go : Nat → Nat → List (Nat × String) → String
    | _, _, [] => "\n"
    | position, column, (w, name) :: rest =>
      let next := column + w
      name ++ (if rest.isEmpty then "" else indent 200 (position + name.length) next) ++
        go next next rest
  go 0 0 (widths.zip names)

def mostColumns (width : Nat) (across : Bool) (widths : List Nat) : Nat :=
  let count := widths.length
  let fits (c : Nat) : Bool :=
    let rows := (count + c - 1) / c
    let columns := if across then acrossWidths c widths else columnWidths rows (count + 1) widths
    let total := columns.foldl (· + ·) 0
    let last := columns.getLast?.getD 2
    total - last + max (last - 2) 3 < width && (across || (count + rows - 1) / rows = c)
  let most := min count (width / 3)
  (((List.range most).map (most - ·)).find? fits).getD 1

def inColumns (width : Nat) (across : Bool) (names : List String) : String :=
  if names.isEmpty then ""
  else
    let widths := names.map (·.length)
    let columns := mostColumns width across widths
    let rows := (names.length + columns - 1) / columns
    let table := if across then acrossWidths columns widths
      else columnWidths rows (names.length + 1) widths
    join ((List.range rows).map fun r =>
      row table ((List.range columns).filterMap fun c =>
        if across then names[r * columns + c]? else names[c * rows + r]?))

def inLine (width : Nat) (names : List String) : String :=
  match names with
  | [] => ""
  | first :: rest =>
    let step : String × Nat → String → String × Nat := fun (t, position) n =>
      if position + n.length + 2 < width then (t ++ ", " ++ n, position + 2 + n.length)
      else (t ++ ",\n" ++ n, n.length)
    (rest.foldl step (first, first.length)).1 ++ "\n"

/-! ### Output -/

def shownTime (now time : Nat) : String :=
  let m : Calendar.Moment := { seconds := time / 1000000 }
  let recent := time ≤ now && now < time + 15778476 * 1000000
  m.shown (if recent then "%b %e %H:%M" else "%b %e  %Y")

def Listing.lines (l : Listing) (tree : Tree) (entries : List Entry) : String :=
  let name (e : Entry) : String :=
    let target := match e.node with
      | .link target => if l.long then " -> " ++ shownName l.quoting target else ""
      | _ => ""
    shownName l.quoting e.name ++
      (if target.isEmpty then mark l.marks e.node else target)
  let widest (f : Entry → String) : Nat := entries.foldl (fun n e => max n (f e).length) 0
  let number (e : Entry) : String := Decimal.ofNat (e.id + 1000)
  let blocks (e : Entry) : String := Decimal.ofNat (spaceOf e.node)
  let start (e : Entry) : String :=
    (if l.numbers then alignRight (widest number) (number e) ++ " " else "") ++
      (if l.blocks then alignRight (widest blocks) (blocks e) ++ " " else "")
  if l.long then
    let links (e : Entry) : String := Decimal.ofNat (nameCount tree e.id)
    let size (e : Entry) : String :=
      match e.node with
      | .device .null => "1, 3"
      | .device _ => "1, 5"
      | n => if l.readable then readableSize (sizeOf n) else Decimal.ofNat (sizeOf n)
    let owner := if l.numericOwner then "0" else "root"
    join (entries.map fun e =>
      start e ++ String.singleton (kindLetter e.node) ++ Rights.shown e.node.mode ++ " " ++
        alignRight (widest links) (links e) ++ " " ++ (if l.hidesOwner then "" else owner ++ " ") ++
        (if l.hidesGroup then "" else owner ++ " ") ++ alignRight (widest size) (size e) ++ " " ++
        shownTime tree.now e.changed ++ " " ++ name e ++ l.ending)
  else
    let names := entries.map fun e => start e ++ name e
    match l.layout with
    | 'C' => inColumns l.width false names
    | 'x' => inColumns l.width true names
    | 'm' => inLine l.width names
    | _ => join (names.map (· ++ l.ending))

def entryOf (tree : Tree) (follow : Bool) (directory : Nat) (name : String) (id : Nat) : Entry :=
  let target := match tree.node? id with
    | some (.link _) => if follow then (tree.walk true 10000 directory [name]).toOption.getD id else id
    | _ => id
  { name, id := target, node := (tree.node? target).getD (.link ""),
    changed := tree.changed[target]?.getD 0 }

def Listing.directory (l : Listing) (tree : Tree) : Nat → Option String → String → Nat → String
  | 0, _, _, _ => ""
  | fuel + 1, title, path, id =>
    let entries := (tree.entries id).filter fun (name, _) => l.shows name
    let parent := match tree.node? id with
      | some (.directory _ parent _) => parent
      | _ => id
    let dots := if l.all then [(".", id), ("..", parent)] else []
    let list := l.sorted ((dots ++ entries).map fun (name, i) => entryOf tree l.follow id name i)
    let total := list.foldl (fun n e => n + spaceOf e.node) 0
    let header := match title with
      | some t => t ++ ":\n"
      | none => ""
    let summary := if l.long || l.blocks then "total " ++ Decimal.ofNat total ++ "\n" else ""
    let below := if l.recursive then
        (list.filter fun e => e.node.isDirectory && e.name ≠ "." && e.name ≠ "..").map fun e =>
          "\n" ++ l.directory tree fuel (some (within path e.name)) (within path e.name) e.id
      else []
    header ++ summary ++ l.lines tree list ++ join below

def listFiles (layout quoting : Char) : Kernel.Program := fun call =>
  let known : Options.Known :=
    { letters := "1aAbBcCdfFghHiI:klLmnNopqQrRsStT:uUvw:xXZGz~::!:<:>:;%",
      names := [("all", 'a'), ("almost-all", 'A'), ("classify", 'F'), ("color", '~'),
        ("dereference", 'L'), ("directory", 'd'), ("escape", 'b'), ("file-type", ';'),
        ("group-directories-first", '%'), ("hide", 'I'), ("human-readable", 'h'), ("ignore", 'I'),
        ("ignore-backups", 'B'), ("inode", 'i'), ("literal", 'N'), ("no-group", 'G'),
        ("numeric-uid-gid", 'n'), ("quote-name", 'Q'), ("quoting-style", '!'), ("recursive", 'R'),
        ("reverse", 'r'), ("size", 's'), ("sort", '<'), ("time-style", '>'), ("width", 'w'),
        ("zero", 'z')] }
  withOptions call 2 known fun o => do
    let tree ← Work.files
    let here := (← read).directory
    let long := o.has 'l' || o.has 'n' || o.has 'g' || o.has 'o'
    let layout := (o.lastOf? ['1', 'C', 'x', 'm', 'l']).getD layout
    let order : Char :=
      match o.lastOf? ['t', 'S', 'X', 'v', 'U', 'f', '<'] with
      | some 'f' => 'U'
      | some '<' => match o.last? '<' with
        | some "size" => 'S'
        | some "time" => 't'
        | some "extension" => 'X'
        | some "version" => 'v'
        | some "none" => 'U'
        | _ => 'n'
      | some c => c
      | none => 'n'
    let quoting : Char := match o.lastOf? ['b', 'N', 'q', 'Q', '!'] with
      | some '!' => match o.last? '!' with
        | some "c" => 'Q'
        | some "escape" => 'b'
        | some "shell" | some "shell-escape" => 's'
        | some "shell-always" | some "shell-escape-always" => 'S'
        | _ => 'N'
      | some c => c
      | none => quoting
    let l : Listing :=
      { all := o.has 'a' || o.has 'f', almostAll := o.has 'A', long, order, reversed := o.has 'r',
        recursive := o.has 'R', directoriesFirst := o.has '%',
        marks := match o.lastOf? ['F', 'p', ';'] with
          | some 'F' => 'F'
          | some 'p' => 'p'
          | some _ => 't'
          | none => ' ',
        layout := if o.has 'z' then '1' else layout,
        width := ((o.last? 'w').bind (·.toNat?)).getD 80, follow := o.has 'L', numbers := o.has 'i',
        blocks := o.has 's', numericOwner := o.has 'n', hidesOwner := o.has 'g',
        hidesGroup := o.has 'o' || o.has 'G', readable := o.has 'h', quoting,
        ignored := (o.found.filter (·.1 = 'I')).map (·.2), hidesBackups := o.has 'B',
        ending := if o.has 'z' then "\x00" else "\n" }
    let paths := if o.operands.isEmpty then ["."] else o.operands
    let mut status := 0
    let mut files : List Entry := []
    let mut directories : List Entry := []
    for path in paths do
      let followed := l.follow || o.has 'H' || !(long || o.has 'd' || o.has 'F')
      let found := match tree.lookup followed here path with
        | .error .missing =>
          if l.follow then Except.error Fault.missing else tree.lookup false here path
        | r => r
      match found with
      | .error f =>
        complain call ("cannot access " ++ quotedName path ++ ": " ++ f.text)
        status := 2
      | .ok id =>
        let e : Entry :=
          { name := path, id, node := (tree.node? id).getD (.link ""),
            changed := tree.changed[id]?.getD 0 }
        if e.node.isDirectory && !o.has 'd' then directories := directories ++ [e]
        else files := files ++ [e]
    let mut text := l.lines tree (l.sorted files)
    let titled := paths.length > 1 || l.recursive
    let mut first := files.isEmpty
    for d in l.sorted directories do
      unless first do text := text ++ "\n"
      first := false
      let title := if titled then some (shownName (if l.quoting = 's' then 's' else 'N') d.name) else none
      text := text ++ l.directory tree 200 title d.name d.id
    finishWith call 2 text status

/-! ### Single files -/

def factOf (tree : Tree) (path : String) (id : Nat) (n : Files.Node) : Char → String
  | 'n' => path
  | 'N' => quotedName path ++ (match n with
    | .link target => " -> " ++ quotedName target
    | _ => "")
  | 's' => Decimal.ofNat (sizeOf n)
  | 'a' => Rights.octal 1 n.mode
  | 'A' => String.singleton (kindLetter n) ++ Rights.shown n.mode
  | 'F' => kindOf n
  | 'u' | 'g' => "0"
  | 'U' | 'G' => "root"
  | 'h' => Decimal.ofNat (nameCount tree id)
  | 'i' => Decimal.ofNat (id + 1000)
  | 'b' => Decimal.ofNat (2 * spaceOf n)
  | 'B' => "512"
  | 'o' => "4096"
  | 'f' =>
    let kind := match kindLetter n with
      | 'd' => 0x4000
      | 'l' => 0xa000
      | 'c' => 0x2000
      | 'p' => 0x1000
      | _ => 0x8000
    String.ofList (Nat.toDigits 16 (kind + n.mode))
  | 't' => match n with
    | .device (.descriptor _) => "0"
    | .device _ => "1"
    | _ => "0"
  | 'T' => match n with
    | .device .null => "3"
    | .device .zero => "5"
    | _ => "0"
  | 'd' => "1"
  | 'D' => "1"
  | 'm' => "/"
  | 'x' | 'y' | 'z' =>
    let time := tree.changed[id]?.getD 0
    let m : Calendar.Moment :=
      { seconds := time / 1000000, nanoseconds := time % 1000000 * 1000 }
    m.shown "%Y-%m-%d %H:%M:%S.%N %z"
  | 'w' => "-"
  | 'X' | 'Y' | 'Z' => Decimal.ofNat (tree.changed[id]?.getD 0 / 1000000)
  | 'W' => "0"
  | _ => "?"

def fillIn (fact : Char → String) (escapes : Bool) : Nat → List Char → String
  | 0, _ | _, [] => ""
  | fuel + 1, '%' :: rest =>
    let flags := rest.takeWhile fun c => "-+ #0'".contains c
    let digits := (rest.drop flags.length).takeWhile Char.isDigit
    let width := Decimal.value digits
    match rest.drop (flags.length + digits.length) with
    | [] => "%"
    | '%' :: rest => "%" ++ fillIn fact escapes fuel rest
    | c :: rest =>
      let s := fact c
      let numeric := s.all Char.isDigit
      let padded :=
        if flags.contains '-' then alignLeft width s
        else if flags.contains '0' && numeric then "".pushn '0' (width - s.length) ++ s
        else alignRight width s
      padded ++ fillIn fact escapes fuel rest
  | fuel + 1, '\\' :: c :: rest =>
    if !escapes then "\\" ++ fillIn fact escapes fuel (c :: rest)
    else
      let shown := match c with
        | 'n' => "\n"
        | 't' => "\t"
        | '\\' => "\\"
        | 'a' => "\x07"
        | 'r' => "\r"
        | c => String.singleton c
      shown ++ fillIn fact escapes fuel rest
  | fuel + 1, c :: rest => String.singleton c ++ fillIn fact escapes fuel rest

def describeFiles : Kernel.Program := fun call =>
  let known : Options.Known :=
    { letters := "Lftc:p:",
      names := [("dereference", 'L'), ("file-system", 'f'), ("terse", 't'), ("format", 'c'),
        ("printf", 'p')] }
  withOptions call 1 known fun o => do
    if o.operands.isEmpty then misused call 1 "missing operand"
    else
      let usual := "  File: %N\n  Size: %s\n"
      let (format, escapes, ending) :=
        match o.lastOf? ['c', 'p'] with
        | some 'c' => ((o.last? 'c').getD "", false, "\n")
        | some _ => ((o.last? 'p').getD "", true, "")
        | none => (usual, false, "")
      let mut text := ""
      let mut status := 0
      for path in o.operands do
        match ← nodeAt (o.has 'L') path with
        | .error f =>
          text ← complainAfter call text ("cannot statx " ++ quotedName path ++ ": " ++ f.text)
          status := 1
        | .ok (id, n) =>
          let tree ← Work.files
          let shown := fillIn (factOf tree path id n) escapes (format.length + 1) format.toList
          text := text ++ shown ++ ending
      finish call text status

end KnightLang.Host.Utility
