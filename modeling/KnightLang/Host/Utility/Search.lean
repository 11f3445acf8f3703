import KnightLang.Host.Regex.Reader
import KnightLang.Host.Shell.Pattern
import KnightLang.Host.Utility.Lines

namespace KnightLang.Host.Utility

open Kernel (Call Work)
open Files (Fault)

namespace Search

structure Matcher where
  patterns : List Regex
  ignoreCase : Bool := false
  wholeWords : Bool := false
  wholeLines : Bool := false

namespace Matcher

def allows (m : Matcher) (s : Regex.Subject) (i j : Nat) : Bool :=
  if m.wholeLines then i = 0 && j = s.text.size
  else if m.wholeWords then !(i > 0 && s.wordAt (i - 1)) && !s.wordAt j
  else true

def matchAt (m : Matcher) (s : Regex.Subject) (i : Nat) : Option Nat :=
  (m.patterns.filterMap fun r =>
    ((r.endsAt s i).find? fun p => m.allows s i p.position).map (·.position)).max?

def search (m : Matcher) (s : Regex.Subject) (i : Nat) : Option (Nat × Nat) :=
  Regex.firstOf (m.matchAt s) (if m.wholeLines then 1 - i else s.text.size + 1 - i) i

def subject (m : Matcher) (line : String) : Regex.Subject :=
  { text := line.toList.toArray, ignoreCase := m.ignoreCase }

def selects (m : Matcher) (line : String) : Bool := (m.search (m.subject line) 0).isSome

def all (m : Matcher) (s : Regex.Subject) : Nat → Nat → List (Nat × Nat)
  | 0, _ => []
  | fuel + 1, i =>
    match m.search s i with
    | none => []
    | some (first, last) =>
      if first = last then m.all s fuel (first + 1) else (first, last) :: m.all s fuel last

end Matcher

inductive Showing
  | lines
  | parts
  | count
  | names (found : Bool)
  | nothing
  deriving DecidableEq

structure Report where
  showing : Showing := .lines
  inverted : Bool := false
  most : Option Nat := none
  named : Bool := false
  numbered : Bool := false
  offsets : Bool := false
  tabbed : Bool := false
  nullNames : Bool := false
  before : Nat := 0
  after : Nat := 0
  grouped : Bool := false
  lineEnd : Char := '\n'

def Report.start (r : Report) (name : String) (separator : Char) (number offset : Nat) : String :=
  let part (shown : Bool) (s : String) : String := if shown then s.push separator else ""
  (if r.named && r.nullNames then name.push '\x00' else part r.named name) ++
    part r.numbered (Decimal.ofNat number) ++ part r.offsets (Decimal.ofNat offset) ++
    (if r.tabbed && (r.named || r.numbered || r.offsets) then "\t" else "")

structure Progress where
  text : String := ""
  count : Nat := 0
  pending : Nat := 0
  held : List (Nat × Nat × String) := []
  apart : Bool := false
  used : Nat := 0

def Report.line (r : Report) (m : Matcher) (name : String) (p : Progress) (number offset : Nat)
    (line : String) : Progress :=
  let full := r.most.any (· ≤ p.count)
  let selected := m.selects line ≠ r.inverted
  let showLine (separator : Char) (number offset : Nat) (line : String) : String :=
    r.start name separator number offset ++ line.push r.lineEnd
  if full then
    if p.pending = 0 then p
    else
      { p with text := p.text ++ showLine '-' number offset line, pending := p.pending - 1 }
  else if selected then
    let p := { p with count := p.count + 1, used := offset + line.length + 1 }
    match r.showing with
    | .lines =>
      let gap := if r.grouped && p.apart then "--\n" else ""
      let earlier := join (p.held.reverse.map fun (n, o, l) => showLine '-' n o l)
      { p with text := p.text ++ gap ++ earlier ++ showLine ':' number offset line,
               pending := r.after, held := [], apart := false }
    | .parts =>
      if r.inverted then p
      else
        let s := m.subject line
        let parts := (m.all s (s.text.size + 1) 0).map fun (i, j) =>
          showLine ':' number (offset + i) (String.ofList (s.text.extract i j).toList)
        { p with text := p.text ++ join parts }
    | _ => p
  else if r.showing = .lines && p.pending > 0 then
    { p with text := p.text ++ showLine '-' number offset line, pending := p.pending - 1 }
  else if r.grouped then
    let shown := p.count > 0 || p.apart
    let held := (number, offset, line) :: p.held
    { p with held := held.take r.before, apart := if held.length > r.before then shown else p.apart }
  else p

def Report.search (r : Report) (m : Matcher) (name : String) : List String → Nat → Nat → Progress →
    Progress
  | [], _, _, p => p
  | line :: rest, number, offset, p =>
    let enough : Bool := match r.showing with
      | .nothing | .names _ => p.count > 0
      | _ => r.most.any (· ≤ p.count) && p.pending = 0
    if enough then p
    else
      r.search m name rest (number + 1) (offset + line.length + 1)
        (r.line m name p number offset line)

def pieces (c : Char) (s : String) : List String :=
  let (lines, last) := s.foldl (fun ((lines, current) : Array String × String) d =>
    if d = c then (lines.push current, "") else (lines, current.push d)) (#[], "")
  (if last.isEmpty then lines else lines.push last).toList

/-! ### Files -/

inductive Directories
  | read
  | skip
  | enter (follow : Bool)
  deriving DecidableEq

structure Choice where
  includes : List String := []
  excludes : List String := []
  excludedDirectories : List String := []

def fits (patterns : List String) (name : String) : Bool :=
  patterns.any fun p => Shell.Pattern.isMatch (Shell.Pattern.ofString p) name.toList

def Choice.takes (c : Choice) (name : String) : Bool :=
  !fits c.excludes name && (c.includes.isEmpty || fits c.includes name)

def below (tree : Files.Tree) (choice : Choice) (follow : Bool) : Nat → String → Nat → List String
  | 0, _, _ => []
  | fuel + 1, path, id =>
    (tree.entries id).flatMap fun (name, child) =>
      let path := if path.isEmpty then name
        else if path.endsWith "/" then path ++ name else path ++ "/" ++ name
      let target := match tree.node? child with
        | some (.link _) => if follow then (tree.walk true 10000 id [name]).toOption else none
        | _ => some child
      match target with
      | none => []
      | some child =>
        match tree.node? child with
        | some (.directory _ _ _) =>
          if fits choice.excludedDirectories name then []
          else below tree choice follow fuel path child
        | some (.file _ _) | some (.program _) | some (.unreadable _) =>
          if choice.takes name then [path] else []
        | _ => []

def writesTo (path : String) : Work Bool := do
  let output ← Work.channel? 1
  let files ← Work.files
  let same (id : Nat) (from? : Option Nat) : Work Bool := do
    match output, files.node? id with
    | some (_, { target := .node out, position, appends, .. }), some (.file content _) =>
      let position := if appends then content.size else position
      return id = out && (from?.all (· < position) || from?.isNone)
    | _, _ => return false
  if path = "-" then
    match ← Work.channel? 0 with
    | some (_, { target := .node id, position, .. }) => same id (some position)
    | _ => return false
  else
    match files.find (← read).directory path with
    | .ok id => same id none
    | .error _ => return false

structure Settings where
  matcher : Matcher
  report : Report
  silent : Bool := false
  label : String := "(standard input)"
  asText : Bool := false
  directories : Directories := .read
  choice : Choice := {}

structure Outcome where
  text : String := ""
  found : Bool := false
  failed : Bool := false
  apart : Bool := false

def Settings.fault (s : Settings) (call : Call) (o : Outcome) (text : String) : Work Outcome := do
  if s.silent then return { o with failed := true }
  else
    let rest ← complainAfter call o.text text
    return { o with text := rest, failed := true }

def Settings.searchFile (s : Settings) (call : Call) (o : Outcome) (path : String) : Work Outcome := do
  let r := s.report
  let name := if path = "-" then s.label else path
  if (r.showing = .lines || r.showing = .parts) && r.most.all (1 < ·) && (← writesTo path) then
    complain call (name ++ ": input file is also the output")
    return { o with failed := true }
  else
    match ← readSome path with
    | .error f =>
      if f = .directory && s.directories = .skip then return o
      else
        let o ← s.fault call o (name ++ ": " ++ f.text)
        let counted := r.showing = .count && f = .directory
        return { o with text := o.text ++ (if counted then r.start name ':' 0 0 ++ "0\n" else "") }
    | .ok (text, cause) =>
      let lines := pieces r.lineEnd text
      let whole := text.isEmpty || text.endsWith (String.singleton r.lineEnd)
      let lines := if cause.isSome && !whole then lines.dropLast else lines
      let isBinary := !s.asText && r.lineEnd = '\n' && text.contains '\x00'
      let shows := r.showing = .lines || r.showing = .parts
      let brief := if isBinary && shows then { r with showing := .nothing, grouped := false } else r
      let p := brief.search s.matcher name lines 1 0 { apart := o.apart }
      let enough : Bool := match brief.showing with
        | .nothing | .names _ => p.count > 0
        | _ => r.most.any (· ≤ p.count)
      if let some cause := cause then
        unless enough do Work.passCut cause
      if path = "-" && r.most.any (· ≤ p.count) then
        match ← Work.channel? 0 with
        | some (_, { target := .node _, .. }) => Work.giveBack 0 (text.length - p.used)
        | _ => pure ()
      let o := { o with found := o.found || p.count > 0, apart := p.apart || p.count > 0 || o.apart }
      let title := if r.nullNames then name.push '\x00' else name.push '\n'
      match brief.showing with
      | .count =>
        let start := if !r.named then "" else if r.nullNames then name.push '\x00' else name ++ ":"
        return { o with text := o.text ++ start ++ Decimal.ofNat p.count ++ "\n" }
      | .names found =>
        return { o with text := o.text ++ (if (p.count > 0) = found then title else "") }
      | .nothing =>
        if isBinary && shows && p.count > 0 then
          let rest ← complainAfter call o.text (name ++ ": binary file matches")
          return { o with text := rest }
        else return o
      | _ => return { o with text := o.text ++ p.text }

def Settings.searchPath (s : Settings) (call : Call) (o : Outcome) (path : String) : Work Outcome := do
  match s.directories with
  | .enter follow =>
    let tree ← Work.files
    match path, tree.find (← read).directory (if path.isEmpty then "." else path) with
    | "-", _ => s.searchFile call o path
    | _, .ok id =>
      if tree.isDirectory id then
        let mut o := o
        for p in below tree s.choice follow 200 path id do
          o ← s.searchFile call o p
        return o
      else s.searchFile call o path
    | _, .error _ => s.searchFile call o path
  | _ =>
    if path ≠ "-" && !s.choice.takes ((path.splitOn "/").getLast?.getD path) then return o
    else s.searchFile call o path

def known : Options.Known :=
  { letters := "0123456789A:B:C:D:EFGHILPTUVZabcd:e:f:hilm:noqRrsuvwxyz+:%:^:=:~::/:",
    names := [("after-context", 'A'), ("basic-regexp", 'G'), ("before-context", 'B'),
      ("byte-offset", 'b'), ("color", '~'), ("colour", '~'), ("context", 'C'), ("count", 'c'),
      ("directories", 'd'), ("exclude", '%'), ("exclude-dir", '^'), ("extended-regexp", 'E'),
      ("file", 'f'), ("files-with-matches", 'l'), ("files-without-match", 'L'),
      ("fixed-strings", 'F'), ("ignore-case", 'i'), ("include", '+'), ("initial-tab", 'T'),
      ("invert-match", 'v'), ("label", '='), ("line-number", 'n'), ("line-regexp", 'x'),
      ("max-count", 'm'), ("no-filename", 'h'), ("no-messages", 's'), ("null", 'Z'),
      ("null-data", 'z'), ("only-matching", 'o'), ("perl-regexp", 'P'), ("quiet", 'q'),
      ("recursive", 'r'), ("dereference-recursive", 'R'), ("regexp", 'e'), ("silent", 'q'),
      ("text", 'a'), ("binary-files", '/'), ("with-filename", 'H'), ("word-regexp", 'w')] }

def usage (call : Call) : Work Nat := do
  Work.complain ("Usage: grep [OPTION]... PATTERNS [FILE]...\n")
  askForHelp call
  return 2

def count? (s : String) : Option Nat :=
  let ds := s.toList
  if !ds.isEmpty && ds.all Char.isDigit then some (Decimal.value ds) else none

def context (o : Options) : Except String (Option Nat × Option Nat) := do
  let digits := o.found.filter fun (c, _) => c.isDigit
  let both ← match o.last? 'C' with
    | some s => some <$> (count? s).elim (.error s) .ok
    | none =>
      pure (if digits.isEmpty then none else some (Decimal.value (digits.map (·.1))))
  let side (c : Char) : Except String (Option Nat) :=
    match o.last? c with
    | some s => some <$> (count? s).elim (.error s) .ok
    | none => .ok both
  return (← side 'B', ← side 'A')

def patternsOf (call : Call) (o : Options) : Work (Option (List String × List String)) := do
  let mut patterns : List String := []
  let mut given := false
  for (c, a) in o.found do
    if c = 'e' then
      given := true
      patterns := patterns ++ a.splitOn "\n"
    else if c = 'f' then
      given := true
      match ← readInput a false with
      | .ok text => patterns := patterns ++ linesOf text
      | .error f =>
        complain call (a ++ ": " ++ f.text)
        return none
  if given then return some (patterns, o.operands)
  else
    match o.operands with
    | p :: rest => return some (p.splitOn "\n", rest)
    | [] =>
      let _ ← usage call
      return none

def compiled (kind : Char) (pattern : String) : Except String (Regex × List String) :=
  let dialect : Regex.Dialect :=
    { extended := kind = 'E' || kind = 'P', guarded := true, digits := kind = 'P' }
  if kind = 'F' then .ok (Regex.literal pattern, [])
  else
    match Regex.read dialect pattern with
    | .ok w => .ok (w.regex, w.warnings)
    | .error f => .error f.text

def run (call : Call) (o : Options) : Work Nat := do
  let kinds := (o.found.map (·.1)).filter fun c => c = 'E' || c = 'F' || c = 'G' || c = 'P'
  if kinds.any fun k => kinds.any (· ≠ k) then
    complain call "conflicting matchers specified"
    return 2
  let most ← match o.last? 'm' with
    | none => pure none
    | some s =>
      if s.startsWith "-" && (count? (s.drop 1).copy).isSome then pure none
      else
        match count? s with
        | some n => pure (some n)
        | none =>
          complain call "invalid max count"
          return 2
  let (before, after) ← match context o with
    | .ok c => pure c
    | .error s =>
      complain call (s ++ ": invalid context length argument")
      return 2
  match ← patternsOf call o with
  | none => return 2
  | some (patterns, paths) =>
    let mut regexes := #[]
    for p in patterns do
      match compiled (kinds.headD 'G') p with
      | .error text =>
        complain call text
        return 2
      | .ok (r, warnings) =>
        for w in warnings do complain call ("warning: " ++ w)
        regexes := regexes.push r
    if o.has 'u' then complain call "warning: --unix-byte-offsets (-u) is obsolete"
    let directories : Directories :=
      match o.lastOf? ['r', 'R', 'd'], o.last? 'd' with
      | some 'r', _ => .enter false
      | some 'R', _ => .enter true
      | some 'd', some "skip" => .skip
      | some 'd', some "recurse" => .enter false
      | _, _ => .read
    let recursive := directories matches .enter _
    let paths' := if !paths.isEmpty then paths else if recursive then [""] else ["-"]
    let tree ← Work.files
    let here := (← read).directory
    let intoDirectory := recursive && paths'.any fun p =>
      match tree.find here (if p.isEmpty then "." else p) with
      | .ok id => tree.isDirectory id
      | .error _ => false
    let showing : Showing :=
      if o.has 'q' then .nothing
      else
        match o.lastOf? ['l', 'L'] with
        | some c => .names (c = 'l')
        | none => if o.has 'c' then .count else if o.has 'o' then .parts else .lines
    let report : Report :=
      { showing, most, inverted := o.has 'v',
        named := match o.lastOf? ['H', 'h'] with
          | some c => c = 'H'
          | none => paths'.length > 1 || intoDirectory,
        numbered := o.has 'n', offsets := o.has 'b', tabbed := o.has 'T', nullNames := o.has 'Z',
        before := before.getD 0, after := after.getD 0,
        grouped := before.isSome || after.isSome,
        lineEnd := if o.has 'z' then '\x00' else '\n' }
    let all (c : Char) : List String := (o.found.filter (·.1 = c)).map (·.2)
    let settings : Settings :=
      { matcher :=
          { patterns := regexes.toList, ignoreCase := o.has 'i' || o.has 'y',
            wholeWords := o.has 'w', wholeLines := o.has 'x' },
        report, silent := o.has 's', label := (o.last? '=').getD "(standard input)",
        asText := o.has 'a' || o.last? '/' = some "text", directories,
        choice :=
          { includes := all '+', excludes := all '%', excludedDirectories := all '^' } }
    let mut outcome : Outcome := {}
    if most ≠ some 0 then
      for p in paths' do
        outcome ← settings.searchPath call outcome p
        if showing = .nothing && outcome.found then return 0
    let status := if outcome.failed then 2 else if outcome.found then 0 else 1
    finishWith call 2 outcome.text status

end Search

def search (kind : Option Char) : Kernel.Program := fun call =>
  let call' : Call := match kind, call.arguments with
    | some k, name :: rest => { call with arguments := name :: ("-" ++ String.singleton k) :: rest }
    | _, _ => call
  match Options.readFrom Search.known (call'.arguments.length + 1) (call'.arguments.drop 1) {} with
  | .ok o => Search.run { call with arguments := "grep" :: call.arguments.drop 1 } o
  | .error text => do
    complain call text
    Search.usage call

end KnightLang.Host.Utility
