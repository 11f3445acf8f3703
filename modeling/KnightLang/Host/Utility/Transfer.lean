import KnightLang.Host.Utility.Manage

namespace KnightLang.Host.Utility

open Kernel (Call Work)
open Files (Fault Tree)

/-! ### Where things go -/

structure Errand where
  source : String
  target : String

def isDirectoryAt (path : String) : Work Bool := do
  return (← nodeAt true path).toOption.any (·.2.isDirectory)

def errands (call : Call) (o : Options) (followTarget : Bool) : Work (Except Nat (List Errand)) := do
  let into (directory : String) (sources : List String) : List Errand :=
    sources.map fun s => { source := s, target := within directory (lastPart s) }
  let whyNot (path : String) : Work String := do
    return match ← nodeAt true path with
      | .error f => f.text
      | .ok _ => Fault.notDirectory.text
  if o.has 't' && o.has 'T' then
    complain call "cannot combine --target-directory (-t) and --no-target-directory (-T)"
    return .error 1
  else
    match o.last? 't', o.operands with
    | _, [] => .error <$> misused call 1 "missing file operand"
    | some directory, sources =>
      if ← isDirectoryAt directory then return .ok (into directory sources)
      else
        complain call ("target directory " ++ quotedName directory ++ ": " ++ (← whyNot directory))
        return .error 1
    | none, [a] =>
      .error <$> misused call 1 ("missing destination file operand after " ++ quotedName a)
    | none, operands =>
      let sources := operands.dropLast
      let last := operands.getLast?.getD ""
      if o.has 'T' then
        match operands with
        | [a, b] => return .ok [{ source := a, target := b }]
        | _ :: _ :: c :: _ => .error <$> misused call 1 ("extra operand " ++ quotedName c)
        | _ => return .ok []
      else
        let isLink := (← nodeAt false last).toOption.any (·.2.isLink)
        if (followTarget || !isLink) && (← isDirectoryAt last) then return .ok (into last sources)
        else
          match sources with
          | [a] => return .ok [{ source := a, target := last }]
          | _ =>
            complain call ("target " ++ quotedName last ++ ": " ++ (← whyNot last))
            return .error 1

/-! ### What is there already -/

inductive Clobber
  | always
  | never
  | ask
  | ifOlder
  deriving DecidableEq

inductive LinkKind
  | hard
  | symbolic
  deriving DecidableEq

structure Transfer where
  clobber : Clobber := .always
  recursive : Bool := false
  verbose : Bool := false
  followNamed : Bool := true
  followBelow : Bool := true
  preserve : Bool := false
  linking : Option LinkKind := none
  replaces : Bool := false
  backup : Bool := false
  numbered : Bool := false

structure Made where
  copies : List (String × Nat) := []
  directories : List Nat := []
  text : String := ""
  good : Bool := true

def clobberOf (o : Options) : Clobber :=
  match o.lastOf? ['f', 'n', 'i', 'u'] with
  | some 'n' => .never
  | some 'i' => .ask
  | some 'u' => if o.last? 'u' = some "none" then .never else .ifOlder
  | _ => .always

def keepBackup (t : Transfer) (path : String) : Work (Option String) := do
  if !t.backup then return none
  else
    let name ← if !t.numbered then pure (path ++ "~") else do
      let taken ← (List.range 100).mapM fun n => do
        return (← nodeAt false (path ++ ".~" ++ Decimal.ofNat (n + 1) ++ "~")).isOk
      pure (path ++ ".~" ++ Decimal.ofNat (taken.takeWhile id |>.length.succ) ++ "~")
    let _ ← change fun tree here => tree.rename here path name
    return some name

def arrow (source target : String) (backup : Option String) : String :=
  quotedName source ++ " -> " ++ quotedName target ++ (match backup with
    | some b => " (backup: " ++ quotedName b ++ ")"
    | none => "") ++ "\n"

inductive Verdict
  | go
  | leave
  | refuse (text : String)

def judge (call : Call) (t : Transfer) (moving : Bool) (e : Errand) (source : Nat × Files.Node)
    (target : Nat × Files.Node) : Work Verdict := do
  let name := quotedName e.target
  if source.1 = target.1 then
    return .refuse (quotedName e.source ++ " and " ++ name ++ " are the same file")
  else if source.2.isDirectory && !target.2.isDirectory then
    return .refuse ("cannot overwrite non-directory " ++ name ++ " with directory " ++ quotedName e.source)
  else if !source.2.isDirectory && target.2.isDirectory then
    return .refuse ("cannot overwrite directory " ++ name ++ " with non-directory")
  else if source.2.isDirectory then return .go
  else
    let times := (← Work.files).changed
    match t.clobber with
    | .always => return .go
    | .never => return if moving then .refuse ("not replacing " ++ name) else .leave
    | .ask =>
      if ← agreed call true ("overwrite " ++ name) then return .go
      else return if moving then .leave else .refuse ""
    | .ifOlder =>
      return if (times[source.1]?.getD 0) ≤ (times[target.1]?.getD 0) then .leave else .go

/-! ### Copying -/

def copyFacts (source target : String) : Work Unit := do
  match ← nodeAt true source, ← nodeAt true target with
  | .ok (a, n), .ok (b, m) =>
    let tree := (← Work.files).set b (setMode m n.mode)
    Work.setFiles { tree with changed := tree.changed.setIfInBounds b (tree.changed[a]?.getD 0) }
  | _, _ => pure ()

def copyPlain (t : Transfer) (e : Errand) (node : Files.Node) (present : Bool) : Work (Option String) := do
  let mask := (← read).mask
  let create : Work (Option String) := do
    let mode := node.mode &&& (0x1ff ^^^ mask)
    let copied : Option Files.Node := match node with
      | .file content _ => some (.file content mode)
      | .program name => some (.program name)
      | _ => none
    match copied with
    | some n =>
      if (← nodeAt false e.target).isOk then
        return some ("not writing through dangling symlink " ++ quotedName e.target)
      else
        let fault ← change fun tree here => do
          if e.target.endsWith "/" then throw .notDirectory
          let (directory, name) ← tree.place here e.target
          return (tree.add directory name n).2
        return fault.map fun f => "cannot create regular file " ++ quotedName e.target ++ ": " ++ f.text
    | none => write
  let link (kind : LinkKind) : Work (Option String) := do
    let words := if kind = .hard then "hard link " else "symbolic link "
    if kind = .symbolic && !e.source.startsWith "/" && e.target.contains '/' then
      return some (e.target ++ ": can make relative symbolic links only in current directory")
    else
      let fault ← change fun tree here =>
        if kind = .hard then tree.share here e.source e.target
        else tree.makeLink here e.source e.target
      return fault.map fun f => "cannot create " ++ words ++ quotedName e.target ++ " to " ++
        quotedName e.source ++ ": " ++ f.text
  match t.linking, node with
  | some kind, _ => link kind
  | none, .link target =>
    if present then
      let _ ← change fun tree here => tree.remove here e.target
    let fault ← change fun tree here => tree.makeLink here target e.target
    return fault.map fun f => "cannot create symbolic link " ++ quotedName e.target ++ ": " ++ f.text
  | none, _ => if present then write else create
where
  write : Work (Option String) := do
    match ← Work.readFile e.source false with
    | .error f => return some ("error reading " ++ quotedName e.source ++ ": " ++ f.text)
    | .ok text =>
      return (← Work.writeFile e.target .writing text).map fun f =>
        "cannot create regular file " ++ quotedName e.target ++ ": " ++ f.text

def copyPath (call : Call) (t : Transfer) (top : Errand) : Nat → Bool → Errand → Made → Work Made
  | 0, _, _, m => return m
  | fuel + 1, named, e, m => do
    let failed (m : Made) (text : String) : Work Made := do
      if text.isEmpty then return { m with good := false }
      else
        let rest ← complainAfter call m.text text
        return { m with good := false, text := rest }
    match ← nodeAt (if named then t.followNamed else t.followBelow) e.source with
    | .error f => failed m ("cannot stat " ++ quotedName e.source ++ ": " ++ f.text)
    | .ok (id, node) =>
      if node.isDirectory && !t.recursive then
        failed m ("-r not specified; omitting directory " ++ quotedName e.source)
      else if node.isDirectory && m.directories.contains id then
        failed m ("cannot copy a directory, " ++ quotedName top.source ++ ", into itself, " ++
          quotedName top.target)
      else
        let target ← nodeAt (!node.isLink) e.target
        let verdict ←
          match target with
          | .ok other =>
            match m.copies.lookup e.target with
            | some before =>
              if before = id then do
                complain call ("warning: source file " ++ quotedName e.source ++
                  " specified more than once")
                pure .leave
              else
                pure (.refuse ("will not overwrite just-created " ++ quotedName e.target ++ " with " ++
                  quotedName e.source))
            | none =>
              if t.linking.isSome && t.clobber ≠ .never then pure .go
              else judge call t false e (id, node) other
          | .error .missing => pure .go
          | .error f => pure (.refuse ("cannot stat " ++ quotedName e.target ++ ": " ++ f.text))
        match verdict with
        | .leave => return m
        | .refuse text => failed m text
        | .go =>
          let present := target.isOk
          let backup ← if present && !node.isDirectory then keepBackup t e.target else pure none
          let present := present && backup.isNone
          if present && t.replaces && !node.isDirectory then
            let _ ← change fun tree here => tree.remove here e.target
          let present := present && !(t.replaces && !node.isDirectory)
          let m := if t.verbose && (!node.isDirectory || !present) then
              { m with text := m.text ++ arrow e.source e.target backup } else m
          if node.isDirectory then
            let mode := (node.mode &&& (0xfff ^^^ (← read).mask)) ||| 0x1c0
            let fault ← if present then pure none else
              change fun tree here => (·.2) <$> tree.makeDirectory here e.target mode
            match fault with
            | some f => failed m ("cannot create directory " ++ quotedName e.target ++ ": " ++ f.text)
            | none =>
              let made := (← nodeAt true e.target).toOption.map (·.1)
              let entries := (← Work.files).entries id
              let mut m : Made := if present then m else { m with directories := made.toList ++ m.directories }
              for (name, _) in entries do
                m ← copyPath call t top fuel false
                  { source := within e.source name, target := within e.target name } m
              if t.preserve then copyFacts e.source e.target
              return m
          else
            match ← copyPlain t e node present with
            | some text => failed m text
            | none =>
              if t.preserve && !node.isLink then copyFacts e.source e.target
              return { m with copies := (e.target, id) :: m.copies }

def copyFiles : Kernel.Program := fun call =>
  let known : Options.Known :=
    { letters := "abdfHilLnPprRst:Tu::vxZ1::3::567",
      names := [("archive", 'a'), ("attributes-only", '5'), ("backup", '1'), ("force", 'f'),
        ("interactive", 'i'), ("link", 'l'), ("dereference", 'L'), ("no-clobber", 'n'),
        ("no-dereference", 'P'), ("no-target-directory", 'T'), ("preserve", '3'), ("recursive", 'r'),
        ("remove-destination", '6'), ("strip-trailing-slashes", '7'), ("symbolic-link", 's'),
        ("target-directory", 't'), ("update", 'u'), ("verbose", 'v')] }
  let arguments := call.arguments.map fun a => if a = "-u" then "--update" else a
  withOptions { call with arguments } 1 known fun o => do
    match ← errands call o true with
    | .error status => return status
    | .ok list =>
      if o.has 'n' then
        complain call ("warning: behavior of -n is non-portable and may change in future; " ++
          "use --update=none instead")
      let recursive := o.has 'r' || o.has 'R' || o.has 'a'
      let follow := o.lastOf? ['L', 'P', 'H', 'd', 'a']
      let t : Transfer :=
        { clobber := clobberOf o, recursive, verbose := o.has 'v',
          followNamed := match follow with
            | some 'L' | some 'H' => true
            | some _ => false
            | none => !recursive,
          followBelow := follow = some 'L' || (follow.isNone && !recursive),
          preserve := o.has 'p' || o.has 'a' || o.has '3',
          linking := if o.has 'l' then some .hard else if o.has 's' then some .symbolic else none,
          replaces := o.has '6' || (o.has 'f' && (o.has 'l' || o.has 's')),
          backup := o.has 'b' || o.has '1',
          numbered := o.last? '1' = some "numbered" || o.last? '1' = some "t" }
      let mut m : Made := {}
      for e in list do
        m ← copyPath call t e 200 true e { m with directories := [] }
      finish call m.text (if m.good then 0 else 1)

/-! ### Moving -/

def movePath (call : Call) (t : Transfer) (e : Errand) : Work Bool := do
  let failed (text : String) : Work Bool := do
    unless text.isEmpty do complain call text
    return false
  match ← nodeAt false e.source with
  | .error f => failed ("cannot stat " ++ quotedName e.source ++ ": " ++ f.text)
  | .ok (id, node) =>
    let target ← nodeAt false e.target
    let verdict ← match target with
      | .ok other =>
        if id = other.1 && node.isDirectory then pure .go
        else judge call t true e (id, node) other
      | .error .missing => pure .go
      | .error f => pure (.refuse ("cannot stat " ++ quotedName e.target ++ ": " ++ f.text))
    match verdict with
    | .leave => return true
    | .refuse text => failed text
    | .go =>
      let backup ← if target.isOk then keepBackup t e.target else pure none
      let fault ← change fun tree here =>
        if e.target.endsWith "/" && !node.isDirectory then .error .notDirectory
        else tree.rename here e.source e.target
      match fault with
      | none =>
        if t.verbose then say ("renamed " ++ arrow e.source e.target backup)
        return true
      | some .invalid =>
        failed ("cannot move " ++ quotedName e.source ++ " to a subdirectory of itself, " ++
          quotedName e.target)
      | some .notEmpty => failed ("cannot overwrite " ++ quotedName e.target ++ ": " ++ Fault.notEmpty.text)
      | some f =>
        failed ("cannot move " ++ quotedName e.source ++ " to " ++ quotedName e.target ++ ": " ++ f.text)

def moveFiles : Kernel.Program := fun call =>
  let known : Options.Known :=
    { letters := "bfint:Tu::vZ1::7",
      names := [("backup", '1'), ("force", 'f'), ("interactive", 'i'), ("no-clobber", 'n'),
        ("no-target-directory", 'T'), ("strip-trailing-slashes", '7'), ("target-directory", 't'),
        ("update", 'u'), ("verbose", 'v')] }
  let arguments := call.arguments.map fun a => if a = "-u" then "--update" else a
  withOptions { call with arguments } 1 known fun o => do
    match ← errands call o true with
    | .error status => return status
    | .ok list =>
      let t : Transfer :=
        { clobber := clobberOf o, verbose := o.has 'v', backup := o.has 'b' || o.has '1',
          numbered := o.last? '1' = some "numbered" || o.last? '1' = some "t" }
      let results ← list.mapM (movePath call t)
      return if results.all id then 0 else 1

/-! ### Linking -/

def relativePath (start target : String) : String :=
  let parts (p : String) := (p.splitOn "/").filter (· ≠ "")
  let rec strip : List String → List String → List String × List String
    | a :: as, b :: bs => if a = b then strip as bs else (a :: as, b :: bs)
    | as, bs => (as, bs)
  let (up, down) := strip (parts start) (parts target)
  let steps := up.map (fun _ => "..") ++ down
  if steps.isEmpty then "." else "/".intercalate steps

def makeOneLink (call : Call) (o : Options) (e : Errand) : Work Bool := do
  let symbolic := o.has 's'
  let failed (text : String) : Work Bool := do
    unless text.isEmpty do complain call text
    return false
  let source ← nodeAt false e.source
  match symbolic, source with
  | false, .error f => failed ("failed to access " ++ quotedName e.source ++ ": " ++ f.text)
  | false, .ok (_, .directory _ _ _) => failed (e.source ++ ": hard link not allowed for directory")
  | _, _ =>
    let target ← nodeAt false e.target
    let sameFile ← match target with
      | .ok (id, _) => pure ((← nodeAt true e.source).toOption.any (·.1 = id))
      | .error _ => pure false
    let forced := o.has 'f' || o.has 'i' || o.has 'b'
    if target.isOk && forced && sameFile && !(symbolic && lastPart e.source ≠ lastPart e.target) then
      failed (quotedName e.source ++ " and " ++ quotedName e.target ++ " are the same file")
    else if !(← agreed call (target.isOk && o.has 'i') ("replace " ++ quotedName e.target)) then
      return false
    else
      if let .ok (_, node) := target then
        if forced && !node.isDirectory then
          if o.has 'b' then
            let _ ← change fun tree here => tree.rename here e.target (e.target ++ "~")
          else
            let _ ← change fun tree here => tree.remove here e.target
      let tree ← Work.files
      let here := (← read).directory
      let content := if o.has 'r' then
          match tree.canonical .any here e.source, tree.canonical .any here (firstParts e.target) with
          | .ok a, .ok b => relativePath b a
          | _, _ => e.source
        else e.source
      let fault ← change fun tree here =>
        if symbolic then
          if content.isEmpty || e.target.endsWith "/" then .error .missing
          else tree.makeLink here content e.target
        else tree.share here e.source e.target
      match fault with
      | none =>
        let sign := if symbolic then " -> " else " => "
        if o.has 'v' then say (quotedName e.target ++ sign ++ quotedName content ++ "\n")
        return true
      | some f =>
        let kind := if symbolic then "symbolic link " else "hard link "
        let more := if symbolic then (if e.source.isEmpty then " -> ''" else "")
          else if f = .exists then "" else " => " ++ quotedName e.source
        failed ("failed to create " ++ kind ++ quotedName e.target ++ more ++ ": " ++ f.text)

def linkFiles : Kernel.Program := fun call =>
  let known : Options.Known :=
    { letters := "bfiLnPrst:Tv",
      names := [("force", 'f'), ("interactive", 'i'), ("no-dereference", 'n'),
        ("no-target-directory", 'T'), ("relative", 'r'), ("symbolic", 's'), ("target-directory", 't'),
        ("verbose", 'v')] }
  withOptions call 1 known fun o => do
    let list ← match o.operands, o.last? 't' with
      | [a], none =>
        if o.has 'T' then errands call o (!o.has 'n')
        else pure (.ok [{ source := a, target := within "." (lastPart a) }])
      | _, _ => errands call o (!o.has 'n')
    match list with
    | .error status => return status
    | .ok list =>
      let results ← list.mapM (makeOneLink call o)
      return if results.all id then 0 else 1

/-! ### Where paths lead -/

def readLinks : Kernel.Program := fun call =>
  let known : Options.Known :=
    { letters := "femnqsvz",
      names := [("canonicalize", 'f'), ("canonicalize-existing", 'e'), ("canonicalize-missing", 'm'),
        ("no-newline", 'n'), ("quiet", 'q'), ("silent", 's'), ("verbose", 'v'), ("zero", 'z')] }
  withOptions call 1 known fun o => do
    if o.operands.isEmpty then misused call 1 "missing operand"
    else
      if o.has 'n' && o.operands.length > 1 then
        complain call "ignoring --no-newline with multiple arguments"
      let ending := if o.has 'n' && o.operands.length = 1 then "" else if o.has 'z' then "\x00" else "\n"
      let mut text := ""
      let mut status := 0
      for path in o.operands do
        let tree ← Work.files
        let here := (← read).directory
        let found := match o.lastOf? ['f', 'e', 'm'] with
          | some 'f' => tree.canonical .allButLast here path
          | some 'e' => tree.canonical .all here path
          | some _ => tree.canonical .any here path
          | none => do
            let id ← tree.lookup false here path
            match tree.node? id with
            | some (.link target) => return target
            | _ => throw Fault.invalid
        match found with
        | .ok s => text := text ++ s ++ ending
        | .error f =>
          if o.lastOf? ['q', 's', 'v'] = some 'v' then
            text ← complainAfter call text (plainName path ++ ": " ++ f.text)
          status := 1
      finish call text status

def realPaths : Kernel.Program := fun call =>
  let known : Options.Known :=
    { letters := "emLPqsz1:2:",
      names := [("canonicalize-existing", 'e'), ("canonicalize-missing", 'm'), ("logical", 'L'),
        ("physical", 'P'), ("quiet", 'q'), ("relative-to", '1'), ("relative-base", '2'), ("strip", 's'),
        ("no-symlinks", 's'), ("zero", 'z')] }
  withOptions call 1 known fun o => do
    if o.operands.isEmpty then misused call 1 "missing operand"
    else
      let tree ← Work.files
      let here := (← read).directory
      let presence : Tree.Presence := match o.lastOf? ['e', 'm'] with
        | some 'e' => .all
        | some _ => .any
        | none => .allButLast
      let plain (path : String) : String :=
        let steps := ((if path.startsWith "/" then [] else (tree.pathOf here).splitOn "/") ++
          path.splitOn "/").foldl (fun steps part =>
            if part = "" || part = "." then steps
            else if part = ".." then steps.drop 1
            else part :: steps) []
        "/" ++ "/".intercalate steps.reverse
      let mut text := ""
      let mut status := 0
      for path in o.operands do
        let found : Except Fault String :=
          if path.isEmpty then .error .missing
          else if o.has 's' then
            match presence, tree.find here path with
            | .any, _ | .allButLast, _ => .ok (plain path)
            | .all, r => r.map fun _ => plain path
          else tree.canonical presence here path
        match found with
        | .ok s =>
          let shown := match o.last? '1' with
            | some start => match tree.canonical .any here start with
              | .ok start => relativePath start s
              | .error _ => s
            | none => s
          text := text ++ shown ++ (if o.has 'z' then "\x00" else "\n")
        | .error f =>
          unless o.has 'q' do
            text ← complainAfter call text ((if path.isEmpty then "''" else path) ++ ": " ++ f.text)
          status := 1
      finish call text status

end KnightLang.Host.Utility
