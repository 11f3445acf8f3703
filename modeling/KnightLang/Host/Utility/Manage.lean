import KnightLang.Host.Kernel.Rights
import KnightLang.Host.Text.Calendar
import KnightLang.Host.Utility.Lines

namespace KnightLang.Host.Utility

open Kernel (Call Work)
open Files (Fault Tree)
open Rights (Setting)

def change (f : Tree → Nat → Except Fault Tree) : Work (Option Fault) := do
  match f (← Work.files) (← read).directory with
  | .error fault => return some fault
  | .ok tree =>
    Work.setFiles tree
    return none

def nodeAt (follow : Bool) (path : String) : Work (Except Fault (Nat × Files.Node)) := do
  let tree ← Work.files
  match tree.lookup follow (← read).directory path with
  | .error f => return .error f
  | .ok id => return match tree.node? id with
    | some n => .ok (id, n)
    | none => .error .missing

def passed (path : String) : List String :=
  let cs := path.toList
  (List.range cs.length).filterMap fun i =>
    if i > 0 && cs[i]? = some '/' && cs[i - 1]? ≠ some '/' && (cs.drop i).any (· ≠ '/') then
      some (String.ofList (cs.take i))
    else none

/-! ### Directories -/

def makeDirectories : Kernel.Program := fun call =>
  let known : Options.Known :=
    { letters := "pm:vZ", names := [("parents", 'p'), ("mode", 'm'), ("verbose", 'v')] }
  withOptions call 1 known fun o => do
    if o.operands.isEmpty then misused call 1 "missing operand"
    else
      let mask := (← read).mask
      let setting := (o.last? 'm').map Setting.read?
      match setting with
      | some none =>
        complain call ("invalid mode " ++ quoted ((o.last? 'm').getD ""))
        return 1
      | _ =>
        let plain := 0x1ff &&& (0xfff ^^^ mask)
        let mode := match setting with
          | some (some s) => s.apply mask true 0x1ff
          | _ => plain
        let mut text := ""
        let mut status := 0
        for path in o.operands do
          let steps := if o.has 'p' then passed path else []
          let mut fault : Option (String × Fault) := none
          for step in steps do
            if fault.isNone then
              match ← nodeAt true step with
              | .ok (_, n) => unless n.isDirectory do fault := some (step, .notDirectory)
              | .error _ =>
                match ← change fun t here => (·.2) <$> t.makeDirectory here step (plain ||| 0xc0) with
                | some f => fault := some (step, f)
                | none => if o.has 'v' then
                    text := text ++ "mkdir: created directory " ++ quoted step ++ "\n"
          if fault.isNone then
            match ← change fun t here => (·.2) <$> t.makeDirectory here path mode with
            | none => if o.has 'v' then
                text := text ++ "mkdir: created directory " ++ quoted path ++ "\n"
            | some f =>
              let there ← nodeAt true path
              let already := o.has 'p' && there.toOption.any (·.2.isDirectory)
              unless already do fault := some (path, f)
          if let some (place, f) := fault then
            text ← complainAfter call text ("cannot create directory " ++ quoted place ++ ": " ++ f.text)
            status := 1
        finish call text status

def removeDirectories : Kernel.Program := fun call =>
  let known : Options.Known :=
    { letters := "pvi",
      names := [("parents", 'p'), ("verbose", 'v'), ("ignore-fail-on-non-empty", 'i')] }
  withOptions call 1 known fun o => do
    if o.operands.isEmpty then misused call 1 "missing operand"
    else
      let mut text := ""
      let mut status := 0
      for path in o.operands do
        let parents := if o.has 'p' then (passed path).reverse else []
        let mut going := true
        let mut first := true
        for step in path :: parents do
          if going then
            if o.has 'v' then text := text ++ "rmdir: removing directory, " ++ quotedName step ++ "\n"
            if let some f ← change fun t here => t.removeDirectory here step then
              going := false
              unless o.has 'i' && f = .notEmpty do
                text ← complainAfter call text ("failed to remove " ++
                  (if first then "" else "directory ") ++ quotedName step ++ ": " ++ f.text)
                status := 1
            first := false
      finish call text status

/-! ### Removing -/

structure Removal where
  recursive : Bool := false
  forced : Bool := false
  asking : Bool := false
  emptyDirectories : Bool := false
  verbose : Bool := false

def kindOf : Files.Node → String
  | .file content _ => if content.isEmpty then "regular empty file" else "regular file"
  | .program _ | .unreadable _ => "regular file"
  | .directory _ _ _ => "directory"
  | .link _ => "symbolic link"
  | .device (.descriptor _) => "fifo"
  | .device _ => "character special file"

def agreed (call : Call) (asking : Bool) (question : String) : Work Bool := do
  if !asking then return true
  Work.complain (nameOf call ++ ": " ++ question ++ "? ")
  match ← Work.readLine 0 with
  | .ok line => return line.startsWith "y" || line.startsWith "Y"
  | .error _ => return false

def removePath (call : Call) (r : Removal) : Nat → String → Work Bool
  | 0, _ => return false
  | fuel + 1, path => do
    let failed (f : Fault) : Work Bool := do
      complain call ("cannot remove " ++ quotedName path ++ ": " ++ f.text)
      return false
    let done (what : String) : Work Bool := do
      if r.verbose then say ("removed " ++ what ++ quotedName path ++ "\n")
      return true
    match ← nodeAt false path with
    | .error f =>
      if r.forced && (f = .missing || f = .notDirectory) then return true else failed f
    | .ok (_, node) =>
      match node with
      | .directory entries _ _ =>
        let empty := entries.isEmpty
        if !r.recursive && !r.emptyDirectories then failed .directory
        else if !r.recursive && !empty then failed .notEmpty
        else if !(← agreed call (r.asking && !empty) ("descend into directory " ++ quotedName path)) then
          return true
        else
          let mut good := true
          for (name, _) in entries do
            unless ← removePath call r fuel (within path name) do good := false
          if !good then return false
          else if !(← agreed call r.asking ("remove directory " ++ quotedName path)) then return true
          else
            match ← change fun t here => t.removeDirectory here path with
            | some .notEmpty => return true
            | some f => failed f
            | none => done "directory "
      | node =>
        if !(← agreed call r.asking ("remove " ++ kindOf node ++ " " ++ quotedName path)) then
          return true
        else
          match ← change fun t here => t.remove here path with
          | some f => failed f
          | none => done ""

def removeFiles : Kernel.Program := fun call =>
  let known : Options.Known :=
    { letters := "rRfivdIx",
      names := [("recursive", 'r'), ("force", 'f'), ("verbose", 'v'), ("dir", 'd'),
        ("no-preserve-root", 'x'), ("interactive", 'i')] }
  withOptions call 1 known fun o => do
    if o.operands.isEmpty then
      if o.has 'f' then return 0 else misused call 1 "missing operand"
    else
      let last := o.lastOf? ['f', 'i', 'I']
      let r : Removal :=
        { recursive := o.has 'r' || o.has 'R', forced := last = some 'f', asking := last = some 'i',
          emptyDirectories := o.has 'd', verbose := o.has 'v' }
      let mut status := 0
      for path in o.operands do
        let name := lastPart path
        if (r.recursive || r.emptyDirectories) && (name = "." || name = "..") then
          complain call ("refusing to remove '.' or '..' directory: skipping " ++ quotedName path)
          status := 1
        else if r.recursive && (← nodeAt true path).toOption.any (·.1 = Tree.root) then
          complain call ("it is dangerous to operate recursively on " ++ quotedName path ++
            (if path = "/" then "" else " (same as '/')"))
          complain call "use --no-preserve-root to override this failsafe"
          status := 1
        else
          unless ← removePath call r 1000 path do status := 1
      return status

/-! ### Making files -/

def stamp? (now : Calendar.Moment) (text : String) : Option Calendar.Moment :=
  let (main, second) := match text.splitOn "." with
    | [a] => (a.toList, some 0)
    | [a, b] => (a.toList, if b.length = 2 then some (Decimal.value b.toList) else none)
    | _ => ([], none)
  let two (cs : List Char) (i : Nat) : Nat := Decimal.value ((cs.drop i).take 2)
  let year : Option Int := match main.length with
    | 8 => some now.date.year
    | 10 => some (Calendar.yearOf (main.take 2))
    | 12 => some (Decimal.value (main.take 4))
    | _ => none
  match year, second with
  | some year, some second =>
    let rest := main.drop (main.length - 8)
    let date : Calendar.Date := { year, month := two rest 0, day := two rest 2 }
    let (h, m) := (two rest 4, two rest 6)
    if main.all Char.isDigit && date.isValid && h < 24 && m < 60 && second ≤ 60 then
      some { seconds := date.toDays * 86400 + (h * 3600 + m * 60 + second : Nat) }
    else none
  | _, _ => none

def touch : Kernel.Program := fun call =>
  let known : Options.Known :=
    { letters := "acd:fhmr:t:T:",
      names := [("no-create", 'c'), ("date", 'd'), ("reference", 'r'), ("time", 'T'),
        ("no-dereference", 'h')] }
  withOptions call 1 known fun o => do
    if o.operands.isEmpty then misused call 1 "missing file operand"
    else
      match ← (o.last? 'r').mapM (nodeAt true) with
      | some (.error f) =>
        complain call ("failed to get attributes of " ++ quotedName ((o.last? 'r').getD "") ++ ": " ++ f.text)
        return 1
      | reference =>
        let now : Calendar.Moment := { seconds := (← Work.files).now / 1000000 }
        let text := match o.lastOf? ['d', 't'] with
          | some 't' => o.last? 't'
          | _ => o.last? 'd'
        let asked := match o.lastOf? ['d', 't'] with
          | some 't' => (o.last? 't').bind (stamp? now)
          | _ => (o.last? 'd').bind now.read?
        if text.isSome && asked.isNone then
          complain call ("invalid date format " ++ quoted (text.getD ""))
          return 1
        let mut status := 0
        for path in o.operands do
          match ← nodeAt true path with
          | .ok (id, node) =>
            let tree := (← Work.files).set id node
            let time := match reference, asked with
              | _, some m => m.seconds.toNat * 1000000 + m.nanoseconds / 1000
              | some (.ok (other, _)), none => tree.changed[other]?.getD 0
              | _, none => tree.now
            Work.setFiles { tree with changed := tree.changed.setIfInBounds id time }
          | .error f =>
            if o.has 'c' && f = .missing then pure ()
            else
              let fault ← if f = .missing && !path.endsWith "/" then do
                  let made ← Work.openPath path .appending
                  if let (some m, .ok (id, _)) := (asked, ← nodeAt true path) then
                    let tree ← Work.files
                    let time := m.seconds.toNat * 1000000 + m.nanoseconds / 1000
                    Work.setFiles { tree with changed := tree.changed.setIfInBounds id time }
                  pure (match made with
                    | .error f => some ("cannot touch ", f)
                    | .ok _ => none)
                else
                  pure (some (if f = .missing then ("cannot touch ", f) else ("setting times of ", f)))
              if let some (what, f) := fault then
                complain call (what ++ quotedName path ++ ": " ++ f.text)
                status := 1
        return status

def newSize? (text : String) (before : Nat) : Option Nat :=
  let cs := text.toList
  let (sign, rest) := match cs with
    | c :: rest => if "+-<>/%".contains c then (c, String.ofList rest) else (' ', text)
    | [] => (' ', "")
  match Amount.read? rest with
  | none => none
  | some a =>
    if a.sign ≠ ' ' then none
    else
      let n := a.count
      match sign with
      | '+' => some (before + n)
      | '-' => some (before - n)
      | '<' => some (min before n)
      | '>' => some (max before n)
      | '/' => if n = 0 then none else some (before / n * n)
      | '%' => if n = 0 then none else some ((before + n - 1) / n * n)
      | _ => some n

def truncate : Kernel.Program := fun call =>
  let known : Options.Known :=
    { letters := "cos:r:",
      names := [("no-create", 'c'), ("size", 's'), ("reference", 'r'), ("io-blocks", 'o')] }
  withOptions call 1 known fun o => do
    match o.last? 's', o.last? 'r' with
    | none, none => misused call 1 "you must specify either '--size' or '--reference'"
    | size, reference =>
      if o.operands.isEmpty then misused call 1 "missing file operand"
      else if (size.bind (newSize? · 0)).isNone && reference.isNone then
        complain call ("Invalid number: " ++ quoted (size.getD ""))
        return 1
      else
        let wanted ← match reference with
          | some p => do
            match ← nodeAt true p with
            | .ok (_, .file content _) => pure (some content.size)
            | .ok _ => pure (some 0)
            | .error f =>
              complain call ("cannot stat " ++ quotedName p ++ ": " ++ f.text)
              return 1
          | none => pure none
        let mut status := 0
        for path in o.operands do
          let missing := match ← nodeAt true path with
            | .error .missing => true
            | _ => false
          unless o.has 'c' && missing do
            match ← Work.openPath path .updating with
            | .error f =>
              complain call ("cannot open " ++ quotedName path ++ " for writing: " ++ f.text)
              status := 1
            | .ok _ =>
              if let .ok (id, .file content mode) ← nodeAt true path then
                let n := match size with
                  | some s => (newSize? s (wanted.getD content.size)).getD 0
                  | none => wanted.getD 0
                let kept := content.extract 0 n
                let filled := kept ++ ⟨Array.replicate (n - kept.size) 0⟩
                modify fun w => { w with files := w.files.set id (.file filled mode) }
        return status

def filledTemplate (seed : Nat) (template suffix : String) : Option String :=
  let cs := template.toList.reverse
  let (tail, cs) := if suffix.isEmpty && template.contains 'X' then
      (cs.takeWhile (· ≠ 'X'), cs.dropWhile (· ≠ 'X'))
    else ([], cs)
  let count := (cs.takeWhile (· = 'X')).length
  let letters := "abcdefghijklmnopqrstuvwxyzABCDEFGHIJKLMNOPQRSTUVWXYZ0123456789".toList
  if count < 3 || tail.contains '/' then none
  else
    let drawn := (Work.noise count seed).map fun b => letters[b.toNat % letters.length]?.getD 'a'
    some (String.ofList ((cs.drop count).reverse ++ drawn ++ tail.reverse) ++ suffix)

def makeTemporary : Kernel.Program := fun call =>
  let known : Options.Known :=
    { letters := "dp::qtuVs:",
      names := [("directory", 'd'), ("tmpdir", 'p'), ("quiet", 'q'), ("dry-run", 'u'), ("suffix", 's')] }
  -- A directory may stand apart from its letter.
  let arguments := call.arguments.foldr (fun a rest => match a, rest with
    | "-p", d :: rest => ("-p" ++ d) :: rest
    | a, rest => a :: rest) []
  withOptions { call with arguments } 1 known fun o => do
    match o.operands with
    | _ :: _ :: _ => misused call 1 "too many templates"
    | operands =>
      let directory := match o.last? 'p' with
        | some "" => (call.environment.lookup "TMPDIR").getD "/tmp"
        | some d => d
        | none => (call.environment.lookup "TMPDIR").getD "/tmp"
      let template := operands.headD "tmp.XXXXXXXXXX"
      let inside := operands.isEmpty || o.has 'p' || o.has 't'
      let path := if inside then within directory template else template
      let w ← get
      let seed := (← read).number * 1000003 + w.files.nodes.size * 7919 + w.clock
      match filledTemplate seed path ((o.last? 's').getD "") with
      | none =>
        complain call ("too few X's in template " ++ quoted template)
        return 1
      | some path =>
        let fault ←
          if o.has 'u' then pure none
          else if o.has 'd' then change fun t here => (·.2) <$> t.makeDirectory here path 0x1c0
          else
            change fun t here => do
              let (id, t) ← t.create here path 0x180
              return t.set id (.file .empty 0x180)
        match fault with
        | some f =>
          unless o.has 'q' do
            complain call ("failed to create " ++ (if o.has 'd' then "directory" else "file") ++
              " via template " ++ quoted (if inside then within directory template else template) ++
              ": " ++ f.text)
          return 1
        | none => finish call (path ++ "\n") 0

/-! ### Rights -/

def withAllBelow (tree : Tree) : Nat → String → Nat → List (String × Nat)
  | 0, _, _ => []
  | fuel + 1, path, id =>
    (path, id) :: (tree.entries id).flatMap fun (name, child) =>
      withAllBelow tree fuel (within path name) child

def setMode (n : Files.Node) (mode : Nat) : Files.Node :=
  match n with
  | .file content _ => .file content mode
  | .directory entries parent _ => .directory entries parent mode
  | n => n

def isModeArgument (a : String) : Bool :=
  match a.toList with
  | '-' :: c :: rest => "rwxXstugoa,+=01234567".contains c && rest.all fun c =>
      "rwxXstugoa,+-=01234567".contains c
  | _ => false

def changeMode : Kernel.Program := fun call =>
  let known : Options.Known :=
    { letters := "RcfvM:m:",
      names := [("recursive", 'R'), ("changes", 'c'), ("silent", 'f'), ("quiet", 'f'), ("verbose", 'v'),
        ("reference", 'M')] }
  -- A mode that takes rights away looks like an option.
  let arguments := call.arguments.map fun a => if isModeArgument a then "-m" ++ a else a
  withOptions { call with arguments } 1 known fun o => do
    let mask := (← read).mask
    let given := (o.last? 'm').orElse fun _ =>
      if (o.last? 'M').isSome then none else o.operands.head?
    let paths := if (o.last? 'm').isSome || (o.last? 'M').isSome then o.operands else o.operands.drop 1
    let reference ← (o.last? 'M').mapM (nodeAt true)
    match given, reference, paths with
    | none, none, _ => misused call 1 "missing operand"
    | _, some (.error f), _ =>
      complain call ("failed to get attributes of " ++ quotedName ((o.last? 'M').getD "") ++ ": " ++ f.text)
      return 1
    | some m, _, [] => misused call 1 ("missing operand after " ++ quoted m)
    | none, _, [] => misused call 1 "missing operand"
    | given, reference, paths =>
      let setting := match reference with
        | some (.ok (_, n)) => some (Setting.number n.mode)
        | _ => given.bind Setting.read?
      match setting with
      | none => misused call 1 ("invalid mode: " ++ quoted (given.getD ""))
      | some setting =>
        let mut text := ""
        let mut status := 0
        for path in paths do
          match ← nodeAt true path with
          | .error f =>
            status := 1
            unless o.has 'f' do
              if (← nodeAt false path).isOk then
                text ← complainAfter call text ("cannot operate on dangling symlink " ++ quotedName path)
              else
                text ← complainAfter call text ("cannot access " ++ quotedName path ++ ": " ++ f.text)
          | .ok (id, _) =>
            let tree ← Work.files
            let targets := if o.has 'R' then withAllBelow tree 200 path id else [(path, id)]
            for (name, id) in targets do
              if let some n := (← Work.files).node? id then
                unless n.isLink do
                  let before := n.mode
                  let after := match setting with
                    | .number m => if n.isDirectory && (given.getD "").length > 4 then m
                      else (Setting.number m).apply mask n.isDirectory before
                    | s => s.apply mask n.isDirectory before
                  Work.setFiles ((← Work.files).set id (setMode n after))
                  let show' (m : Nat) : String :=
                    Rights.octal 4 m ++ " (" ++ Rights.shown m ++ ")"
                  if before ≠ after then
                    if o.has 'v' || o.has 'c' then
                      text := text ++ "mode of " ++ quotedName name ++ " changed from " ++ show' before ++
                        " to " ++ show' after ++ "\n"
                  else if o.has 'v' then
                    text := text ++ "mode of " ++ quotedName name ++ " retained as " ++ show' before ++ "\n"
        finish call text status

end KnightLang.Host.Utility
