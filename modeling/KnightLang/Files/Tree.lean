import KnightLang.Files.Fault

namespace KnightLang.Files

inductive Device
  | null
  | zero
  | full
  | random
  | terminal
  | descriptor (n : Nat)
  deriving DecidableEq, Repr

inductive Node
  | file (content : ByteArray) (mode : Nat)
  | directory (entries : List (String × Nat)) (parent : Nat) (mode : Nat)
  | link (target : String)
  | device (d : Device)
  | program (name : String)
  | unreadable (reason : String)

namespace Node

def isDirectory : Node → Bool
  | directory _ _ _ => true
  | _ => false

def isLink : Node → Bool
  | link _ => true
  | _ => false

def mode : Node → Nat
  | file _ mode | directory _ _ mode => mode
  | link _ => 0x1ff
  | device _ => 0x1b6
  | program _ => 0x1ed
  | unreadable _ => 0

end Node

def programHeader : ByteArray := ⟨#[0x7f, 0x45, 0x4c, 0x46, 2, 1, 1, 0, 0xff]⟩

structure Tree where
  nodes : Array Node := #[.directory [] 0 0x1ed]
  changed : Array Nat := #[0]
  now : Nat := 0

namespace Tree

def root : Nat := 0

def node? (t : Tree) (id : Nat) : Option Node := t.nodes[id]?

def entries (t : Tree) (id : Nat) : List (String × Nat) :=
  match t.node? id with
  | some (.directory entries _ _) => entries
  | _ => []

def isDirectory (t : Tree) (id : Nat) : Bool := (t.node? id).any (·.isDirectory)

/-- Follows the parts of a path from a directory. A link is replaced by its target, and the last part
only if `follow` is set. -/
def walk (t : Tree) (follow : Bool) : Nat → Nat → List String → Except Fault Nat
  | 0, _, _ => .error .tooManyLinks
  | _, here, [] => .ok here
  | fuel + 1, here, part :: rest =>
    match t.node? here with
    | some (.directory entries parent _) =>
      if part = "" || part = "." then walk t follow fuel here rest
      else if part = ".." then walk t follow fuel parent rest
      else if part.length > 255 then .error .nameTooLong
      else
        match entries.lookup part with
        | none => .error .missing
        | some id =>
          match t.node? id with
          | some (.link target) =>
            if rest.isEmpty && !follow then .ok id
            else
              walk t follow fuel (if target.startsWith "/" then root else here)
                (target.splitOn "/" ++ rest)
          | _ => walk t follow fuel id rest
    | _ => .error .notDirectory

def origin (here : Nat) (path : String) : Nat := if path.startsWith "/" then root else here

def lookup (t : Tree) (follow : Bool) (here : Nat) (path : String) : Except Fault Nat :=
  if path.isEmpty then .error .missing
  else if path.length ≥ 4096 then .error .nameTooLong
  else t.walk follow 10000 (origin here path) (path.splitOn "/")

def find (t : Tree) : Nat → String → Except Fault Nat := t.lookup true

def place (t : Tree) (here : Nat) (path : String) : Except Fault (Nat × String) :=
  if path.isEmpty then .error .missing
  else if path.length ≥ 4096 then .error .nameTooLong
  else
    let parts := (path.splitOn "/").reverse.dropWhile (· = "")
    match parts with
    | [] => .ok (root, ".")
    | last :: before => do
      let directory ← t.walk true 10000 (origin here path) before.reverse
      if last.length > 255 then .error .nameTooLong
      else if t.isDirectory directory then .ok (directory, last)
      else .error .notDirectory

def namesDirectory (path : String) : Bool :=
  path.endsWith "/" || path.endsWith "/." || path.endsWith "/.." || path = "." || path = ".."

def set (t : Tree) (id : Nat) (n : Node) : Tree :=
  { nodes := t.nodes.setIfInBounds id n,
    changed := t.changed.setIfInBounds id t.now, now := t.now }

def setEntries (t : Tree) (id : Nat) (f : List (String × Nat) → List (String × Nat)) : Tree :=
  match t.node? id with
  | some (.directory entries parent mode) => t.set id (.directory (f entries) parent mode)
  | _ => t

def enter (t : Tree) (directory : Nat) (name : String) (id : Nat) : Tree :=
  t.setEntries directory fun entries => entries.filter (·.1 ≠ name) ++ [(name, id)]

def add (t : Tree) (directory : Nat) (name : String) (n : Node) : Nat × Tree :=
  let id := t.nodes.size
  let t : Tree :=
    { nodes := t.nodes.push n, changed := t.changed.push t.now, now := t.now }
  (id, t.enter directory name id)

def leave (t : Tree) (directory : Nat) (name : String) : Tree :=
  t.setEntries directory fun entries => entries.filter (·.1 ≠ name)

def vacancy (t : Tree) : Nat → Nat → String → Except Fault (Nat × String)
  | 0, _, _ => .error .tooManyLinks
  | fuel + 1, here, path => do
    let (directory, name) ← t.place here path
    match (t.entries directory).lookup name with
    | some id =>
      match t.node? id with
      | some (.link target) => t.vacancy fuel directory target
      | _ => .error .exists
    | none => if namesDirectory path then .error .directory else .ok (directory, name)

def create (t : Tree) (here : Nat) (path : String) (mode : Nat) : Except Fault (Nat × Tree) :=
  match t.find here path with
  | .ok id => if t.isDirectory id then .error .directory else .ok (id, t)
  | .error .missing => do
    let (directory, name) ← t.vacancy 40 here path
    return t.add directory name (.file .empty mode)
  | .error f => .error f

def makeDirectory (t : Tree) (here : Nat) (path : String) (mode : Nat) : Except Fault (Nat × Tree) := do
  let (directory, name) ← t.place here path
  if name = "." || name = ".." then .error .exists
  else if ((t.entries directory).lookup name).isSome then .error .exists
  else return t.add directory name (.directory [] directory mode)

def makeLink (t : Tree) (here : Nat) (target path : String) : Except Fault Tree := do
  let (directory, name) ← t.place here path
  if name = "." || name = ".." then .error .exists
  else if ((t.entries directory).lookup name).isSome then .error .exists
  else return (t.add directory name (.link target)).2

def share (t : Tree) (here : Nat) (target path : String) : Except Fault Tree := do
  let id ← t.lookup false here target
  let (directory, name) ← t.place here path
  if t.isDirectory id then .error .notPermitted
  else if ((t.entries directory).lookup name).isSome then .error .exists
  else return t.enter directory name id

def remove (t : Tree) (here : Nat) (path : String) : Except Fault Tree := do
  let (directory, name) ← t.place here path
  let id ← t.lookup false here path
  if t.isDirectory id then .error .directory else return t.leave directory name

def removeDirectory (t : Tree) (here : Nat) (path : String) : Except Fault Tree := do
  let (directory, name) ← t.place here path
  let id ← t.lookup false here path
  if !t.isDirectory id then .error .notDirectory
  else if name = "." then .error .invalid
  else if name = ".." || !(t.entries id).isEmpty then .error .notEmpty
  else return t.leave directory name

def ancestry (t : Tree) : Nat → Nat → List Nat
  | 0, _ => []
  | fuel + 1, id =>
    match t.node? id with
    | some (.directory _ parent _) => if id = root then [id] else id :: t.ancestry fuel parent
    | _ => []

def rename (t : Tree) (here : Nat) (source target : String) : Except Fault Tree := do
  let id ← t.lookup false here source
  let (oldDirectory, oldName) ← t.place here source
  if oldName = "." || oldName = ".." then throw .busy
  let (directory, name) ← t.place here target
  if t.isDirectory id && (t.ancestry 10000 directory).contains id then .error .invalid
  else
    let moved (t : Tree) : Tree :=
      let t := (t.leave oldDirectory oldName).enter directory name id
      match t.node? id with
      | some (.directory entries _ mode) =>
        { t with nodes := t.nodes.setIfInBounds id (.directory entries directory mode) }
      | _ => t
    match (t.entries directory).lookup name with
    | none => if namesDirectory target && !t.isDirectory id then .error .notDirectory else return moved t
    | some other =>
      if other = id then return t
      else
        match t.isDirectory id, t.isDirectory other with
        | true, false => .error .notDirectory
        | false, true => .error .directory
        | true, true => if (t.entries other).isEmpty then return moved t else .error .notEmpty
        | false, false => return moved t

def pathOf (t : Tree) (id : Nat) : String :=
  let line := t.ancestry 10000 id
  let names := line.zipWith (fun child parent =>
    match (t.entries parent).find? (·.2 = child) with
    | some (name, _) => name
    | none => "") (line.drop 1)
  if names.isEmpty then "/" else names.foldl (fun path name => "/" ++ name ++ path) ""

inductive Presence
  | all
  | allButLast
  | any
  deriving DecidableEq, Repr

def resolve (t : Tree) (presence : Presence) :
    Nat → List String → Option Nat → List String → Except Fault (List String)
  | 0, _, _, _ => .error .tooManyLinks
  | _, done, _, [] => .ok done
  | fuel + 1, done, place, part :: rest =>
    let isDirectory := place.any t.isDirectory
    if place.isSome && !isDirectory && presence ≠ .any then .error .notDirectory
    else if part = "" || part = "." then t.resolve presence fuel done place rest
    else if part = ".." then
      let done := done.drop 1
      t.resolve presence fuel done (t.walk true 10000 root done.reverse).toOption rest
    else
      match place.bind fun id => (t.entries id).lookup part with
      | some child =>
        match t.node? child with
        | some (.link target) =>
          if target.startsWith "/" then
            t.resolve presence fuel [] (some root) (target.splitOn "/" ++ rest)
          else t.resolve presence fuel done place (target.splitOn "/" ++ rest)
        | _ => t.resolve presence fuel (part :: done) (some child) rest
      | none =>
        if presence = .all || (presence = .allButLast && rest.any fun p => p ≠ "") then .error .missing
        else t.resolve presence fuel (part :: done) none rest

def canonical (t : Tree) (presence : Presence) (here : Nat) (path : String) : Except Fault String := do
  if path.isEmpty then throw .missing
  else
    let start := if path.startsWith "/" then [] else
      ((t.pathOf here).splitOn "/").reverse.filter (· ≠ "")
    let names ← t.resolve presence 10000 start (some (origin here path)) (path.splitOn "/")
    return "/" ++ "/".intercalate names.reverse

def content? (t : Tree) (id : Nat) : Except Fault ByteArray :=
  match t.node? id with
  | some (.file content _) => .ok content
  | some (.program _) => .ok programHeader
  | some (.directory _ _ _) => .error .directory
  | some (.unreadable reason) => .error (.unreadable reason)
  | some (.device .terminal) => .error .noDevice
  | some (.device _) => .ok .empty
  | some (.link _) | none => .error .missing

def makePath (t : Tree) (directory : Nat) : List String → Nat × Tree
  | [] => (directory, t)
  | part :: rest =>
    match t.walk true 10000 directory [part] with
    | .ok id => if t.isDirectory id then t.makePath id rest else (directory, t)
    | .error _ =>
      let (id, t) := t.add directory part (.directory [] directory 0x1ed)
      t.makePath id rest

def put (t : Tree) (here : Nat) (path : String) (n : Node) : Tree :=
  match (path.splitOn "/").reverse.dropWhile (· = "") with
  | [] => t
  | last :: before =>
    let (directory, t) := t.makePath (origin here path) before.reverse
    (t.add directory last n).2

end Tree

end KnightLang.Files
