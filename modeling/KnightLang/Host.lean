import KnightLang.Eval.Action
import KnightLang.Host.Utility.Programs

/-!
The host on which shell commands run: its shell, the usual utilities, and the files that are there at
the start. Programs see it through their `Surroundings` alone, and no statement about them needs it.
-/
namespace KnightLang.Host

open Files Kernel Process

def users : String :=
  "root:x:0:0:root:/root:/bin/bash\n" ++
  "daemon:x:1:1:daemon:/usr/sbin:/usr/sbin/nologin\n" ++
  "bin:x:2:2:bin:/bin:/usr/sbin/nologin\n" ++
  "nobody:x:65534:65534:nobody:/nonexistent:/usr/sbin/nologin\n"

def groups : String := "root:x:0:\ndaemon:x:1:\nbin:x:2:\nnogroup:x:65534:\n"

def emptyDirectory (mode : Nat) : Files.Node := .directory [] 0 mode

def usualDirectories : List String :=
  ["/boot", "/dev/fd", "/dev/shm", "/etc", "/home", "/media", "/mnt", "/opt", "/proc/self/fd", "/root",
    "/run", "/srv", "/sys", "/usr/bin", "/usr/include", "/usr/lib", "/usr/local/bin",
    "/usr/local/lib", "/usr/local/sbin", "/usr/sbin", "/usr/share", "/var/lib", "/var/log",
    "/var/tmp"]

def devices : List (String × Device) :=
  [("/dev/null", .null), ("/dev/zero", .zero), ("/dev/full", .full), ("/dev/random", .random),
    ("/dev/urandom", .random), ("/dev/tty", .terminal), ("/dev/stdin", .descriptor 0),
    ("/dev/stdout", .descriptor 1), ("/dev/stderr", .descriptor 2)]

def links : List (String × String) :=
  [("/bin", "usr/bin"), ("/sbin", "usr/sbin"), ("/lib", "usr/lib"), ("/var/run", "/run")]

def startTime : Nat := 1700000000000000

def initialFiles : Tree :=
  let put (t : Tree) (path : String) (n : Files.Node) : Tree := t.put Tree.root path n
  let t := usualDirectories.foldl (fun t path => (t.makePath Tree.root (path.splitOn "/")).2) { now := startTime }
  let t := devices.foldl (fun t (path, d) => put t path (.device d)) t
  let t := (List.range 10).foldl (fun t n =>
    let name := Decimal.ofNat n
    put (put t ("/dev/fd/" ++ name) (.device (.descriptor n))) ("/proc/self/fd/" ++ name)
      (.device (.descriptor n))) t
  let t := links.foldl (fun t (path, target) => put t path (.link target)) t
  let t := Utility.programNames.foldl (fun t name => put t ("/usr/bin/" ++ name) (.program name)) t
  let t := (t.add Tree.root "tmp" (.directory [] Tree.root 0x3ff)).2
  let file (text : String) : Files.Node := .file text.toByteArray 0x1a4
  put (put t "/etc/passwd" (file users)) "/etc/group" (file groups)

structure Place where
  directory : Nat
  environment : List (String × String)

def firstProcess : Nat := 4242

def launchDepth : Nat := 1000

/-- Runs a program that reads nothing, and tells how it ended, what it has printed and which files it
leaves. A program that does not end counts as killed. -/
def runProgram (place : Place) (files : Tree) (name : String) (arguments : List String) :
    (Ending × ByteArray) × Tree :=
  let out : Channel := { target := .pipe 0, writes := true }
  let errors : Channel := { target := .pipe 1, writes := true }
  let input : Channel := { target := .pipe 2, reads := true }
  let w : World :=
    { files := { files with now := files.now + 10000 }, pipes := #[{}, {}, {}], channels := #[input, out, errors], next := firstProcess + 1,
      living := [firstProcess] }
  let process : Kernel.Entry :=
    { number := firstProcess, parent := firstProcess - 1, directory := place.directory,
      channels := [(0, 0), (1, 1), (2, 2)] }
  let x : Work Nat := do
    match Utility.programs launchDepth name with
    | some program => program ⟨("/bin/" ++ name) :: arguments, place.environment⟩
    | none => return 127
  let (r, w) := (x.run process).run w
  let (_, w) := (Work.settleAll.run process).run w
  let ending : Ending := match r with
    | .ok n | .error (.exited n) => .exited (n % 256)
    | .error (.killed n) => .killed n
    | .error _ => .killed 9
  let printed := (w.pipes[0]?.map (·.content)).getD .empty
  ((ending, printed), w.files)

def runScript (place : Place) (files : Tree) (script : String) : (Ending × ByteArray) × Tree :=
  runProgram place files "sh" ["-c", Octets.ofText script]

def surroundings (place : Place) (seed : Nat) : Surroundings where
  draw := Surroundings.drawn seed
  command _ script files :=
    let ((ending, printed), files) := runScript place files script
    ((ending, printed.data.toList), files)

end KnightLang.Host
