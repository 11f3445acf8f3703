import KnightLang.Host.Shell.Run
import KnightLang.Host.Utility.Columns
import KnightLang.Host.Utility.Dates
import KnightLang.Host.Utility.Digest
import KnightLang.Host.Utility.Dump
import KnightLang.Host.Utility.Edit.Run
import KnightLang.Host.Utility.Expression
import KnightLang.Host.Utility.Launch
import KnightLang.Host.Utility.Listing
import KnightLang.Host.Utility.Order
import KnightLang.Host.Utility.Search
import KnightLang.Host.Utility.Sequence
import KnightLang.Host.Utility.Transfer
import KnightLang.Host.Utility.Translate

namespace KnightLang.Host.Utility

open Kernel (Programs)

def plainPrograms : List (String × Kernel.Program) :=
  [("true", fun _ => return 0), ("false", fun _ => return 1), ("echo", echo), ("printf", printFormat),
    ("yes", yes), ("basename", baseName), ("dirname", dirName), ("sleep", sleep),
    ("pwd", printDirectory), ("printenv", printVariables), ("whoami", whoAmI), ("id", identity),
    ("uname", systemName), ("arch", fixedAnswer "x86_64\n" 0), ("hostname", fixedAnswer "localhost\n" 0),
    ("nproc", fixedAnswer "4\n" 0), ("tty", fixedAnswer "not a tty\n" 1), ("sync", fixedAnswer "" 0),
    ("test", condition false), ("[", condition true), ("which", which), ("seq", sequence),
    ("tee", tee), ("cat", concatenate), ("tac", reverseLines), ("rev", reverseCharacters),
    ("head", head), ("tail", tail), ("wc", count), ("nl", numberLines), ("fold", fold),
    ("expand", expandTabs), ("unexpand", collapseBlanks), ("paste", paste), ("cut", cut),
    ("tr", translate), ("sort", sort), ("uniq", uniq), ("comm", compareFiles), ("join", joinFiles),
    ("od", octalDump), ("base64", base64), ("md5sum", digestProgram md5),
    ("sha1sum", digestProgram sha1), ("sha256sum", digestProgram sha256), ("cksum", checkSum),
    ("expr", expression), ("grep", search none), ("egrep", search (some 'E')),
    ("fgrep", search (some 'F')), ("mkdir", makeDirectories), ("rmdir", removeDirectories),
    ("rm", removeFiles), ("touch", touch), ("truncate", truncate), ("mktemp", makeTemporary),
    ("chmod", changeMode), ("cp", copyFiles), ("mv", moveFiles), ("ln", linkFiles),
    ("readlink", readLinks), ("realpath", realPaths), ("ls", listFiles '1' 'N'),
    ("dir", listFiles 'C' 'b'), ("stat", describeFiles),
    ("date", date), ("sed", edit)]

def launchers (programs : Programs) : List (String × Kernel.Program) :=
  [("sh", Shell.program programs), ("dash", Shell.program programs),
    ("bash", Shell.program programs), ("env", environment programs),
    ("xargs", argumentsFromInput programs), ("nohup", runPlainly programs ""),
    ("setsid", runPlainly programs "cfw"), ("stdbuf", runPlainly programs "i:o:e:"),
    ("nice", nice programs), ("timeout", timeLimit programs)]

def programs : Nat → Programs
  | 0 => fun _ => none
  | depth + 1 => fun name =>
    match plainPrograms.lookup name with
    | some p => some p
    | none => (launchers (programs depth)).lookup name

def programNames : List String :=
  plainPrograms.map (·.1) ++ (launchers fun _ => none).map (·.1)

end KnightLang.Host.Utility
