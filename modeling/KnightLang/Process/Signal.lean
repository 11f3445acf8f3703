import KnightLang.Text.Decimal

namespace KnightLang.Process

inductive Ending
  | exited (status : Nat)
  | killed (signal : Nat)
  deriving DecidableEq, Repr

def signalNames : List (Nat × String) :=
  [(1, "HUP"), (2, "INT"), (3, "QUIT"), (4, "ILL"), (5, "TRAP"), (6, "ABRT"), (7, "BUS"), (8, "FPE"),
    (9, "KILL"), (10, "USR1"), (11, "SEGV"), (12, "USR2"), (13, "PIPE"), (14, "ALRM"), (15, "TERM"),
    (16, "STKFLT"), (17, "CHLD"), (18, "CONT"), (19, "STOP"), (20, "TSTP"), (21, "TTIN"),
    (22, "TTOU"), (23, "URG"), (24, "XCPU"), (25, "XFSZ"), (26, "VTALRM"), (27, "PROF"),
    (28, "WINCH"), (29, "IO"), (30, "PWR"), (31, "SYS")]

def signalDescriptions : List (Nat × String) :=
  [(1, "Hangup"), (2, "Interrupt"), (3, "Quit"), (4, "Illegal instruction"),
    (5, "Trace/breakpoint trap"), (6, "Aborted"), (7, "Bus error"), (8, "Floating point exception"),
    (9, "Killed"), (10, "User defined signal 1"), (11, "Segmentation fault"),
    (12, "User defined signal 2"), (13, "Broken pipe"), (14, "Alarm clock"), (15, "Terminated"),
    (16, "Stack fault"), (17, "Child exited"), (18, "Continued"), (19, "Stopped (signal)"),
    (20, "Stopped"), (21, "Stopped (tty input)"), (22, "Stopped (tty output)"),
    (23, "Urgent I/O condition"), (24, "CPU time limit exceeded"), (25, "File size limit exceeded"),
    (26, "Virtual timer expired"), (27, "Profiling timer expired"), (28, "Window changed"),
    (29, "I/O possible"), (30, "Power failure"), (31, "Bad system call")]

def harmlessSignals : List Nat := [17, 18, 19, 20, 21, 22, 23, 28]

def signalDescription (n : Nat) : String :=
  match signalDescriptions.lookup n with
  | some s => s
  | none =>
    if 34 ≤ n && n ≤ 64 then "Real-time signal " ++ Decimal.ofNat (n - 34)
    else "Unknown signal " ++ Decimal.ofNat n

def signalName (n : Nat) : String :=
  match signalNames.lookup n with
  | some s => s
  | none =>
    if n = 34 then "RTMIN"
    else if n = 64 then "RTMAX"
    else if 35 ≤ n && n ≤ 49 then "RTMIN+" ++ Decimal.ofNat (n - 34)
    else if 50 ≤ n && n ≤ 63 then "RTMAX-" ++ Decimal.ofNat (64 - n)
    else Decimal.ofNat n

namespace Ending

def text : Ending → String
  | exited status => "exit status: " ++ Decimal.ofNat status
  | killed signal =>
    "signal: " ++ Decimal.ofNat signal ++
      match signalNames.lookup signal with
      | some name => " (SIG" ++ name ++ ")"
      | none => ""

def status : Ending → Nat
  | exited status => status
  | killed signal => 128 + signal

end Ending

end KnightLang.Process
