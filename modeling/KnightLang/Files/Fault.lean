import KnightLang.Text.Decimal

namespace KnightLang.Files

inductive Fault
  | notPermitted
  | missing
  | noDevice
  | badDescriptor
  | denied
  | busy
  | exists
  | crossesDevices
  | notDirectory
  | directory
  | invalid
  | full
  | brokenPipe
  | nameTooLong
  | notEmpty
  | tooManyLinks
  | unreadable (reason : String)
  deriving DecidableEq, Repr

namespace Fault

def text : Fault → String
  | notPermitted => "Operation not permitted"
  | missing => "No such file or directory"
  | noDevice => "No such device or address"
  | badDescriptor => "Bad file descriptor"
  | denied => "Permission denied"
  | busy => "Device or resource busy"
  | .exists => "File exists"
  | crossesDevices => "Invalid cross-device link"
  | notDirectory => "Not a directory"
  | directory => "Is a directory"
  | invalid => "Invalid argument"
  | full => "No space left on device"
  | brokenPipe => "Broken pipe"
  | nameTooLong => "File name too long"
  | notEmpty => "Directory not empty"
  | tooManyLinks => "Too many levels of symbolic links"
  | unreadable reason => reason

def number? : Fault → Option Nat
  | notPermitted => some 1
  | missing => some 2
  | noDevice => some 6
  | badDescriptor => some 9
  | denied => some 13
  | busy => some 16
  | .exists => some 17
  | crossesDevices => some 18
  | notDirectory => some 20
  | directory => some 21
  | invalid => some 22
  | full => some 28
  | brokenPipe => some 32
  | nameTooLong => some 36
  | notEmpty => some 39
  | tooManyLinks => some 40
  | unreadable _ => none

def message (f : Fault) : String :=
  match f.number? with
  | some n => f.text ++ " (os error " ++ Decimal.ofNat n ++ ")"
  | none => f.text

end Fault

end KnightLang.Files
