import KnightLang.Process.Signal
import KnightLang.Syntax.CompileError
import KnightLang.Tree.Basic

namespace KnightLang

inductive Attempt
  | add | subtract | multiply | divide | exponentiate | compare | takeAscii
  deriving DecidableEq, Repr

def Attempt.phrase : Attempt → String
  | add => "add to"
  | subtract => "subtract from"
  | multiply => "multiply"
  | divide => "divide"
  | exponentiate => "exponentiate"
  | compare => "compare"
  | takeAscii => "take ASCII of"

inductive Failure
  | sinkFull
  | flushFailed
  | invalidText
  | unreadable (reason : String)
  deriving DecidableEq, Repr

def Failure.reason : Failure → String
  | sinkFull => "sink is full"
  | flushFailed => "flush failed"
  | invalidText => "stream did not contain valid UTF-8"
  | unreadable reason => reason

inductive CommandFault
  | zeroByte
  | tooLong
  deriving DecidableEq, Repr

def CommandFault.reason : CommandFault → String
  | zeroByte => "nul byte found in provided data"
  | tooLong => "Argument list too long (os error 7)"

inductive RuntimeError
  | unsupported (attempt : Attempt) (kind : Kind)
  | negativeRepeat (count : Int64)
  | repeatTooLong (count : Int64)
  | divisionByZero
  | modulusNotPositive (modulus : Int64)
  | negativePowerOfZero
  | undefinedVariable (name : String)
  | notAssignable (target : String)
  | notArithmetic (op : BinaryOp)
  | undefinedFunction (word : String)
  | unparsable (cause : CompileError)
  | commandNotStarted (command : String) (fault : CommandFault)
  | commandFailed (command : String) (ending : Process.Ending)
  | inputOutput (failure : Failure)
  | outOfBounds (start count : Int64) (length : Nat)
  | quit (code : Int32)
  deriving DecidableEq, Repr

namespace RuntimeError

def ofCompileError : CompileError → RuntimeError
  | .unknownFunction word _ => undefinedFunction word
  | cause => unparsable cause

def message : RuntimeError → String
  | unsupported attempt kind => "cannot " ++ attempt.phrase ++ " " ++ kind.name
  | negativeRepeat count => "invalid string repeat count " ++ Decimal.ofInt count.toInt
  | repeatTooLong count =>
    "string repeat count " ++ Decimal.ofInt count.toInt ++ " is too large"
  | divisionByZero => "cannot divide by 0"
  | modulusNotPositive modulus => "cannot modulo by " ++ Decimal.ofInt modulus.toInt
  | negativePowerOfZero => "cannot raise 0 to a negative power"
  | undefinedVariable name => "attempted to access undefined variable " ++ name
  | notAssignable target => "cannot assign to " ++ target
  | notArithmetic op => op.name ++ " is not an arithmetic operator"
  | undefinedFunction word => "undefined function: " ++ word
  | unparsable cause => cause.text
  | commandNotStarted command fault =>
    "cannot run " ++ Text.quote command ++ ": " ++ fault.reason
  | commandFailed command ending =>
    "command " ++ Text.quote command ++ " failed: " ++ ending.text
  | inputOutput failure => "IO error: " ++ failure.reason
  | outOfBounds start count length =>
    "range " ++ Decimal.ofInt start.toInt ++ "+" ++ Decimal.ofInt count.toInt ++
      " out of bounds for length " ++ Decimal.ofNat length
  | quit code => "quit with code " ++ Decimal.ofInt code.toInt

end RuntimeError

end KnightLang
