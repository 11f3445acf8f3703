namespace KnightLang.CommandLine

inductive Source
  | expression (text : String)
  | file (path : String)
  deriving DecidableEq, Repr

inductive Task
  | run | parse | tokens
  deriving DecidableEq, Repr

inductive Topic
  | all | task (t : Task) | repl | help
  deriving DecidableEq, Repr

inductive Command
  | task (t : Task) (source : Source)
  | repl
  | version
  | help (topic : Topic)
  deriving DecidableEq, Repr

inductive UsageError
  | missingCommand
  | unknownCommand (name : String)
  | unexpectedArgument (argument : String)
  | missingValue (option : String)
  | invalidValue (option : String)
  | repeatedOption (option : String)
  | conflictingSources
  | missingSource
  deriving DecidableEq, Repr

def UsageError.message : UsageError → String
  | missingCommand => "a command is required"
  | unknownCommand name => "unrecognized subcommand '" ++ name ++ "'"
  | unexpectedArgument argument => "unexpected argument '" ++ argument ++ "' found"
  | missingValue option => "a value is required for '" ++ option ++ "' but none was supplied"
  | invalidValue option => "a value is required for '" ++ option ++ "' but none was supplied"
  | repeatedOption option => "the argument '" ++ option ++ "' cannot be used multiple times"
  | conflictingSources => "the argument '--expr' cannot be used with '--file'"
  | missingSource => "one of '--expr' and '--file' is required"

inductive Shape
  | separator
  | long (name : String) (value : Option String)
  | short (letter : Char) (rest : List Char)
  | plain

def shape (argument : String) : Shape :=
  match argument.toList with
  | ['-', '-'] => .separator
  | '-' :: '-' :: cs =>
    match cs.dropWhile (· ≠ '=') with
    | [] => .long (String.ofList cs) none
    | _ :: value => .long (String.ofList (cs.takeWhile (· ≠ '='))) (some (String.ofList value))
  | '-' :: letter :: rest => .short letter rest
  | _ => .plain

def isPlain (argument : String) : Bool :=
  match shape argument with
  | .plain => true
  | _ => false

inductive SourceOption
  | expr | file
  deriving DecidableEq, Repr

def SourceOption.text : SourceOption → String
  | expr => "--expr <EXPR>"
  | file => "--file <FILE>"

structure Sources where
  expr : Option String := none
  file : Option String := none

namespace Sources

def add (option : SourceOption) (value : String) (s : Sources) : Except UsageError Sources :=
  match option, s with
  | .expr, ⟨none, file⟩ => .ok ⟨some value, file⟩
  | .file, ⟨expr, none⟩ =>
    if value.isEmpty then .error (.invalidValue option.text) else .ok ⟨expr, some value⟩
  | _, _ => .error (.repeatedOption option.text)

def source : Sources → Except UsageError Source
  | ⟨some text, none⟩ => .ok (.expression text)
  | ⟨none, some path⟩ => .ok (.file path)
  | ⟨some _, some _⟩ => .error .conflictingSources
  | ⟨none, none⟩ => .error .missingSource

end Sources

inductive Request
  | option (o : SourceOption) (value : Option String)
  | help
  | separator
  | unknown

/-- A value may stand in the same argument, after an equals sign that a short option does not need. -/
def request (argument : String) : Request :=
  match shape argument with
  | .separator => .separator
  | .long "expr" value => .option .expr value
  | .long "file" value => .option .file value
  | .long "help" none => .help
  | .short 'h' _ => .help
  | .short 'e' rest => .option .expr (attached rest)
  | .short 'f' rest => .option .file (attached rest)
  | _ => .unknown
where
  attached : List Char → Option String
    | [] => none
    | '=' :: value => some (String.ofList value)
    | value => some (String.ofList value)

def taskArguments (task : Task) (sources : Sources) : List String → Except UsageError Command
  | [] => sources.source.map (.task task)
  | argument :: rest =>
    match request argument, rest with
    | .help, _ => .ok (.help (.task task))
    | .separator, [] => sources.source.map (.task task)
    | .separator, next :: _ => .error (.unexpectedArgument next)
    | .unknown, _ => .error (.unexpectedArgument argument)
    | .option o (some value), rest => do taskArguments task (← sources.add o value) rest
    | .option o none, [] => .error (.missingValue o.text)
    | .option o none, value :: rest =>
      if isPlain value then do taskArguments task (← sources.add o value) rest
      else .error (.missingValue o.text)

def replArguments : List String → Except UsageError Command
  | [] | ["--"] => .ok .repl
  | argument :: rest =>
    match request argument, rest with
    | .help, _ => .ok (.help .repl)
    | .separator, next :: _ => .error (.unexpectedArgument next)
    | _, _ => .error (.unexpectedArgument argument)

def helpArguments : List String → Except UsageError Command
  | [] => .ok (.help .all)
  | ["run"] => .ok (.help (.task .run))
  | ["parse"] => .ok (.help (.task .parse))
  | ["tokens"] => .ok (.help (.task .tokens))
  | ["repl"] => .ok (.help .repl)
  | ["help"] => .ok (.help .help)
  | "run" :: name :: _ | "parse" :: name :: _ | "tokens" :: name :: _ | "repl" :: name :: _
  | "help" :: name :: _ | name :: _ => .error (.unknownCommand name)

def Command.ofArguments : List String → Except UsageError Command
  | [] => .error .missingCommand
  | argument :: rest =>
    match shape argument with
    | .separator =>
      match rest with
      | [] => .error .missingCommand
      | next :: _ => .error (.unexpectedArgument next)
    | .long "help" none | .short 'h' _ => .ok (.help .all)
    | .long "version" none | .short 'V' _ => .ok .version
    | .long _ _ | .short _ _ => .error (.unexpectedArgument argument)
    | .plain =>
      match argument with
      | "run" => taskArguments .run {} rest
      | "parse" => taskArguments .parse {} rest
      | "tokens" => taskArguments .tokens {} rest
      | "repl" => replArguments rest
      | "help" => helpArguments rest
      | name => .error (.unknownCommand name)

end KnightLang.CommandLine
