import KnightLang.CommandLine.Arguments
import KnightLang.Text.Lines

namespace KnightLang.CommandLine

def taskSummary : Task → String
  | .run => "Execute a Knight program"
  | .parse => "Parse and dump the syntax tree (debug)"
  | .tokens => "Tokenize and dump tokens (debug)"

def Task.name : Task → String
  | run => "run"
  | parse => "parse"
  | tokens => "tokens"

def replSummary : String := "Start an interactive session"

def helpSummary : String := "Print this message or the help of the given subcommand(s)"

def commandList : List String :=
  ["  run     " ++ taskSummary .run, "  parse   " ++ taskSummary .parse,
    "  tokens  " ++ taskSummary .tokens, "  repl    " ++ replSummary]

def helpText : Topic → String
  | .all => Text.lines <|
    ["Knight - a tree-walking interpreter", "", "Usage: knight <COMMAND>", "", "Commands:"] ++
      commandList ++
      ["  help    " ++ helpSummary, "", "Options:", "  -h, --help     Print help",
        "  -V, --version  Print version"]
  | .task t => Text.lines
    [taskSummary t, "", "Usage: knight " ++ t.name ++ " <--expr <EXPR>|--file <FILE>>", "",
      "Options:", "  -e, --expr <EXPR>  Source given on the command line",
      "  -f, --file <FILE>  Source file", "  -h, --help         Print help"]
  | .repl => Text.lines
    [replSummary, "", "Usage: knight repl", "", "Options:", "  -h, --help  Print help"]
  | .help => Text.lines
    [helpSummary, "", "Usage: knight help [COMMAND]...", "", "Arguments:",
      "  [COMMAND]...  Print help for the subcommand(s)"]

end KnightLang.CommandLine
