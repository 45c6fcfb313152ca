import PocketCalc.Options.Basic

/-!
# Refused command lines in words

What the program prints when the command line yields no options, and the exit code that goes with
it: asking for the help or the version is no failure.
-/

namespace PocketCalc

def Options.usage : List String :=
  ["Keypad-style terminal calculator with memory and history",
   "",
   "Usage: keycalc [OPTIONS]",
   "",
   "Options:",
   "  -m, --mode <MODE>            Front-end to run: tui or line [default: tui]",
   "      --history-limit <LIMIT>  Number of finished calculations kept [default: 5]",
   "      --log-file <FILE>        Write logs to this file",
   "  -h, --help                   Print help",
   "  -V, --version                Print version"]

def Refusal.lines : Refusal → List String
  | .help => Options.usage
  | .version => ["keycalc 0.1.0"]
  | .unknownArgument => ["error: unexpected argument found"]
  | .missingValue => ["error: a value is required but none was supplied"]
  | .unexpectedValue => ["error: unexpected value found"]
  | .repeatedOption => ["error: an option cannot be used multiple times"]
  | .invalidMode t => ["error: invalid value '" ++ String.ofList t ++ "' for '--mode <MODE>'"]
  | .emptyLogFile => ["error: '--log-file <FILE>' needs a file name"]
  | .invalidLimit fault =>
    ["error: invalid value for '--history-limit <LIMIT>': " ++ String.ofList fault.message]

def Refusal.exitCode : Refusal → UInt32
  | .help | .version => 0
  | _ => 2

end PocketCalc
