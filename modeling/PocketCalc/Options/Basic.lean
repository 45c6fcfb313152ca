import PocketCalc.Session.History

/-!
# Options

What the command line chooses: the front end, the history's limit and a log file. Each option has
a default and can be given at most once.
-/

namespace PocketCalc

inductive Mode where
  /-- The full-screen panel. -/
  | tui
  /-- A single status line. -/
  | line
deriving DecidableEq, Repr

/-- The choices of the command line. -/
structure Options where
  mode : Mode
  historyLimit : Nat
  logFile : Option Text
deriving DecidableEq, Repr

/-- Why a text is no history limit. -/
inductive LimitFault where
  | notWhole (text : Text)
  | zero
deriving DecidableEq, Repr

def LimitFault.message : LimitFault → Text
  | .notWhole t => '\'' :: t ++ "' is not a whole number".toList
  | .zero => "history limit must be at least 1".toList

/-- Why a command line yields no options. -/
inductive Refusal where
  /-- The help was asked for. -/
  | help
  /-- The version was asked for. -/
  | version
  | unknownArgument
  /-- An option that needs a value has none. -/
  | missingValue
  /-- A switch that takes no value has one. -/
  | unexpectedValue
  | repeatedOption
  | invalidMode (text : Text)
  | emptyLogFile
  | invalidLimit (fault : LimitFault)
deriving DecidableEq, Repr

namespace Options

/-- The options that take a value. -/
inductive Setting where
  | mode
  | historyLimit
  | logFile
deriving DecidableEq, Repr

/-- The values given so far. -/
structure Choices where
  mode : Option Mode := none
  historyLimit : Option Nat := none
  logFile : Option Text := none
deriving DecidableEq, Repr

/-- The options, with defaults for the values not given. -/
def Choices.options (c : Choices) : Options where
  mode := c.mode.getD .tui
  historyLimit := c.historyLimit.getD defaultCapacity
  logFile := c.logFile

def Choices.has (c : Choices) : Setting → Bool
  | .mode => c.mode.isSome
  | .historyLimit => c.historyLimit.isSome
  | .logFile => c.logFile.isSome

end Options

end PocketCalc
