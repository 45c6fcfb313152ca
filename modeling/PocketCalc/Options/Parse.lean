import PocketCalc.Options.Basic

/-!
# Reading the command line

Arguments are read from left to right. A value belongs to the option it is attached to or, if none
is attached, to the option right before it; it must not look like an option then. Such a separate
value is examined only when the next option begins or the arguments end, so that an unknown
argument is reported ahead of it. `parse` reads a whole command line.
-/

namespace PocketCalc.Options

/-- How an argument looks. -/
inductive Argument where
  /-- Two hyphens alone: no options follow. -/
  | endOfOptions
  /-- Two hyphens and a name, with the value after the first equals sign. -/
  | long (name : Text) (value : Option Text)
  /-- One hyphen, a letter, and what follows it. -/
  | short (letter : Char) (rest : Text)
  | plain (text : Text)
deriving DecidableEq, Repr

/-- How an argument looks. A hyphen alone is plain. -/
def Argument.ofText : Text → Argument
  | ['-', '-'] => .endOfOptions
  | '-' :: '-' :: t =>
    let name := t.takeWhile (· != '=')
    match t.dropWhile (· != '=') with
    | [] => .long name none
    | _ :: value => .long name (some value)
  | '-' :: c :: rest => .short c rest
  | t => .plain t

/-- What an option's name stands for. -/
inductive Meaning where
  | setting (s : Setting)
  | help
  | version
deriving DecidableEq, Repr

def longNames : List (Text × Meaning) :=
  [("mode".toList, .setting .mode), ("history-limit".toList, .setting .historyLimit),
   ("log-file".toList, .setting .logFile), ("help".toList, .help), ("version".toList, .version)]

def letters : List (Char × Meaning) :=
  [('m', .setting .mode), ('h', .help), ('V', .version)]

def mode? (t : Text) : Option Mode :=
  if t = "tui".toList then some .tui
  else if t = "line".toList then some .line
  else none

/-- The first limit that a 64-bit count cannot hold. -/
def limitBound : Nat :=
  UInt64.size

/-- The whole number that a text spells: an optional plus sign and ASCII digits. -/
def whole? (t : Text) : Option Nat :=
  let digits := match t with
    | '+' :: rest => rest
    | _ => t
  if digits = [] ∨ ¬ digits.all Char.isDigit then none
  else
    let n := Nat.ofDigitChars 10 digits 0
    if n < limitBound then some n else none

/-- The history limit that a text spells (`parse_history_limit`). -/
def limit (t : Text) : Except LimitFault Nat :=
  match whole? t with
  | none => .error (.notWhole t)
  | some 0 => .error .zero
  | some n => .ok n

/-- The value of a setting, chosen for the first time. -/
def Choices.choose (c : Choices) (s : Setting) (value : Text) : Except Refusal Choices :=
  if c.has s then .error .repeatedOption
  else
    match s with
    | .mode =>
      match mode? value with
      | some m => .ok { c with mode := some m }
      | none => .error (.invalidMode value)
    | .historyLimit =>
      match limit value with
      | .ok n => .ok { c with historyLimit := some n }
      | .error fault => .error (.invalidLimit fault)
    | .logFile =>
      if value = [] then .error .emptyLogFile else .ok { c with logFile := some value }

/-- What is known between two arguments. -/
structure Progress where
  choices : Choices
  /-- The option that came last, if its value is separate, with that value once it has come. -/
  latest : Option (Setting × Option Text)
deriving DecidableEq, Repr

/-- The choices with the separate value of the latest option. -/
def Progress.settle (p : Progress) : Except Refusal Choices :=
  match p.latest with
  | none => .ok p.choices
  | some (_, none) => .error .missingValue
  | some (s, some value) => p.choices.choose s value

/-- The progress after an option, with the value attached to it if there is one. -/
def Progress.option (p : Progress) (m : Meaning) (attached : Option Text) :
    Except Refusal Progress :=
  match m, attached with
  | .setting s, none => p.settle.map fun c => ⟨c, some (s, none)⟩
  | .setting s, some value => p.settle.bind fun c => (c.choose s value).map fun c => ⟨c, none⟩
  | _, some _ => .error .unexpectedValue
  | .help, none => p.settle.bind fun _ => .error .help
  | .version, none => p.settle.bind fun _ => .error .version

/-- The value attached to a letter: what follows it, without an equals sign in front. -/
def attached : Text → Option Text
  | [] => none
  | '=' :: value => some value
  | value => some value

/-- The progress after a letter. Only a setting takes what follows it for a value. -/
def Progress.letter (p : Progress) (m : Meaning) (rest : Text) : Except Refusal Progress :=
  match m with
  | .setting _ => p.option m (attached rest)
  | _ => p.option m none

/-- The choices that the remaining arguments lead to. -/
def Progress.read (p : Progress) : List Text → Except Refusal Choices
  | [] => p.settle
  | a :: rest =>
    match Argument.ofText a with
    | .endOfOptions => if rest = [] then p.settle else .error .unknownArgument
    | .long name value =>
      match longNames.lookup name with
      | some m => (p.option m value).bind fun q => q.read rest
      | none => .error .unknownArgument
    | .short c more =>
      match letters.lookup c with
      | some m => (p.letter m more).bind fun q => q.read rest
      | none => .error .unknownArgument
    | .plain t =>
      match p.latest with
      | some (s, none) => ({ p with latest := some (s, some t) } : Progress).read rest
      | _ => .error .unknownArgument

/-- The options that a command line asks for. -/
def parse (arguments : List Text) : Except Refusal Options :=
  (Progress.read ⟨{}, none⟩ arguments).map Choices.options

end PocketCalc.Options
