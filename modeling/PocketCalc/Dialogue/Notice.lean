import PocketCalc.Session.Basic

/-!
# What a dialogue writes

Everything written on a line terminal is a notice. The last line on the terminal shows the status
of the session; a notice that takes its place erases it first.
-/

namespace PocketCalc.Dialogue

inductive Notice where
  /-- The words of welcome, with the keys. -/
  | banner
  /-- The memory, the pending expression and the entry. -/
  | status (memory pending entry : Text)
  /-- A calculation with its result or with what went wrong. -/
  | calculation (expression verdict : Text)
  /-- The records so far, on one line. -/
  | history (records : Text)
  | farewell
deriving DecidableEq, Repr

/-- The control sequence that erases the line. -/
def eraseLine : Text :=
  ['\x1b', '[', '2', 'K']

/-- Back to the left edge and erase what is there. -/
def restartLine : Text :=
  '\r' :: eraseLine

/-- The end of a line on a terminal that does not return by itself. -/
def lineBreak : Text :=
  ['\r', '\n']

def bannerLines : List Text :=
  ["keycalc - keypad calculator".toList,
   "Digits, '.', + - * /, Enter or '=' to evaluate".toList,
   "Backspace deletes, Del = CE, Esc = C, F5-F8 = MC MR M+ M-".toList,
   "'h' prints the history, 'q' quits".toList,
   []]

/-- What the terminal receives. -/
def Notice.text : Notice → Text
  | .banner => bannerLines.flatMap fun line => line ++ ['\n']
  | .status memory pending entry =>
    restartLine ++ ['['] ++ memory ++ "]  ".toList ++
      (if pending = [] then entry else pending ++ ' ' :: entry)
  | .calculation expression verdict =>
    restartLine ++ expression ++ " = ".toList ++ verdict ++ lineBreak
  | .history records =>
    restartLine ++ "History: ".toList ++
      (if records = [] then "(no calculations yet)".toList else records) ++ lineBreak
  | .farewell => lineBreak ++ "Goodbye!".toList ++ lineBreak

/-- The status of a session (`status_line`). -/
def Notice.ofSession (s : Session) : Notice :=
  .status s.memoryText s.pendingText s.entry

/-- The notice of a calculation made in the session `before`, with the outcome and the session that
it led to. -/
def Notice.ofCalculation (before : Session) (outcome : Except (Fault Binary64) Binary64)
    (after : Session) : Notice :=
  .calculation (Text.trim (before.pendingText ++ ' ' :: before.entry))
    (match outcome with
      | .ok _ => after.entry
      | .error fault => after.entry ++ " (".toList ++ fault.message ++ [')'])

end PocketCalc.Dialogue
