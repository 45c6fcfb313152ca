import PocketCalc.Dialogue.Command
import PocketCalc.Dialogue.Notice

/-!
# Dialogues on a line terminal

A dialogue begins with the banner and the status of a fresh session, answers each key that is not
ignored, and says farewell when a key quits or no more keys come. It breaks off without a farewell
if the terminal cannot be switched to raw mode or a key cannot be read.
-/

namespace PocketCalc.Dialogue

/-- What comes from the terminal. -/
inductive Input where
  | key (k : Key)
  /-- The next key could not be read. -/
  | failure
deriving DecidableEq, Repr

inductive Interruption where
  | rawMode
  | reading
deriving DecidableEq, Repr

def Interruption.message : Interruption → Text
  | .rawMode => "failed to switch the terminal to raw mode".toList
  | .reading => "read failed".toList

/-- All that was written, and why it ended if it was broken off. -/
structure Transcript where
  notices : List Notice
  interruption : Option Interruption
deriving DecidableEq, Repr

def Transcript.following (notices : List Notice) (t : Transcript) : Transcript :=
  ⟨notices ++ t.notices, t.interruption⟩

def Transcript.text (t : Transcript) : Text :=
  t.notices.flatMap Notice.text

/-- The session after a command, and the notices that answer it. Every answer ends with the new
status; quitting and ignored keys have none. -/
def respond (s : Session) : Command → Session × List Notice
  | .action .equals =>
    let (outcome, t) := s.calculate
    (t, [.ofCalculation s outcome t, .ofSession t])
  | .action a => (s.press a, [.ofSession (s.press a)])
  | .showHistory => (s, [.history s.historyText, .ofSession s])
  | .quit | .ignore => (s, [])

/-- The dialogue from a session on: the loop of `run_line`. -/
def converse (s : Session) : List Input → Transcript
  | [] => ⟨[.farewell], none⟩
  | .failure :: _ => ⟨[], some .reading⟩
  | .key k :: rest =>
    let command := Command.ofKey k
    if command = .quit then ⟨[.farewell], none⟩
    else (converse (respond s command).1 rest).following (respond s command).2

/-- The whole dialogue (`run_line`). Without raw mode it ends behind the banner. -/
def transcript (historyLimit : Nat) (rawMode : Bool) (inputs : List Input) : Transcript :=
  if rawMode then
    let s := Session.start historyLimit
    (converse s inputs).following [.banner, .ofSession s]
  else
    ⟨[.banner], some .rawMode⟩

end PocketCalc.Dialogue
