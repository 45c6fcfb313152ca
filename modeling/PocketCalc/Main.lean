import PocketCalc.Dialogue.Transcript
import PocketCalc.Keyboard.Decode
import PocketCalc.Options.Message
import PocketCalc.Options.Parse
import PocketCalc.Panel.Run
import PocketCalc.Screen.Ansi

/-!
# The calculator as a program

Reads keys from standard input, which the terminal should deliver unbuffered, and writes what the
chosen front end shows to standard output.
-/

namespace PocketCalc.Main

def write (t : Text) : IO Unit := do
  let output ← IO.getStdout
  output.putStr (String.ofList t)
  output.flush

/-- The keys of the next stretch of input, none at its end. -/
def readKeys : IO (List Key) := do
  let bytes ← (← IO.getStdin).read 256
  return match String.fromUTF8? bytes with
    | some s => Key.decode s.toList
    | none => bytes.toList.flatMap fun b => Key.decode [Char.ofNat b.toNat]

/-- Answers the keys of one stretch of input; `none` once a key has quit. -/
def answer (s : Session) : List Key → IO (Option Session)
  | [] => return some s
  | k :: rest => do
    let command := Dialogue.Command.ofKey k
    if command = .quit then return none
    let (t, notices) := Dialogue.respond s command
    write (notices.flatMap Dialogue.Notice.text)
    answer t rest

/-- Holds a dialogue until a key quits or the input ends. -/
partial def converse (s : Session) : IO Unit := do
  let keys ← readKeys
  if keys.isEmpty then return
  match ← answer s keys with
  | some t => converse t
  | none => return

/-- Runs the panel until a key quits, the input ends or the drawing is aborted. -/
partial def display (p : Panel) (size : Panel.Size) (keys : List Key) : IO Unit := do
  match Panel.run p size (keys.map fun k => .key k .press) with
  | none => throw (IO.userError "attempt to add with overflow")
  | some r =>
    write (Screen.draw r.current.picture)
    if r.current.panel.quitting then return
    let more ← readKeys
    if more.isEmpty then return
    display r.current.panel size more

def log (o : Options) (line : String) : IO Unit :=
  match o.logFile with
  | some path => IO.FS.withFile (String.ofList path) .append fun file => file.putStrLn line
  | none => return

/-- Runs the front end that the options choose. -/
def run (o : Options) : IO Unit := do
  log o "logging started"
  match o.mode with
  | .tui => display (.start o.historyLimit) ⟨80, 24⟩ []
  | .line =>
    let s := Session.start o.historyLimit
    write (Dialogue.Notice.banner.text ++ (Dialogue.Notice.ofSession s).text)
    converse s
    write Dialogue.Notice.farewell.text

end PocketCalc.Main

def main (arguments : List String) : IO UInt32 := do
  match PocketCalc.Options.parse (arguments.map String.toList) with
  | .ok o =>
    PocketCalc.Main.run o
    return 0
  | .error refusal =>
    for line in refusal.lines do
      IO.println line
    return refusal.exitCode
