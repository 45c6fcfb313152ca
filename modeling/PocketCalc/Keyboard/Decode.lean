import PocketCalc.Keyboard.Key

/-!
# Keys from terminal input

A terminal sends a character for most keys and an escape sequence for the named ones. `decode`
reads all the keys in a stretch of input.
-/

namespace PocketCalc.Key

/-- What follows the escape character, for the keys that have a sequence. -/
def sequences : List (Text × KeyCode) :=
  [("[A".toList, .up), ("[B".toList, .down), ("[C".toList, .right), ("[D".toList, .left),
   ("[H".toList, .home), ("[F".toList, .lineEnd), ("[2~".toList, .insert), ("[3~".toList, .delete),
   ("[5~".toList, .pageUp), ("[6~".toList, .pageDown),
   ("OP".toList, .function 1), ("OQ".toList, .function 2), ("OR".toList, .function 3),
   ("OS".toList, .function 4), ("[15~".toList, .function 5), ("[17~".toList, .function 6),
   ("[18~".toList, .function 7), ("[19~".toList, .function 8), ("[20~".toList, .function 9),
   ("[21~".toList, .function 10), ("[23~".toList, .function 11), ("[24~".toList, .function 12)]

/-- The sequence in front of a text, as its key and its length. -/
def sequence? (t : Text) : Option (KeyCode × Nat) :=
  (sequences.find? fun s => s.1.isPrefixOf t).map fun s => (s.2, s.1.length)

/-- The key of a character that is no part of an escape sequence. The control characters below
the space are letters with Control. -/
def ofChar (c : Char) : Key :=
  if c = '\r' ∨ c = '\n' then { code := .enter }
  else if c = '\t' then { code := .tab }
  else if c = '\x7f' ∨ c = '\x08' then { code := .backspace }
  else if c = '\x1b' then { code := .escape }
  else if c.toNat < 27 then { code := .char (Char.ofNat (c.toNat + 96)), control := true }
  else { code := .char c }

/-- The keys in a stretch of input, in order. -/
def decode : Text → List Key
  | [] => []
  | '\x1b' :: rest =>
    match sequence? rest with
    | some (code, length) => { code } :: decode (rest.drop length)
    | none => ofChar '\x1b' :: decode rest
  | c :: rest => ofChar c :: decode rest
termination_by t => t.length
decreasing_by all_goals (simp; try omega)

end PocketCalc.Key
