import PocketCalc.Text.Emoji
import PocketCalc.Text.Ligature

/-!
# What follows a character

The columns of a character can depend on what follows it: a joiner or a skin tone makes one picture
of several characters, letters run together, a selector changes a sign into a picture. A text is
therefore measured from its end: `place` says how many columns a character adds before its
`Sequel`, and what the two are together to the character before. A number of columns added may be
negative, where a sign turns out to be part of one that was counted already.
-/

namespace PocketCalc.Text

/-- A picture with a joiner before it, and the part of the picture before the joiner that has been
read so far. -/
inductive JoinedPicture where
  | bare
  | keycap
  /-- A first regional letter, whose partner is to come. -/
  | region
  /-- Flags, each of two regional letters. -/
  | evenRegions
  /-- Flags and a regional letter before them, whose partner is to come. -/
  | oddRegions
  /-- The end of a name in tags, with so many letters. -/
  | tagLetters (count : Nat)
  /-- The end of a name in tags, with so many digits. -/
  | tagDigits (count : Nat)
deriving DecidableEq, Repr

/-- What follows a character, as far as the columns of the character depend on it. -/
inductive Sequel where
  | nothing
  | lineFeed
  | picture
  | skinTone
  | region
  /-- At least two regional letters. -/
  | regions
  | joined (p : JoinedPicture)
  | ligature (l : Ligature)
deriving DecidableEq, Repr

/-- The form that a selector asks for. -/
inductive Form where
  | plain
  | picture
deriving DecidableEq, Repr

/-- A sequel, and the selector before it if there is one. -/
structure Context where
  sequel : Sequel := .nothing
  form : Option Form := none
deriving DecidableEq, Repr

namespace Sequel

/-- What a character by itself is to the character before it. -/
def ofChar (c : Char) : Sequel :=
  match Ligature.ofChar? c with
  | some l => .ligature l
  | none =>
    if isRegional c then .region
    else if isSkinTone c then .skinTone
    else if isPicture c then .picture
    else .nothing

/-- What is left of a sequel after a selector that chose nothing: only letters stay together. -/
def afterSelector : Sequel → Sequel
  | .ligature l => .ligature l
  | _ => .nothing

/-- What a sequel is behind the selector of a picture: that picture can still be joined. -/
def afterPictureSelector : Sequel → Sequel
  | .joined .bare => .joined .bare
  | .joined .keycap => .joined .keycap
  | s => s.afterSelector

/-- Whether the sequel makes one picture with a picture before it. -/
def isJoined : Sequel → Bool
  | .joined _ => true
  | _ => false

end Sequel

/-- The columns that a character adds before a joined picture if it belongs to it, and what they
are together. A flag has as many columns as its regional letters, less those of the picture. -/
def JoinedPicture.before? (p : JoinedPicture) (c : Char) : Option (Int × Sequel) :=
  match p with
  | .bare =>
    if c.toNat = keycapFrame then some (0, .joined .keycap)
    else if isRegional c then some (1, .joined .region)
    else if isSkinTone c then some (0, .skinTone)
    else if c.toNat = tagEnd then some (0, .joined (.tagLetters 0))
    else if isPicture c then some (0, .picture)
    else none
  | .keycap => none
  | .region => if isRegional c then some (-1, .joined .evenRegions) else none
  | .evenRegions =>
    if isRegional c then some (3, .joined .oddRegions)
    else if c.toNat = joiner then some (0, .joined .bare)
    else none
  | .oddRegions =>
    if isRegional c then some (-1, .joined .evenRegions)
    else if c.toNat = joiner then some (0, .joined .bare)
    else none
  | .tagLetters n =>
    if isTagLetter c && n < 6 then some (0, .joined (.tagLetters (n + 1)))
    else if isTagDigit c && n ≤ 4 then some (0, .joined (.tagDigits 1))
    else if c.toNat = blackFlag && 3 ≤ n then some (0, .picture)
    else none
  | .tagDigits n =>
    if isTagDigit c && n < 3 then some (0, .joined (.tagDigits (n + 1)))
    else if c.toNat = blackFlag && n = 3 then some (0, .picture)
    else none

/-- The columns that a character adds before a sequel if it makes one sign with it, and what they
are together. -/
def Sequel.before? (s : Sequel) (c : Char) : Option (Int × Sequel) :=
  match s with
  | .nothing | .lineFeed => none
  | .picture => if c.toNat = joiner then some (0, .joined .bare) else none
  | .skinTone =>
    if takesSkinTone c then some (0, .picture)
    else if c.toNat = joiner then some (0, .joined .bare)
    else none
  | .region => if isRegional c then some (1, .regions) else none
  | .regions =>
    if isRegional c then some (1, .regions)
    else if c.toNat = joiner then some (0, .joined .bare)
    else none
  | .joined p => p.before? c
  | .ligature l =>
    (l.before? c).map fun r =>
      (r.1, match r.2 with
        | some more => .ligature more
        | none => .nothing)

/-- The columns that a character adds before a sequel that no selector precedes. A line feed adds
none, and a carriage return none before it; every other control character adds one. -/
def placeUnselected (c : Char) (s : Sequel) : Int × Context :=
  if c.toNat ≤ 0xA0 then
    if c = '\n' then (0, { sequel := .lineFeed })
    else if c = '\r' && s = .lineFeed then (0, {})
    else (1, {})
  else if c.toNat = pictureSelector then
    (0, { sequel := s.afterPictureSelector, form := some .picture })
  else if c.toNat = plainSelector then
    (0, { sequel := s.afterSelector, form := some .plain })
  else
    match s.before? c with
    | some r => (r.1, { sequel := r.2 })
    | none => (charWidth c, { sequel := .ofChar c })

/-- The columns that a character adds to those of what follows it, and what they are together to
the character before. A selected picture has two columns and a selected plain sign has one. -/
def place (c : Char) (k : Context) : Int × Context :=
  match k.form with
  | some .picture =>
    if hasTwoForms c then (if k.sequel.isJoined then 0 else 2, { sequel := .picture })
    else placeUnselected c k.sequel.afterSelector
  | some .plain =>
    if hasTwoForms c && isPicture c && !isFramedText c then (1, {})
    else placeUnselected c k.sequel.afterSelector
  | none => placeUnselected c k.sequel

/-- Before nothing, a printable character of ASCII adds one column, and is nothing itself. -/
theorem place_of_printable {c : Char} (low : 0x20 ≤ c.toNat) (high : c.toNat < 0x7F) :
    place c {} = (1, {}) := by
  have below : c.toNat ≤ 0xA0 := by omega
  have notFeed : c ≠ '\n' := by
    rintro rfl
    exact absurd low (by decide)
  simp [place, placeUnselected, below, notFeed]

end PocketCalc.Text
