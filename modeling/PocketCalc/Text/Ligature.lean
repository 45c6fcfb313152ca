import PocketCalc.Text.CharWidth

/-!
# Letters that run together

Some pairs of letters are written as one sign: in Arabic lam and alef, in Khmer a letter and the
sign that puts it below another, in Hebrew, Buginese, Old Turkic and Tifinagh two letters that a
joiner links, in Lisu two tone letters. A text is read from its end here, so that a `Ligature` is
the second half of such a pair, and `Ligature.before?` says what the character before it adds if it
belongs to the pair. Marks that are not drawn do not part a pair.
-/

namespace PocketCalc.Text

/-- The ranges of the characters without a column that part lam from alef. -/
def partingRanges : List (Nat × Nat) :=
  [(0x0605, 0x0605), (0x0890, 0x0891), (0x08E2, 0x08E2), (0x09BE, 0x09BE), (0x09D7, 0x09D7),
   (0x0B3E, 0x0B3E), (0x0B57, 0x0B57), (0x0BBE, 0x0BBE), (0x0BD7, 0x0BD7), (0x0CC0, 0x0CC0),
   (0x0CC2, 0x0CC2), (0x0CC7, 0x0CC8), (0x0CCA, 0x0CCB), (0x0CD5, 0x0CD6), (0x0D3E, 0x0D3E),
   (0x0D4E, 0x0D4E), (0x0D57, 0x0D57), (0x0DCF, 0x0DCF), (0x0DDF, 0x0DDF), (0x1160, 0x11FF),
   (0x180E, 0x180E), (0x1B35, 0x1B35), (0x1B3B, 0x1B3B), (0x1B3D, 0x1B3D), (0x1B43, 0x1B43),
   (0x200C, 0x200D), (0x2065, 0x2069), (0x302E, 0x302F), (0x3164, 0x3164), (0xA8FA, 0xA8FA),
   (0xD7B0, 0xD7C6), (0xD7CB, 0xD7FB), (0xFF9E, 0xFFA0), (0xFFF0, 0xFFF8), (0x111C2, 0x111C3),
   (0x1133E, 0x1133E), (0x11357, 0x11357), (0x114B0, 0x114B0), (0x114BD, 0x114BD),
   (0x115AF, 0x115AF), (0x11930, 0x11930), (0x1193F, 0x1193F), (0x11941, 0x11941),
   (0x11A3A, 0x11A3A), (0x11A84, 0x11A89), (0x11D46, 0x11D46), (0x11F02, 0x11F02),
   (0x1D165, 0x1D165), (0x1D16E, 0x1D172), (0xE0000, 0xE0000), (0xE0002, 0xE001F),
   (0xE0080, 0xE00FF), (0xE01F0, 0xE0FFF)]

/-- Whether a character is a mark that does not part lam from alef. -/
def isArabicMark (c : Char) : Bool :=
  charWidth c = 0 && !inRanges partingRanges c.toNat

def isAlef (c : Char) : Bool :=
  inRanges [(0x0622, 0x0623), (0x0625, 0x0625), (0x0627, 0x0627), (0x0671, 0x0673),
    (0x0675, 0x0675), (0x0773, 0x0774), (0x0870, 0x0882)] c.toNat

def isLam (c : Char) : Bool :=
  inRanges [(0x0644, 0x0644), (0x06B5, 0x06B8), (0x076A, 0x076A), (0x08A6, 0x08A6),
    (0x08C7, 0x08C7)] c.toNat

/-- Whether a character is a Khmer letter that has a form below another letter. -/
def isSubscriptLetter (c : Char) : Bool :=
  inRanges [(0x1780, 0x1782), (0x1784, 0x1787), (0x1789, 0x178C), (0x178E, 0x1793),
    (0x1795, 0x1798), (0x179B, 0x179D), (0x17A0, 0x17A0), (0x17A2, 0x17A2), (0x17A7, 0x17A7),
    (0x17AB, 0x17AC), (0x17AF, 0x17AF)] c.toNat

def isTifinaghConsonant (c : Char) : Bool :=
  inRanges [(0x2D31, 0x2D65), (0x2D6F, 0x2D6F)] c.toNat

/-- Whether a character is a Lisu tone letter that another tone letter can follow in one sign. -/
def isFirstTone (c : Char) : Bool :=
  0xA4F8 ≤ c.toNat && c.toNat ≤ 0xA4FB

/-- Whether a character is a Lisu tone letter that ends such a sign. -/
def isSecondTone (c : Char) : Bool :=
  0xA4FC ≤ c.toNat && c.toNat ≤ 0xA4FD

/-- Whether a character is a mark that is not drawn; it parts no pair of letters. -/
def isHiddenMark (c : Char) : Bool :=
  inRanges [(0x034F, 0x034F), (0x17B4, 0x17B5), (0x180B, 0x180D), (0x180F, 0x180F),
    (0xFE00, 0xFE0F), (0xE0100, 0xE01EF)] c.toNat

/-- The joiner, which makes one sign of the two beside it. -/
def joiner : Nat :=
  0x200D

/-- The end of a pair of letters. The flag of a letter that needs a joiner before it says whether
the joiner is there. -/
inductive Ligature where
  | alef
  | lamed (joined : Bool)
  | subscriptLetter
  | buginese (joined : Bool)
  /-- The Buginese vowel sign and the letter that a joiner links to it. -/
  | bugineseVowel
  | orkhonI (joined : Bool)
  | consonant (joined : Bool)
  /-- A Tifinagh consonant and the sign before it that links it to another. -/
  | linkedConsonant
  | tone
deriving DecidableEq, Repr

namespace Ligature

/-- What a letter by itself is to the character before it. -/
def ofChar? (c : Char) : Option Ligature :=
  if isAlef c then some .alef
  else if c.toNat = 0x05DC then some (.lamed false)
  else if isSubscriptLetter c then some .subscriptLetter
  else if c.toNat = 0x1A10 then some (.buginese false)
  else if isTifinaghConsonant c then some (.consonant false)
  else if isSecondTone c then some .tone
  else if c.toNat = 0x10C03 then some (.orkhonI false)
  else none

/-- The same letters after a joiner. -/
def join : Ligature → Ligature
  | .lamed _ => .lamed true
  | .buginese _ => .buginese true
  | .orkhonI _ => .orkhonI true
  | .consonant _ => .consonant true
  | l => l

/-- What the pair is with a character before it that does not part it. The marks that do not part
lam from alef are more than those that the other pairs let pass, and the joiner parts them. -/
def past? (l : Ligature) (c : Char) : Option Ligature :=
  if l = .alef then if isArabicMark c then some l else none
  else if c.toNat = joiner then some l.join
  else if isHiddenMark c then some l
  else none

/-- The columns that a character adds if it belongs to the pair, and what is left of the pair to
the character before. The pair is as wide as one letter, so that a first half which is read after
a full column was given to the link takes that column back. -/
def before? (l : Ligature) (c : Char) : Option (Int × Option Ligature) :=
  match l.past? c with
  | some more => some (0, some more)
  | none =>
    match l with
    | .alef => if isLam c then some (0, none) else none
    | .lamed true => if c.toNat = 0x05D0 then some (0, none) else none
    | .subscriptLetter => if c.toNat = 0x17D2 then some (-1, none) else none
    | .buginese true => if c.toNat = 0x1A17 then some (0, some .bugineseVowel) else none
    | .bugineseVowel => if c.toNat = 0x1A15 then some (0, none) else none
    | .orkhonI true => if c.toNat = 0x10C32 then some (0, none) else none
    | .consonant joined =>
      if c.toNat = 0x2D7F then some (1, some .linkedConsonant)
      else if joined && isTifinaghConsonant c then some (0, none)
      else none
    | .linkedConsonant => if isTifinaghConsonant c then some (-1, none) else none
    | .tone => if isFirstTone c then some (0, none) else none
    | .lamed false | .buginese false | .orkhonI false => none

end Ligature

end PocketCalc.Text
