import Promptline.Unicode.Emoji
import Promptline.Unicode.Extending
import Promptline.Unicode.Joining
import Promptline.Unicode.Wide

set_option autoImplicit false

/-! # Display width

How many columns of a terminal a text takes up. Most characters have a width of their own: none
for marks and for what is not displayed, two for East Asian wide characters, one for all else.
Some sequences are shown as one glyph, and are narrower or wider than their parts: emoji put
together from several characters, characters with a variation selector, and ligatures of some
scripts. A text is therefore read from its end: what stands behind a character, as far as it can
join with it, decides what the character adds. -/

namespace Promptline.Unicode.Width

/-- What stands right behind a place, as far as a character in front of it can join with it. -/
inductive Following where
  | nothing
  | lineFeed
  | emoji
  | emojiModifier
  | regional
  | severalRegional
  /-- A joiner, and an emoji behind it. -/
  | joinedEmoji
  /-- An enclosing keycap in front of a joined emoji. -/
  | keycap
  /-- Regional indicators in front of a joined emoji. -/
  | joinedRegional (even : Bool) (first : Bool)
  /-- The end of a tag sequence in front of a joined emoji: how many letters, and before them how
      many digits, of the region's name were read. -/
  | tagEnd (letters digits : Nat)
  | alef
  | lamed (joined : Bool)
  | buginese (joined : Bool)
  | bugineseVowel
  | tifinagh (joined : Bool)
  | tifinaghJoiner
  | lisuTone
  | oldTurkic (joined : Bool)
  | khmerLetter
  | kiratE
  | kiratAi
  deriving DecidableEq, Repr

namespace Following

/-- Whether this may be the end of a ligature of a script. -/
def isLigature : Following → Bool
  | alef | lamed _ | buginese _ | bugineseVowel | tifinagh _ | tifinaghJoiner | lisuTone
  | oldTurkic _ | khmerLetter | kiratE | kiratAi => true
  | _ => false

/-- Whether joiners and undisplayed marks may come in between without breaking the ligature. -/
def isTransparent : Following → Bool
  | alef => false
  | f => f.isLigature

/-- The same behind a joiner. -/
def join : Following → Following
  | lamed _ => lamed true
  | buginese _ => buginese true
  | tifinagh _ => tifinagh true
  | oldTurkic _ => oldTurkic true
  | f => f

end Following

/-- What stands behind a place, with the variation selectors in between: one that asks for emoji,
    one that asks for text. -/
structure Behind where
  following : Following
  asEmoji : Bool := false
  asText : Bool := false
  deriving DecidableEq, Repr

namespace Behind

/-- Nothing that a character could join with. -/
def nothing : Behind :=
  { following := .nothing }

def of (f : Following) : Behind :=
  { following := f }

/-- Behind a selector that asks for emoji. -/
def selectEmoji (b : Behind) : Behind :=
  if b.following.isLigature then { b with asEmoji := true }
  else match b.following with
    | .joinedEmoji | .keycap => { following := b.following, asEmoji := true }
    | _ => { following := .nothing, asEmoji := true }

/-- Without the selector that asks for emoji. -/
def dropEmoji (b : Behind) : Behind :=
  if b.following.isLigature then { b with asEmoji := false } else nothing

/-- Behind a selector that asks for text. -/
def selectText (b : Behind) : Behind :=
  if b.following.isLigature then { b with asText := true }
  else { following := .nothing, asText := true }

end Behind

/-! ## Single characters -/

/-- Undisplayed marks, which ligatures disregard. -/
def isUndisplayedMark (n : Nat) : Bool :=
  n = 0x34F || (0x17B4 ≤ n && n ≤ 0x17B5) || (0x180B ≤ n && n ≤ 0x180D) || n = 0x180F
    || n = 0x200D || (0xFE00 ≤ n && n ≤ 0xFE0F) || (0xE0100 ≤ n && n ≤ 0xE01EF)

/-- Marks that surround what follows them, and a mark of no width that is no extending one. -/
def isSurroundingMark (n : Nat) : Bool :=
  n = 0x0605 || n = 0x070F || n = 0x0890 || n = 0x0891 || n = 0x08E2 || n = 0xA8FA

/-- Vowels and final consonants of Hangul, which stand below or beside a leading one. -/
def isFollowingJamo (n : Nat) : Bool :=
  (0x1160 ≤ n && n ≤ 0x11FF) || (0xD7B0 ≤ n && n ≤ 0xD7C6) || (0xD7CB ≤ n && n ≤ 0xD7FB)

/-- The width of a character by itself, from the code point 161 on. -/
def ownWidth (n : Nat) : Nat :=
  if n = 0x2D7F then 1
  else if n = 0x115F || n = 0x17A4 then 2
  else if n = 0x17D8 then 3
  else if graphemeExtend.contains n || defaultIgnorable.contains n || isFollowingJamo n
      || isSurroundingMark n then 0
  else if eastAsianWide.contains n then 2
  else 1

/-- Khmer letters that take a subscript form behind the sign for it. -/
def isKhmerLetter (n : Nat) : Bool :=
  (0x1780 ≤ n && n ≤ 0x1782) || (0x1784 ≤ n && n ≤ 0x1787) || (0x1789 ≤ n && n ≤ 0x178C)
    || (0x178E ≤ n && n ≤ 0x1793) || (0x1795 ≤ n && n ≤ 0x1798) || (0x179B ≤ n && n ≤ 0x179D)
    || n = 0x17A0 || n = 0x17A2 || n = 0x17A7 || (0x17AB ≤ n && n ≤ 0x17AC) || n = 0x17AF

/-- Tifinagh consonants that join in pairs. -/
def isTifinaghConsonant (n : Nat) : Bool :=
  (0x2D31 ≤ n && n ≤ 0x2D65) || n = 0x2D6F

def isRegional (n : Nat) : Bool :=
  0x1F1E6 ≤ n && n ≤ 0x1F1FF

def isEmojiModifier (n : Nat) : Bool :=
  0x1F3FB ≤ n && n ≤ 0x1F3FF

/-- Letters of tag sequences. -/
def isTagLetter (n : Nat) : Bool :=
  0xE0061 ≤ n && n ≤ 0xE007A

/-- Digits of tag sequences. -/
def isTagDigit (n : Nat) : Bool :=
  0xE0030 ≤ n && n ≤ 0xE0039

/-- What a character offers for the one in front of it to join with, from the code point 161 on. -/
def offers (n : Nat) : Behind :=
  if n = 0x05DC then .of (.lamed false)
  else if joiningAlef.contains n then .of .alef
  else if isKhmerLetter n then .of .khmerLetter
  else if n = 0x1A10 then .of (.buginese false)
  else if isTifinaghConsonant n then .of (.tifinagh false)
  else if n = 0xA4FC || n = 0xA4FD then .of .lisuTone
  else if n = 0xFE0E then { following := .nothing, asText := true }
  else if n = 0xFE0F then { following := .nothing, asEmoji := true }
  else if n = 0x10C03 then .of (.oldTurkic false)
  else if n = 0x16D67 then .of .kiratE
  else if n = 0x16D68 then .of .kiratAi
  else if isRegional n then .of .regional
  else if isEmojiModifier n then .of .emojiModifier
  else if emojiPresentation.contains n then .of .emoji
  else .nothing

/-- Whether a selector for text makes the character narrow: it is shown as emoji by default, and
    is not an ideograph in a square. -/
def narrowsAsText (n : Nat) : Bool :=
  presentationBase.contains n && emojiPresentation.contains n && !(0x1F200 ≤ n && n ≤ 0x1F2FF)

/-! ## Sequences -/

/-- A character in front of something that it joins with: what it adds to the width, and what
    then stands behind the next place. `none` if the two do not join. -/
def joins? (n : Nat) (f : Following) : Option (Int × Behind) :=
  match f with
  | .alef =>
    if joiningLam.contains n then some (0, .nothing)
    else if ownWidth n = 0 && !joiningOpaque.contains n then some (0, .of .alef)
    else none
  | .lamed true => if n = 0x05D0 then some (0, .nothing) else none
  | .khmerLetter => if n = 0x17D2 then some (-1, .nothing) else none
  | .buginese true => if n = 0x1A17 then some (0, .of .bugineseVowel) else none
  | .bugineseVowel => if n = 0x1A15 then some (0, .nothing) else none
  | .tifinagh joined =>
    if n = 0x2D7F then some (1, .of .tifinaghJoiner)
    else if joined && isTifinaghConsonant n then some (0, .nothing)
    else none
  | .tifinaghJoiner => if isTifinaghConsonant n then some (-1, .nothing) else none
  | .lisuTone => if 0xA4F8 ≤ n && n ≤ 0xA4FB then some (0, .nothing) else none
  | .oldTurkic true => if n = 0x10C32 then some (0, .nothing) else none
  | .kiratE =>
    if n = 0x16D63 then some (0, .nothing)
    else if n = 0x16D67 then some (0, .of .kiratAi)
    else if n = 0x16D68 then some (1, .of .kiratE)
    else if n = 0x16D69 then some (0, .nothing)
    else none
  | .kiratAi => if n = 0x16D63 then some (0, .nothing) else none
  | .emojiModifier =>
    if emojiModifierBase.contains n then some (0, .of .emojiModifier)
    else if n = 0x200D then some (0, .of .joinedEmoji)
    else none
  | .regional => if isRegional n then some (1, .of .severalRegional) else none
  | .severalRegional =>
    if isRegional n then some (1, .of .severalRegional)
    else if n = 0x200D then some (0, .of .joinedEmoji)
    else none
  | .emoji => if n = 0x200D then some (0, .of .joinedEmoji) else none
  | .joinedEmoji =>
    if n = 0x20E3 then some (0, .of .keycap)
    else if isRegional n then some (1, .of (.joinedRegional false true))
    else if isEmojiModifier n then some (0, .of .emojiModifier)
    else if n = 0xE007F then some (0, .of (.tagEnd 0 0))
    else if emojiPresentation.contains n then some (0, .of .emoji)
    else none
  | .joinedRegional even first =>
    if isRegional n then
      if even then some (3, .of (.joinedRegional false false))
      else some (-1, .of (.joinedRegional true false))
    else if n = 0x200D && !first then some (0, .of .joinedEmoji)
    else none
  | .tagEnd letters digits =>
    if isTagLetter n && digits = 0 && letters < 6 then some (0, .of (.tagEnd (letters + 1) 0))
    else if isTagDigit n && digits < 3 && letters < 5 then
      some (0, .of (.tagEnd letters (digits + 1)))
    else if n = 0x1F3F4 && (digits = 3 || (digits = 0 && 3 ≤ letters)) then some (0, .of .emoji)
    else none
  | _ => none

/-- A character from the code point 161 on in front of what stands behind it, where no selector for
    emoji stands in between. -/
def addBeyondLatin (n : Nat) (b : Behind) : Int × Behind :=
  if b = .nothing then (ownWidth n, offers n)
  else if n = 0xFE0F then (0, b.selectEmoji)
  else if n = 0xFE0E then (0, b.selectText)
  else if b.asText && narrowsAsText n then (1, .nothing)
  else
    let b := { b with asText := false }
    if b.following.isTransparent && n = 0x200D then (0, { b with following := b.following.join })
    else if b.following.isTransparent && isUndisplayedMark n then (0, b)
    else match joins? n b.following with
      | some answer => answer
      | none => (ownWidth n, offers n)

/-- A character in front of what stands behind it: what it adds to the width, and what then stands
    behind the next place. -/
def add (c : Char) (b : Behind) : Int × Behind :=
  let n := c.toNat
  if b.asEmoji && presentationBase.contains n then
    (if b.following = .joinedEmoji || b.following = .keycap then 0 else 2, .of .emoji)
  else
    let b := if b.asEmoji then b.dropEmoji else b
    if n ≤ 0xA0 then
      if n = 0x0A then (1, .of .lineFeed)
      else if n = 0x0D && b = .of .lineFeed then (0, .nothing)
      else (1, .nothing)
    else addBeyondLatin n b

/-- Reads a text from its end. -/
def scan : List Char → Int × Behind
  | [] => (0, .nothing)
  | c :: rest =>
    let (width, behind) := scan rest
    let (more, behind') := add c behind
    (width + more, behind')

end Width

/-- How many columns a text takes up. -/
def displayWidth (text : List Char) : Nat :=
  (Width.scan text).1.toNat

end Promptline.Unicode
