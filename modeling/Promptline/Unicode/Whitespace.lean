import Promptline.Unicode.Blank

set_option autoImplicit false

/-! # Blank characters and words -/

namespace Promptline.Unicode

/-- Whether a character is white space. -/
def isBlank (c : Char) : Bool :=
  whiteSpace.hasChar c

/-- Whether a text shows nothing but white space. -/
def isBlankText (text : List Char) : Bool :=
  text.all isBlank

/-- The stretches between blank characters, one more than there are blanks; some may be empty. -/
def splitAtBlanks (text : List Char) : List (List Char) :=
  text.splitOnP isBlank

end Promptline.Unicode
