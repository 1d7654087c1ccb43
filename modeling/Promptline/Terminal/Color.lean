set_option autoImplicit false

/-! # Terminal colors

The eight basic colors and the terminal's own default, with the numbers that select them for the
text (from 30) and for what is behind it (from 40). -/

namespace Promptline.Terminal

inductive Color where
  | black | red | green | yellow | blue | magenta | cyan | white | default
  deriving DecidableEq, Repr

namespace Color

/-- Every color, in the order of the numbers. -/
def all : List Color :=
  [black, red, green, yellow, blue, magenta, cyan, white, default]

/-- The place of a color in its row of ten numbers. -/
def offset : Color → UInt16
  | black => 0
  | red => 1
  | green => 2
  | yellow => 3
  | blue => 4
  | magenta => 5
  | cyan => 6
  | white => 7
  | default => 9

/-- The color at a place in a row of ten numbers; place 8 has none. -/
def ofOffset? : Nat → Option Color
  | 0 => some black
  | 1 => some red
  | 2 => some green
  | 3 => some yellow
  | 4 => some blue
  | 5 => some magenta
  | 6 => some cyan
  | 7 => some white
  | 9 => some default
  | _ => none

/-- The number that selects the color for text. -/
def foregroundCode (c : Color) : UInt16 :=
  30 + c.offset

/-- The number that selects the color for the ground behind text. -/
def backgroundCode (c : Color) : UInt16 :=
  40 + c.offset

/-- The color that a number selects for text. -/
def ofForegroundCode? (code : UInt16) : Option Color :=
  if 30 ≤ code.toNat then ofOffset? (code.toNat - 30) else none

/-- The color that a number selects for the ground behind text. -/
def ofBackgroundCode? (code : UInt16) : Option Color :=
  if 40 ≤ code.toNat then ofOffset? (code.toNat - 40) else none

/-- The color's name, capitalised. -/
def name : Color → String
  | black => "Black"
  | red => "Red"
  | green => "Green"
  | yellow => "Yellow"
  | blue => "Blue"
  | magenta => "Magenta"
  | cyan => "Cyan"
  | white => "White"
  | default => "Default"

end Color

end Promptline.Terminal
