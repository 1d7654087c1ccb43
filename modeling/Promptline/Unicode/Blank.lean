import Promptline.Unicode.CodePointSet

set_option autoImplicit false

/-! # White space

The characters that separate words: the property `White_Space`. -/

namespace Promptline.Unicode

/-- The property `White_Space`. -/
def whiteSpace : CodePointSet where
  ranges := #[
    (0x0009, 0x000D), (0x0020, 0x0020), (0x0085, 0x0085), (0x00A0, 0x00A0), (0x1680, 0x1680),
    (0x2000, 0x200A), (0x2028, 0x2029), (0x202F, 0x202F), (0x205F, 0x205F), (0x3000, 0x3000)]

end Promptline.Unicode
