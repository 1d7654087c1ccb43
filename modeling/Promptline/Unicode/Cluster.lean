import Promptline.Unicode.Blank
import Promptline.Unicode.Conjunct
import Promptline.Unicode.Emoji
import Promptline.Unicode.Extending
import Promptline.Unicode.Spacing

set_option autoImplicit false

/-! # Grapheme clusters

A grapheme cluster is what a reader takes for one character: a letter with its marks, a syllable,
an emoji put together from several. Whether a text may be divided in front of a character depends
on that character and on the text before it, never on the text behind: `Context` holds what has
to be known of the text before. -/

namespace Promptline.Unicode

/-- How a character takes part in clusters (`Grapheme_Cluster_Break`, with the consonants of
    conjuncts and the pictographs set apart). -/
inductive ClusterClass where
  | carriageReturn | lineFeed | control | extending | joiner | spacing | prepending
  | leadingJamo | vowelJamo | trailingJamo | syllableLV | syllableLVT
  | regional | pictograph | consonant | other
  deriving DecidableEq, Repr

/-- The class of the code points from 128 on. -/
def clusterClassBeyondAscii (n : Nat) : ClusterClass :=
  if n = 0x200D then .joiner
  else if graphemeExtend.contains n || (0x1F3FB ≤ n && n ≤ 0x1F3FF) then .extending
  else if controlLike.contains n then .control
  else if spacingMark.contains n then .spacing
  else if prepending.contains n then .prepending
  else if (0x1100 ≤ n && n ≤ 0x115F) || (0xA960 ≤ n && n ≤ 0xA97C) then .leadingJamo
  else if (0x1160 ≤ n && n ≤ 0x11A7) || (0xD7B0 ≤ n && n ≤ 0xD7C6) || n = 0x16D63
      || (0x16D67 ≤ n && n ≤ 0x16D6A) then .vowelJamo
  else if (0x11A8 ≤ n && n ≤ 0x11FF) || (0xD7CB ≤ n && n ≤ 0xD7FB) then .trailingJamo
  else if 0xAC00 ≤ n && n ≤ 0xD7A3 then
    if (n - 0xAC00) % 28 = 0 then .syllableLV else .syllableLVT
  else if 0x1F1E6 ≤ n && n ≤ 0x1F1FF then .regional
  else if pictographic.contains n then .pictograph
  else if conjunctConsonant.contains n then .consonant
  else .other

/-- The class of a character. -/
def clusterClass (c : Char) : ClusterClass :=
  let n := c.toNat
  if n < 0x80 then
    if n = 0x0D then .carriageReturn
    else if n = 0x0A then .lineFeed
    else if n < 0x20 || n = 0x7F then .control
    else .other
  else clusterClassBeyondAscii n

/-! ## Where a text may be divided -/

/-- How far the text read so far is on the way to an emoji that goes on behind a joiner. -/
inductive EmojiProgress where
  | none | pictograph | joined
  deriving DecidableEq, Repr

/-- How far the text read so far is on the way to a conjunct that goes on with a consonant. -/
inductive ConjunctProgress where
  | none | consonant | linked
  deriving DecidableEq, Repr

/-- What has to be known of the text in front of a place to say whether it may be divided there. -/
structure Context where
  /-- The class of the character before; `none` at the beginning of the text. -/
  before : Option ClusterClass
  emoji : EmojiProgress
  conjunct : ConjunctProgress
  /-- Whether an odd number of regional indicators stands right before. -/
  oddRegional : Bool
  deriving DecidableEq, Repr

namespace Context

/-- The context at the beginning of a text. -/
def start : Context :=
  { before := none, emoji := .none, conjunct := .none, oddRegional := false }

/-- Whether the text may be divided in front of a character of class `next`. -/
def breaksBefore (ctx : Context) (next : ClusterClass) : Bool :=
  match ctx.before, next with
  | none, _ => true
  | some .carriageReturn, .lineFeed => false
  | some .control, _ | some .carriageReturn, _ | some .lineFeed, _ => true
  | _, .control | _, .carriageReturn | _, .lineFeed => true
  | some .leadingJamo, .leadingJamo | some .leadingJamo, .vowelJamo
  | some .leadingJamo, .syllableLV | some .leadingJamo, .syllableLVT => false
  | some .syllableLV, .vowelJamo | some .syllableLV, .trailingJamo
  | some .vowelJamo, .vowelJamo | some .vowelJamo, .trailingJamo => false
  | some .syllableLVT, .trailingJamo | some .trailingJamo, .trailingJamo => false
  | _, .extending | _, .joiner | _, .spacing => false
  | some .prepending, _ => false
  | _, .consonant => ctx.conjunct != .linked
  | _, .pictograph => ctx.emoji != .joined
  | some .regional, .regional => !ctx.oddRegional
  | _, _ => true

/-- The progress towards an emoji after a character. -/
def nextEmoji (progress : EmojiProgress) : ClusterClass → EmojiProgress
  | .pictograph => .pictograph
  | .extending => if progress = .pictograph then .pictograph else .none
  | .joiner => if progress = .pictograph then .joined else .none
  | _ => .none

/-- The progress towards a conjunct after a character. -/
def nextConjunct (progress : ConjunctProgress) (c : Char) (cls : ClusterClass) :
    ConjunctProgress :=
  match cls with
  | .consonant => .consonant
  | .joiner => progress
  | .extending =>
    if progress = .none then .none
    else if conjunctLinker.hasChar c then .linked
    else if c.toNat = 0x200C then .none
    else progress
  | _ => .none

/-- The context behind a character. -/
def next (ctx : Context) (c : Char) : Context :=
  let cls := clusterClass c
  { before := some cls
    emoji := nextEmoji ctx.emoji cls
    conjunct := nextConjunct ctx.conjunct c cls
    oddRegional := cls == .regional && !ctx.oddRegional }

end Context

/-! ## Clusters -/

/-- Divides a text that stands in a context: the characters that still belong to the cluster
    before it, and the clusters that begin in it. -/
def divide (ctx : Context) : List Char → List Char × List (List Char)
  | [] => ([], [])
  | c :: rest =>
    let (run, clusters) := divide (ctx.next c) rest
    if ctx.breaksBefore (clusterClass c) then ([], (c :: run) :: clusters)
    else (c :: run, clusters)

/-- The grapheme clusters of a text, in order. -/
def clusters (text : List Char) : List (List Char) :=
  (divide .start text).2

/-- How many grapheme clusters a text has. -/
def clusterCount (text : List Char) : Nat :=
  (clusters text).length

/-- Dividing a text loses nothing. -/
theorem divide_flatten (ctx : Context) (text : List Char) :
    (divide ctx text).1 ++ (divide ctx text).2.flatten = text := by
  induction text generalizing ctx with
  | nil => rfl
  | cons c rest ih =>
    have h := ih (ctx.next c)
    simp only [divide]
    split <;> simpa using h

/-- The clusters of a text, put together, are the text. -/
theorem clusters_flatten (text : List Char) : (clusters text).flatten = text := by
  have h := divide_flatten .start text
  cases text with
  | nil => rfl
  | cons c rest => simpa [clusters, divide, Context.breaksBefore, Context.start] using h

/-- Every cluster holds a character. -/
theorem divide_ne_nil (ctx : Context) (text : List Char) :
    ∀ cluster ∈ (divide ctx text).2, cluster ≠ [] := by
  induction text generalizing ctx with
  | nil => simp [divide]
  | cons c rest ih =>
    intro cluster h
    simp only [divide] at h
    split at h
    · rcases List.mem_cons.1 h with rfl | h
      · simp
      · exact ih _ cluster h
    · exact ih _ cluster h

end Promptline.Unicode
