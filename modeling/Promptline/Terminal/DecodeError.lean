import Promptline.Diagnostic
import Promptline.Text.Utf8

set_option autoImplicit false

/-! # Errors of decoding

Why a stretch of terminal input means nothing. -/

namespace Promptline.Terminal

inductive DecodeError where
  /-- A control sequence whose final character names no command. -/
  | unknownCommand (command : Char)
  /-- Numbers that the command does not take. -/
  | invalidParameter (command : Char) (parameters : List UInt8)
  /-- Parameter bytes that are not numbers between semicolons, or a number that is too large. -/
  | malformedParameters (parameters : List UInt8)
  /-- An escape character that no bracket follows. -/
  | unsupportedEscape (byte : UInt8)
  /-- The input ends inside a sequence. -/
  | incompleteSequence (length : Nat)
  /-- A sequence that is still not complete after more bytes than are kept. -/
  | sequenceTooLong (length : Nat)
  deriving DecidableEq, Repr

namespace DecodeError

/-- Bytes as a list of decimal numbers in brackets. -/
def byteList (bytes : List UInt8) : String :=
  "[" ++ ", ".intercalate (bytes.map fun b => toString b.toNat) ++ "]"

/-- Two lower-case hexadecimal digits of a byte. -/
def byteHex (b : UInt8) : String :=
  let digits := Nat.toDigits 16 b.toNat
  String.ofList (if digits.length < 2 then '0' :: digits else digits)

def diagnostic : DecodeError → Diagnostic
  | unknownCommand command =>
    { message := "Unknown CSI command '" ++ command.toString ++ "'"
      code := "r3bl_shell::decode::unknown_command"
      help := some
        "Only cursor, erase, scroll, SGR color and window size sequences are understood" }
  | invalidParameter command parameters =>
    { message := "Invalid parameter(s) '" ++ String.ofList (Utf8.decodeLossy parameters)
        ++ "' for CSI command '" ++ command.toString ++ "'"
      code := "r3bl_shell::decode::invalid_parameter" }
  | malformedParameters parameters =>
    { message := "Malformed parameter bytes " ++ byteList parameters ++ " in CSI sequence"
      code := "r3bl_shell::decode::malformed_parameters"
      help := some "CSI parameters must be decimal numbers separated by ';'" }
  | unsupportedEscape byte =>
    { message := "Unsupported escape sequence ESC 0x" ++ byteHex byte
      code := "r3bl_shell::decode::unsupported_escape"
      help := some "Only CSI sequences (ESC [) are supported" }
  | incompleteSequence length =>
    { message := "Input ends in the middle of an escape or UTF-8 sequence ("
        ++ toString length ++ " bytes)"
      code := "r3bl_shell::decode::incomplete_sequence" }
  | sequenceTooLong length =>
    { message := "Escape sequence still incomplete after " ++ toString length ++ " bytes"
      code := "r3bl_shell::decode::sequence_too_long" }

end DecodeError

end Promptline.Terminal
