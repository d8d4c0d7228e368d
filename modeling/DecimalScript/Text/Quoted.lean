import DecimalScript.Text.GraphemeExtend
import DecimalScript.Text.Unprintable

/-!
# Quoted text

The written form of a text between double quotes. A quote, a backslash, the null character, a tab
and the two line-end characters have an escape of two characters each; any other character that
extends a grapheme or is unprintable is written by its code point in lower-case hexadecimal,
as in `\u{301}`; all else stands for itself.
-/

namespace DecimalScript.Text.Quoted

/-- The escape by code point. -/
def escapeCodePoint (c : Char) : List Char :=
  ['\\', 'u', '\x7b'] ++ Nat.toDigits 16 c.toNat ++ ['\x7d']

/-- How one character is written between the quotes. -/
def encodeChar (c : Char) : List Char :=
  match c with
  | '\x00' => ['\\', '0']
  | '\t' => ['\\', 't']
  | '\r' => ['\\', 'r']
  | '\n' => ['\\', 'n']
  | '\\' => ['\\', '\\']
  | '"' => ['\\', '"']
  | c => if isGraphemeExtend c || isUnprintable c then escapeCodePoint c else [c]

/-- The written form of a text, quotes included. -/
def encode (text : List Char) : List Char :=
  '"' :: (text.flatMap encodeChar ++ ['"'])

end DecimalScript.Text.Quoted

namespace DecimalScript.Text

/-- The quoted form of a string. -/
def quoted (text : String) : String :=
  String.ofList (Quoted.encode text.toList)

end DecimalScript.Text
