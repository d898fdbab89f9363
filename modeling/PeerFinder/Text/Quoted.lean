import PeerFinder.Text.Numeral
import PeerFinder.Text.Unprintable

/-!
# Quoted text in messages

A text between double quotes. Quotes and backslashes are escaped by a backslash, tab, line feed,
carriage return, and the null character have escapes of their own, and every other character
without a visible form is written as its code point in braces.
-/

namespace PeerFinder.Text.Quoted

/-- The written form of one character inside the quotes. -/
def escape (character : Char) : List Char :=
  match character with
  | '\x00' => ['\\', '0']
  | '\t' => ['\\', 't']
  | '\n' => ['\\', 'n']
  | '\r' => ['\\', 'r']
  | '"' => ['\\', '"']
  | '\\' => ['\\', '\\']
  | other =>
      if Unprintable.isUnprintable other then
        ['\\', 'u', '\x7b'] ++ Numeral.ofNat 16 other.toNat ++ ['\x7d']
      else [other]

/-- A text between quotes, with its escapes. -/
def quote (text : String) : String :=
  String.ofList ('"' :: text.toList.flatMap escape ++ ['"'])

end PeerFinder.Text.Quoted
