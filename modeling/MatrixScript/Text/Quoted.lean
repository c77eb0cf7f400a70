import MatrixScript.Text.Extending
import MatrixScript.Text.Unprintable

/-! Quoted text in messages.

A quoted text stands between double quotes. The quote, the backslash and the common controls are
written with a backslash; a character that cannot be seen by itself is written by its code point
in lower-case hexadecimal.
-/

set_option autoImplicit false

namespace MatrixScript.Text

def escapeChar (c : Char) : List Char :=
  if c = '\x00' then ['\\', '0']
  else if c = '\t' then ['\\', 't']
  else if c = '\r' then ['\\', 'r']
  else if c = '\n' then ['\\', 'n']
  else if c = '"' then ['\\', '"']
  else if c = '\\' then ['\\', '\\']
  else if isExtending c || isUnprintable c then
    ['\\', 'u', '\x7b'] ++ Nat.toDigits 16 c.toNat ++ ['\x7d']
  else [c]

def quote (text : String) : String :=
  String.ofList ('"' :: text.toList.flatMap escapeChar ++ ['"'])

end MatrixScript.Text
