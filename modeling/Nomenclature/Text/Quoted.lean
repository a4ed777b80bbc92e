import Nomenclature.Text.Printable

/-!
# Quoted texts

How a message shows a text: between apostrophes, or between double quotes if the text holds an
apostrophe and no double quote. The mark itself and the backslash are escaped, line ends and tabs
have short escapes, and every other character that does not print is written by its code point.
-/

namespace Nomenclature.Text

/-- The last `width` hexadecimal digits of a number, lower case, zeros in front. -/
def hex : Nat → Nat → List Char
  | 0, _ => []
  | width + 1, n => hex width (n / 16) ++ [Nat.digitChar (n % 16)]

/-- The mark that stands at both ends of a quoted text. -/
def quoteMark (cs : List Char) : Char :=
  if cs.contains '\'' && !cs.contains '"' then '"' else '\''

/-- The code point of a character, in the shortest of the three escaped forms that holds it. -/
def codeEscape (c : Char) : List Char :=
  if c.toNat < 0x100 then '\\' :: 'x' :: hex 2 c.toNat
  else if c.toNat < 0x10000 then '\\' :: 'u' :: hex 4 c.toNat
  else '\\' :: 'U' :: hex 8 c.toNat

def quotedChar (mark c : Char) : List Char :=
  if c = mark || c = '\\' then ['\\', c]
  else if c = '\n' then ['\\', 'n']
  else if c = '\r' then ['\\', 'r']
  else if c = '\t' then ['\\', 't']
  else if isPrintable c then [c]
  else codeEscape c

def quotedChars (cs : List Char) : List Char :=
  let mark := quoteMark cs
  mark :: (cs.flatMap (quotedChar mark) ++ [mark])

def quoted (s : String) : String :=
  String.ofList (quotedChars s.toList)

/-- Bytes between the same marks, printable ASCII as itself and all else by its code. -/
def quotedBytes (bytes : List UInt8) : String :=
  let cs := bytes.map fun byte => Char.ofNat byte.toNat
  let mark := quoteMark cs
  let shown (c : Char) :=
    if c.toNat < 0x7F then quotedChar mark c else codeEscape c
  String.ofList ('b' :: mark :: (cs.flatMap shown ++ [mark]))

end Nomenclature.Text
