import Nomenclature.Decimal
import Nomenclature.Sorting.Insertion
import Nomenclature.Text.Integer
import Nomenclature.Text.Quoted

/-!
# Documents and their canonical text

A document is plain data: null, booleans, numbers, texts, arrays and objects. Its canonical text
leaves no choice: members are sorted by the code points of their keys, no blank stands between
tokens, and a text escapes only the quote, the backslash and control characters. Two documents
therefore have one text exactly when they hold the same data.
-/

namespace Nomenclature

inductive Document where
  | null
  | boolean (b : Bool)
  | integer (n : Int)
  | real (x : Binary64)
  | text (s : String)
  | array (items : List Document)
  | object (members : List (String × Document))

instance : Inhabited Document :=
  ⟨.null⟩

namespace Document

/-- Sets a member: its value is replaced where the key stands already, else it comes last. -/
def putMember (key : String) (value : Document) :
    List (String × Document) → List (String × Document)
  | [] => [(key, value)]
  | (k, v) :: rest => if k = key then (k, value) :: rest else (k, v) :: putMember key value rest

/-- The object with these members, the last value of each key. -/
def ofMembers (members : List (String × Document)) : Document :=
  .object (members.foldl (fun known member => putMember member.1 member.2 known) [])

/-- Real numbers in a canonical text. -/
def realLayout : Decimal.Layout :=
  ⟨-4, 15, 2, "Infinity", "NaN"⟩

def escapedChar (c : Char) : List Char :=
  if c = '"' then ['\\', '"']
  else if c = '\\' then ['\\', '\\']
  else if c = '\n' then ['\\', 'n']
  else if c = '\r' then ['\\', 'r']
  else if c = '\t' then ['\\', 't']
  else if c = '\x08' then ['\\', 'b']
  else if c = '\x0c' then ['\\', 'f']
  else if c.toNat < 0x20 then '\\' :: 'u' :: Text.hex 4 c.toNat
  else [c]

def textChars (s : String) : List Char :=
  '"' :: (s.toList.flatMap escapedChar ++ ['"'])

/-- Members sorted by key, each already in its canonical text. -/
def sortedMembers (members : List (String × List Char)) : List (String × List Char) :=
  sortedBy (fun a b => decide (a.1 ≤ b.1)) members

def memberChars (member : String × List Char) : List Char :=
  textChars member.1 ++ ':' :: member.2

mutual

/-- The canonical text of a document. -/
def chars : Document → List Char
  | .null => ['n', 'u', 'l', 'l']
  | .boolean true => ['t', 'r', 'u', 'e']
  | .boolean false => ['f', 'a', 'l', 's', 'e']
  | .integer n => Text.integerChars n
  | .real x => (Decimal.text realLayout x).toList
  | .text s => textChars s
  | .array items => '[' :: ([','].intercalate (itemsChars items) ++ [']'])
  | .object members =>
    '{' :: ([','].intercalate ((sortedMembers (membersChars members)).map memberChars) ++ ['}'])

def itemsChars : List Document → List (List Char)
  | [] => []
  | item :: rest => item.chars :: itemsChars rest

def membersChars : List (String × Document) → List (String × List Char)
  | [] => []
  | (key, value) :: rest => (key, value.chars) :: membersChars rest

end

def canonical (d : Document) : String :=
  String.ofList d.chars

end Document

end Nomenclature
