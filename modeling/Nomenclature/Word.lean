import Nomenclature.Text.Case

/-!
# Words of an identifier

An identifier is read as a list of words. Only ASCII letters and digits belong to words; any other
character separates. Inside a run of letters and digits a word ends in two places: where a lower
case letter or a digit meets an upper case letter (`getUser`), and before the last capital of an
acronym that a lower case letter follows (`HTTPServer`). Both kinds of end are first marked with a
blank, so that one split at separators yields the words. A pass takes the letters that it divides
together and goes on behind them.
-/

namespace Nomenclature.Word

def isWordChar (c : Char) : Bool :=
  c.isUpper || c.isLower || c.isDigit

/-- Puts a blank where a lower case letter or digit meets an upper case letter. -/
def markHumps : List Char → List Char
  | [] => []
  | [c] => [c]
  | c :: d :: rest =>
    if (c.isLower || c.isDigit) && d.isUpper then c :: ' ' :: d :: markHumps rest
    else c :: markHumps (d :: rest)

/-- Puts a blank before the capital that begins a word after an acronym. -/
def markAcronyms : List Char → List Char
  | [] => []
  | [c] => [c]
  | [c, d] => [c, d]
  | c :: d :: e :: rest =>
    if c.isUpper && d.isUpper && e.isLower then c :: ' ' :: d :: e :: markAcronyms rest
    else c :: markAcronyms (d :: e :: rest)

def ofChars (cs : List Char) : List (List Char) :=
  ((markAcronyms (markHumps cs)).splitOnP fun c => !isWordChar c).filter fun word => !word.isEmpty

/-- The words of an identifier, in order. -/
def ofText (s : String) : List String :=
  (ofChars s.toList).map String.ofList

end Nomenclature.Word
