import Nomenclature.Text.CaseTable

/-!
# Upper and lower case of a text

Full case mapping, character by character. A character may become several (`ß` in upper case is
`SS`), and one mapping looks at its neighbours: a capital sigma becomes `ς` where a word ends and
`σ` elsewhere. The mapping of a text therefore carries along whether a letter came before.
-/

namespace Nomenclature.Text

def isCased (c : Char) : Bool :=
  casedRanges.holds c

def isCaseIgnorable (c : Char) : Bool :=
  caseIgnorableRanges.holds c

/-- The counterpart of a character outside ASCII: its expansion if it has one, else the image of
the run that covers it, else the character itself. -/
def counterpart (expansions : List (Nat × List Nat)) (runs : List CaseRun) (c : Char) : List Char :=
  match expansions.lookup c.toNat with
  | some codes => codes.map Char.ofNat
  | none =>
    match runs.find? fun run => run.covers c.toNat with
    | some run => [Char.ofNat (run.image c.toNat)]
    | none => [c]

def upperChar (c : Char) : List Char :=
  if c.toNat < 128 then [c.toUpper] else counterpart upperExpansions upperRuns c

def lowerChar (c : Char) : List Char :=
  if c.toNat < 128 then [c.toLower] else counterpart lowerExpansions lowerRuns c

def upperChars (cs : List Char) : List Char :=
  cs.flatMap upperChar

/-- Whether a letter comes next, characters that ignore case passed over. -/
def letterFollows : List Char → Bool
  | [] => false
  | c :: rest => if isCaseIgnorable c then letterFollows rest else isCased c

/-- Whether a letter precedes what comes after `c`, given whether one precedes `c`. -/
def letterPrecedes (before : Bool) (c : Char) : Bool :=
  if isCaseIgnorable c then before else isCased c

/-- Lower case of a text that stands after a letter or not. -/
def lowerAfter (before : Bool) : List Char → List Char
  | [] => []
  | c :: rest =>
    let here :=
      if c = 'Σ' then [if before && !letterFollows rest then 'ς' else 'σ'] else lowerChar c
    here ++ lowerAfter (letterPrecedes before c) rest

def lowerChars (cs : List Char) : List Char :=
  lowerAfter false cs

def upper (s : String) : String :=
  String.ofList (upperChars s.toList)

def lower (s : String) : String :=
  String.ofList (lowerChars s.toList)

end Nomenclature.Text
