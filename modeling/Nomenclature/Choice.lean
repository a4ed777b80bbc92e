import Nomenclature.FragmentTyping
import Nomenclature.Node

/-!
# Choices

A choice is one alternative of an enumeration: how fragments are typed, what category a name belongs
to, what a name is used for, or what kind of block is declared. Every choice is a text as well,
namely its tag, and may stand wherever that text may. Only a message tells the two apart: it shows a
choice by its enumeration and its title there.
-/

namespace Nomenclature

/-- What a derived name is used for. -/
inductive NameUse where
  | type
  | enumValue
  | fragment
  | fragmentVariable
  | operation
  deriving DecidableEq, Repr

namespace NameUse

def tag : NameUse → String
  | type => "type"
  | enumValue => "enumValue"
  | fragment => "fragment"
  | fragmentVariable => "fragmentVariable"
  | operation => "operation"

/-- The name of the use, as a message shows it. -/
def title : NameUse → String
  | type => "TYPE"
  | enumValue => "ENUM_VALUE"
  | fragment => "FRAGMENT"
  | fragmentVariable => "FRAGMENT_VARIABLE"
  | operation => "OPERATION"

def ofTag? (s : String) : Option NameUse :=
  [type, enumValue, fragment, fragmentVariable, operation].find? fun use => use.tag == s

end NameUse

/-- A declaration block whose closing punctuation may be customised. -/
inductive BlockKind where
  | type
  | input
  | interface
  | arguments
  deriving DecidableEq, Repr

namespace BlockKind

def tag : BlockKind → String
  | type => "type"
  | input => "input"
  | interface => "interface"
  | arguments => "arguments"

/-- The name of the kind, as a message shows it. -/
def title : BlockKind → String
  | type => "TYPE"
  | input => "INPUT"
  | interface => "INTERFACE"
  | arguments => "ARGUMENTS"

def ofTag? (s : String) : Option BlockKind :=
  [type, input, interface, arguments].find? fun kind => kind.tag == s

end BlockKind

inductive Choice where
  | typing (mode : FragmentTyping)
  | category (c : NameCategory)
  | use (u : NameUse)
  | block (kind : BlockKind)
  deriving DecidableEq, Repr

namespace Choice

/-- The text that a choice is. -/
def tag : Choice → String
  | typing mode => mode.tag
  | category c => c.tag
  | use u => u.tag
  | block kind => kind.tag

/-- The name of a choice within its enumeration. -/
def title : Choice → String
  | typing mode => mode.title
  | category c => c.title
  | use u => u.title
  | block kind => kind.title

/-- The name of the enumeration that a choice belongs to. -/
def enumeration : Choice → String
  | typing _ => "InlineFragmentTypes"
  | category _ => "NameCategory"
  | use _ => "NameKind"
  | block _ => "DeclarationKind"

theorem tag_ne_empty (c : Choice) : c.tag ≠ "" := by
  cases c with
  | typing mode => cases mode <;> decide
  | category c => cases c <;> decide
  | use u => cases u <;> decide
  | block kind => cases kind <;> decide

end Choice

end Nomenclature
