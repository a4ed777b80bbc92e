/-!
# Fragment typing

How the type of an operation refers to the types of its fragments: written out in place, combined
by name, or hidden behind a reference.
-/

namespace Nomenclature

inductive FragmentTyping where
  | inline
  | combine
  | mask
  deriving DecidableEq, Repr

namespace FragmentTyping

def all : List FragmentTyping :=
  [inline, combine, mask]

def tag : FragmentTyping → String
  | inline => "inline"
  | combine => "combine"
  | mask => "mask"

/-- The name of the alternative, as a message shows it. -/
def title : FragmentTyping → String
  | inline => "INLINE"
  | combine => "COMBINE"
  | mask => "MASK"

def ofTag? (s : String) : Option FragmentTyping :=
  all.find? fun typing => typing.tag == s

end FragmentTyping

end Nomenclature
