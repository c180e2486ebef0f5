/-!
# Sets of characters

A property of characters is given by the code points at which it changes, in ascending order: it
holds from the first of them up to the second, from the third up to the fourth, and so on.
-/

namespace PushOperator

/-- A set of characters, as the code points at which membership changes. -/
structure CharSet where
  changes : List Nat

/-- Whether a character is in the set: an odd number of changes lie at or below it. -/
def CharSet.contains (set : CharSet) (c : Char) : Bool :=
  (set.changes.takeWhile (· ≤ c.toNat)).length % 2 == 1

/-- The blank characters: the property White_Space of the Unicode standard. -/
def CharSet.blank : CharSet where
  changes := [0x9, 0xe, 0x20, 0x21, 0x85, 0x86, 0xa0, 0xa1, 0x1680, 0x1681, 0x2000, 0x200b,
    0x2028, 0x202a, 0x202f, 0x2030, 0x205f, 0x2060, 0x3000, 0x3001]

def Text.trimStart (s : List Char) : List Char := s.dropWhile CharSet.blank.contains

def Text.trim (s : String) : String :=
  String.ofList (Text.trimStart (Text.trimStart s.toList).reverse).reverse

end PushOperator
