import PushOperator.Text.CaseTable

/-!
# Lower case

Lower case after the Unicode standard: letter by letter, with two exceptions. A capital I with a dot
becomes two characters, and a capital sigma at the end of a word takes its final form.
-/

namespace PushOperator.Text

def lowerChar (c : Char) : List Char :=
  if c = '\u0130' then ['i', '\u0307']
  else match CaseRange.all.find? (·.contains c) with
    | some range => [Char.ofNat (c.toNat + range.shift).toNat]
    | none => [c]

/-- Whether the nearest character that counts is a letter with case. -/
def meetsLetter (s : List Char) : Bool :=
  (s.dropWhile CharSet.caseIgnorable.contains).head?.any CharSet.cased.contains

/-- Lower case of the rest of a text; the characters before it stand in reverse. -/
def lowerAfter (before : List Char) : List Char → List Char
  | [] => []
  | c :: rest =>
    let lower :=
      if c = 'Σ' then [if meetsLetter before && !meetsLetter rest then 'ς' else 'σ']
      else lowerChar c
    lower ++ lowerAfter (c :: before) rest

def lower (s : String) : String := String.ofList (lowerAfter [] s.toList)

end PushOperator.Text
