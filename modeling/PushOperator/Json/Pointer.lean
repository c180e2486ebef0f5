import PushOperator.Json.Basic

/-!
# JSON pointers

A pointer names a place inside a value by the field names and item numbers on the way to it, as in
`/spec/template/spec/containers/0/image`.
-/

namespace PushOperator.Json

/-- Undoes the escapes of a pointer's part: `~1` is a slash and `~0` a tilde. -/
def unescapePart : List Char → List Char
  | '~' :: '1' :: rest => '/' :: unescapePart rest
  | '~' :: '0' :: rest => '~' :: unescapePart rest
  | c :: rest => c :: unescapePart rest
  | [] => []

def pointerParts (pointer : String) : List String :=
  (pointer.splitOn "/").tail.map fun part => String.ofList (unescapePart part.toList)

/-- The item number that a part stands for: decimal digits without a needless zero in front. -/
def itemNumber? (part : String) : Option Nat :=
  if part = "0" then some 0
  else if part.toList.head? = some '0' || !part.toList.all Char.isDigit then none
  else part.toNat?

/-- Puts `value` at the place reached from a value by `parts`. An absent or null value on the way
becomes an object. A place in an array that has no such item, or in a text, number or truth value,
can not be reached. -/
def set? (value : Json) : List String → Json → Option Json
  | [], _ => some value
  | part :: parts, .array items => do
    let i ← itemNumber? part
    return .array (items.set i (← set? value parts (← items[i]?)))
  | part :: parts, .object fields => do
    let inner ← set? value parts ((fields.lookup part).getD .null)
    return .object (Dict.insertEntry part inner fields)
  | part :: parts, .null => do return .object [(part, ← set? value parts .null)]
  | _ :: _, _ => none

end PushOperator.Json
