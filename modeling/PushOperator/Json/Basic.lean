import PushOperator.Dict

/-!
# JSON values

Resources travel as JSON. A whole number and a number with a fraction or an exponent are different
things here: a counter is read from the first only, and the second is kept as the text of a double.

A document as it was written may hold more than its value: fields may be repeated or stand in any
order, and parts of it may be well formed but mean nothing. Whoever skips such a part is not
bothered by it. In a value the fields of every object have different names and stand in ascending
order of these, so equal values are equal documents, and every part of it can be read.
-/

namespace PushOperator

inductive Json where
  | null
  | bool (b : Bool)
  | int (n : Int)
  | real (text : String)
  | string (s : String)
  | array (items : List Json)
  | object (fields : List (String × Json))
  /-- A part that is well formed but can not be read: a text with half a surrogate pair, a number
  out of range, an object with such a text for a name, or an array or object that is nested too
  deep. -/
  | unreadable
  deriving Inhabited

abbrev Fields := List (String × Json)

namespace Json

/-! ## Equality -/

mutual

def decEq : (a b : Json) → Decidable (a = b)
  | .null, b => match b with
    | .null => isTrue rfl
    | .bool _ | .int _ | .real _ | .string _ | .array _ | .object _ | .unreadable => isFalse nofun
  | .unreadable, b => match b with
    | .unreadable => isTrue rfl
    | .null | .bool _ | .int _ | .real _ | .string _ | .array _ | .object _ => isFalse nofun
  | .bool x, b => match b with
    | .bool y => if h : x = y then isTrue (h ▸ rfl) else isFalse fun e => by cases e; exact h rfl
    | .null | .int _ | .real _ | .string _ | .array _ | .object _ | .unreadable => isFalse nofun
  | .int x, b => match b with
    | .int y => if h : x = y then isTrue (h ▸ rfl) else isFalse fun e => by cases e; exact h rfl
    | .null | .bool _ | .real _ | .string _ | .array _ | .object _ | .unreadable => isFalse nofun
  | .real x, b => match b with
    | .real y => if h : x = y then isTrue (h ▸ rfl) else isFalse fun e => by cases e; exact h rfl
    | .null | .bool _ | .int _ | .string _ | .array _ | .object _ | .unreadable => isFalse nofun
  | .string x, b => match b with
    | .string y => if h : x = y then isTrue (h ▸ rfl) else isFalse fun e => by cases e; exact h rfl
    | .null | .bool _ | .int _ | .real _ | .array _ | .object _ | .unreadable => isFalse nofun
  | .array x, b => match b with
    | .array y => match decEqItems x y with
      | isTrue h => isTrue (h ▸ rfl)
      | isFalse h => isFalse fun e => by cases e; exact h rfl
    | .null | .bool _ | .int _ | .real _ | .string _ | .object _ | .unreadable => isFalse nofun
  | .object x, b => match b with
    | .object y => match decEqFields x y with
      | isTrue h => isTrue (h ▸ rfl)
      | isFalse h => isFalse fun e => by cases e; exact h rfl
    | .null | .bool _ | .int _ | .real _ | .string _ | .array _ | .unreadable => isFalse nofun

def decEqItems : (a b : List Json) → Decidable (a = b)
  | [], [] => isTrue rfl
  | [], _ :: _ => isFalse nofun
  | _ :: _, [] => isFalse nofun
  | x :: xs, y :: ys => match decEq x y, decEqItems xs ys with
    | isTrue h, isTrue h' => isTrue (h ▸ h' ▸ rfl)
    | isFalse h, _ => isFalse fun e => h (List.cons.inj e).1
    | _, isFalse h => isFalse fun e => h (List.cons.inj e).2

def decEqFields : (a b : List (String × Json)) → Decidable (a = b)
  | [], [] => isTrue rfl
  | [], _ :: _ => isFalse nofun
  | _ :: _, [] => isFalse nofun
  | (k, x) :: xs, (l, y) :: ys => match decEq x y, decEqFields xs ys with
    | isTrue h, isTrue h' =>
      if hk : k = l then isTrue (h ▸ h' ▸ hk ▸ rfl)
      else isFalse fun e => hk (Prod.mk.inj (List.cons.inj e).1).1
    | isFalse h, _ => isFalse fun e => h (Prod.mk.inj (List.cons.inj e).1).2
    | _, isFalse h => isFalse fun e => h (List.cons.inj e).2

end

instance : DecidableEq Json := decEq

/-! ## Parts of a value -/

def fields? : Json → Option Fields
  | .object fields => some fields
  | _ => none

def items? : Json → Option (List Json)
  | .array items => some items
  | _ => none

def string? : Json → Option String
  | .string s => some s
  | _ => none

def bool? : Json → Option Bool
  | .bool b => some b
  | _ => none

def int? : Json → Option Int
  | .int n => some n
  | _ => none

def get? (j : Json) (name : String) : Option Json := j.fields?.bind (List.lookup name)

/-- The field of an object called `name`, where a field that is null counts as absent. -/
def present? (j : Json) (name : String) : Option Json := (j.get? name).filter (· ≠ .null)

/-- The object of the given fields, in ascending order; of two with one name the later wins. -/
def ofFields (fields : Fields) : Json := .object (Dict.ofList fields).entries

/-! ## The value of a document -/

mutual

/-- The value that a document stands for, if all of it can be read. -/
def value? : Json → Option Json
  | .array items => (valueItems? items).map .array
  | .object fields => (valueFields? fields).map ofFields
  | .unreadable => none
  | .null => some .null
  | .bool b => some (.bool b)
  | .int n => some (.int n)
  | .real text => some (.real text)
  | .string s => some (.string s)

def valueItems? : List Json → Option (List Json)
  | [] => some []
  | item :: rest => do return (← value? item) :: (← valueItems? rest)

def valueFields? : List (String × Json) → Option Fields
  | [] => some []
  | (name, j) :: rest => do return (name, ← value? j) :: (← valueFields? rest)

end

end Json

end PushOperator
