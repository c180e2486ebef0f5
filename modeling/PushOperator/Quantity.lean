import PushOperator.Error
import PushOperator.Kubernetes.Pod

/-!
# Quantities

A quantity is a text such as `512Mi`, `250m`, `1.5` or `1e3`: an optional sign, digits with at most
one dot, and a suffix. Quantities are checked but never brought into another form.

Container resources are layered: what a server asks for lies over the settings of the operator, key
by key.
-/

namespace PushOperator

namespace Quantity

/-- The suffixes that stand for a power of ten or two. -/
def suffixes : List String :=
  ["Ki", "Mi", "Gi", "Ti", "Pi", "Ei", "n", "u", "m", "k", "M", "G", "T", "P", "E"]

def unsigned : List Char → List Char
  | '+' :: rest | '-' :: rest => rest
  | s => s

/-- Whether digits with at most one dot stand on their own as a number. -/
def isNumber (s : List Char) : Bool :=
  s.any Char.isDigit && s.all (fun c => c.isDigit || c == '.') && s.count '.' ≤ 1

/-- Whether a suffix is an exponent: `e` or `E`, an optional sign, and digits. -/
def isExponent : List Char → Bool
  | 'e' :: rest | 'E' :: rest =>
    let digits := unsigned rest
    !digits.isEmpty && digits.all Char.isDigit
  | _ => false

def isSuffix (s : List Char) : Bool :=
  s.isEmpty || suffixes.contains (String.ofList s) || isExponent s

def isValid (text : String) : Bool :=
  let s := unsigned text.toList
  let inNumber (c : Char) : Bool := c.isDigit || c == '.'
  isNumber (s.takeWhile inNumber) && isSuffix (s.dropWhile inNumber)

/-- The quantity a text stands for, which is the text itself. -/
def parse (text : String) : Except Error String :=
  if isValid text then .ok text
  else .error (.configuration ("quantity " ++ Text.quoted text ++ " is not valid"))

end Quantity

/-- What a container gets unless its server asks for something else. -/
structure ResourceDefaults where
  memoryLimit : String
  memoryRequest : String
  cpuLimit : String
  cpuRequest : String
  deriving DecidableEq, Inhabited

namespace ResourceDefaults

def quantities (d : ResourceDefaults) : List String :=
  [d.memoryLimit, d.memoryRequest, d.cpuLimit, d.cpuRequest]

end ResourceDefaults

namespace ResourceRequirements

/-- Adds a default where there is no value yet. -/
def fillIn (layered : Dict String) (key default : String) : Except Error (Dict String) :=
  if layered.contains key then .ok layered
  else return layered.insert key (← Quantity.parse default)

/-- The overrides with the defaults for memory and CPU filled in. All of them have to be quantities,
a default only where it is needed. -/
def layer (overrides : Option (Dict String)) (memory cpu : String) :
    Except Error (Dict String) := do
  let entries ← ((overrides.getD ∅).entries).mapM fun (key, text) =>
    return (key, ← Quantity.parse text)
  let layered ← fillIn (Dict.ofList entries) "memory" memory
  fillIn layered "cpu" cpu

/-- The resources of a container: the overrides over the defaults. -/
def layered (overrides : Option ResourceRequirements) (defaults : ResourceDefaults) :
    Except Error ResourceRequirements := do
  let limits ← layer (overrides.bind (·.limits)) defaults.memoryLimit defaults.cpuLimit
  let requests ← layer (overrides.bind (·.requests)) defaults.memoryRequest defaults.cpuRequest
  return { limits := some limits, requests := some requests }

end ResourceRequirements

end PushOperator
