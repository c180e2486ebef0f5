import PushOperator.Settings
import PushOperator.Text.Terminal

/-!
# The command line

Every setting can be given as an option of the command line or as a variable of the environment; the
command line counts more. An option takes one value, either after an equals sign or as the next
argument, and only the namespaces may be given more than once.

Arguments are taken one at a time. The value of an option that stands as an argument of its own is
settled only when the next option or the end is reached, so a fault in a later argument may be found
before the fault in that value.
-/

namespace PushOperator

/-! ## Settings by name -/

inductive Setting where
  | text (setting : TextSetting)
  | namespaces
  | limit

namespace Setting

def all : List Setting := TextSetting.all.map text ++ [namespaces, limit]

def key : Setting → String
  | text setting => setting.key
  | namespaces => "service_namespace"
  | limit => "max_concurrent_reconciles"

/-- The option for a setting, without the two hyphens in front. -/
def option (s : Setting) : String :=
  String.ofList (s.key.toList.map fun c => if c = '_' then '-' else c)

def variableName (s : Setting) : String := String.ofList (s.key.toList.map Char.toUpper)

/-- The option for a setting with the name of its value. -/
def usage (s : Setting) : String := "--" ++ s.option ++ " <" ++ s.variableName ++ ">"

def ofOption? (option : String) : Option Setting := all.find? (·.option == option)

def isRepeatable : Setting → Bool
  | namespaces => true
  | text _ | limit => false

end Setting

/-! ## Errors -/

inductive CountError where
  | empty
  | badDigit
  | tooLarge
  deriving DecidableEq

def CountError.message : CountError → String
  | empty => "cannot parse integer from empty string"
  | badDigit => "invalid digit found in string"
  | tooLarge => "number too large to fit in target type"

inductive CommandLineError where
  /-- There is no such option, or an argument stands where none is expected. -/
  | unknownArgument (argument : String)
  | missingValue (usage : String)
  | repeated (usage : String)
  | invalidValue (usage value : String) (cause : CountError)
  | unexpectedValue (option value : String)
  | versionRequested
  | helpRequested
  deriving DecidableEq

/-- What the user has typed, as messages show it. -/
def CommandLineError.quoted (s : String) : String := "'" ++ Text.Terminal.plainText s ++ "'"

def CommandLineError.message : CommandLineError → String
  | unknownArgument argument => "error: unexpected argument " ++ quoted argument ++ " found"
  | missingValue usage => "error: a value is required for '" ++ usage ++ "' but none was supplied"
  | repeated usage => "error: the argument '" ++ usage ++ "' cannot be used multiple times"
  | invalidValue usage value cause =>
    "error: invalid value " ++ quoted value ++ " for '" ++ usage ++ "': " ++ cause.message
  | unexpectedValue option value =>
    "error: unexpected value " ++ quoted value ++ " for '--" ++ option ++
      "' found; no more were expected"
  | versionRequested => "unifiedpush-operator 0.1.0"
  | helpRequested => "Kubernetes Operator for UnifiedPush servers"

/-! ## Values -/

/-- A count that fits into 64 bits: decimal digits, with or without a plus sign. -/
def parseCount (text : String) : Except CountError Nat :=
  match text.toList with
  | [] => .error .empty
  | '+' :: c :: rest => digits (c :: rest)
  | s => digits s
where
  /-- The value of digits, which are looked at from left to right. -/
  digits (s : List Char) : Except CountError Nat :=
    s.foldlM (fun n c =>
      if !c.isDigit then .error .badDigit
      else
        let n := 10 * n + (c.toNat - '0'.toNat)
        if n < UInt64.size then .ok n else .error .tooLarge) 0

/-- Gives a setting a value. Namespaces are separated by commas and add up. -/
def Setting.assign (value : String) (s : Settings) : Setting → Except CommandLineError Settings
  | text setting => .ok (setting.set value s)
  | namespaces => .ok { s with serviceNamespace := s.serviceNamespace ++ value.splitOn "," }
  | limit => match parseCount value with
    | .ok n => .ok { s with maxConcurrentReconciles := n }
    | .error cause => .error (.invalidValue limit.usage value cause)

/-! ## Arguments -/

inductive Argument where
  /-- Two hyphens alone: no options follow. -/
  | endOfOptions
  /-- Two hyphens and a name, and maybe an equals sign and a value. -/
  | option (name : String) (value : Option String)
  /-- One hyphen and letters, of which only the first matters. -/
  | letter (c : Char)
  | plain

def Argument.ofText (text : String) : Argument :=
  match text.toList with
  | ['-', '-'] => endOfOptions
  | '-' :: '-' :: rest =>
    let name := String.ofList (rest.takeWhile (· ≠ '='))
    match rest.dropWhile (· ≠ '=') with
    | _ :: value => option name (some (String.ofList value))
    | [] => option name none
  | '-' :: c :: _ => letter c
  | _ => plain

/-- How far the arguments are read: the settings so far, the keys of those that were given, the
option whose value is not settled yet, with the value if it has one, and whether options are
over. -/
structure Parsing where
  settings : Settings := {}
  given : List String := []
  unsettled : Option (Setting × Option String) := none
  optionsOver : Bool := false

namespace Parsing

/-- Gives a setting a value, unless it has one that must not be given again. -/
def give (p : Parsing) (s : Setting) (value : String) : Except CommandLineError Parsing := do
  if p.given.contains s.key && !s.isRepeatable then throw (.repeated s.usage)
  return { p with settings := ← s.assign value p.settings, given := s.key :: p.given }

/-- Settles the option that is not settled yet. -/
def settle (p : Parsing) : Except CommandLineError Parsing :=
  match p.unsettled with
  | none => .ok p
  | some (s, none) => .error (.missingValue s.usage)
  | some (s, some value) => give { p with unsettled := none } s value

/-- Takes an option that is no setting: it ends the reading, once all before it is settled. -/
def demand (p : Parsing) (demanded : CommandLineError) (option : String) :
    Option String → Except CommandLineError Parsing
  | some value => .error (.unexpectedValue option value)
  | none => do
    let _ ← p.settle
    throw demanded

def step (p : Parsing) (text : String) : Except CommandLineError Parsing :=
  if p.optionsOver then .error (.unknownArgument text)
  else match Argument.ofText text with
    | .endOfOptions => .ok { p with optionsOver := true }
    | .option "version" value => p.demand .versionRequested "version" value
    | .option "help" value => p.demand .helpRequested "help" value
    | .letter 'V' => p.demand .versionRequested "version" none
    | .letter 'h' => p.demand .helpRequested "help" none
    | .letter c => .error (.unknownArgument (String.ofList ['-', c]))
    | .option name value =>
      match Setting.ofOption? name, value with
      | none, _ => .error (.unknownArgument ("--" ++ name))
      | some s, some value => do (← p.settle).give s value
      | some s, none => return { ← p.settle with unsettled := some (s, none) }
    | .plain =>
      match p.unsettled with
      | some (s, none) => .ok { p with unsettled := some (s, some text) }
      | _ => .error (.unknownArgument text)

/-- Takes a setting from the environment, unless it was given. -/
def fromEnvironment (environment : String → Option String) (p : Parsing) (s : Setting) :
    Except CommandLineError Parsing :=
  if p.given.contains s.key then .ok p
  else match environment s.variableName with
    | some value => p.give s value
    | none => .ok p

end Parsing

def Settings.parse (arguments : List String) (environment : String → Option String) :
    Except CommandLineError Settings := do
  let p ← (← arguments.foldlM Parsing.step {}).settle
  return (← Setting.all.foldlM (Parsing.fromEnvironment environment) p).settings

end PushOperator
