/-!
# Text for a terminal

A text that is shown on a terminal may hold control sequences, which move the cursor or set colours.
The plain text is what is left without them: they are recognised by a machine that takes one
character at a time, and all other control characters but blanks are dropped, too.
-/

namespace PushOperator.Text.Terminal

/-- What the machine is in the middle of. Control sequences start with an escape and a bracket, and
have parameters and intermediate characters before the final one; a string that is sent to the
terminal is a command, or the same with parameters in front, or free text. -/
inductive Mode where
  | plain
  | escape
  | escapeIntermediate
  | control
  | controlParameters
  | controlIntermediate
  | controlIgnored
  | device
  | deviceParameters
  | deviceIntermediate
  | deviceText
  | command
  | freeText
  deriving DecidableEq

/-- Whether a control character is a blank, which is shown. -/
def isBlank (c : Char) : Bool := c ∈ ['\t', '\n', '\x0c', '\r']

/-- Whether a blank is shown, and ends what the machine is in the middle of: not inside a string
that is sent to the terminal. -/
def Mode.showsBlanks : Mode → Bool
  | plain | escape | escapeIntermediate | control | controlParameters | controlIntermediate
  | controlIgnored => true
  | device | deviceParameters | deviceIntermediate | deviceText | command | freeText => false

def afterEscape (c : Char) : Mode :=
  match c with
  | '[' => .control
  | ']' => .command
  | 'P' => .device
  | 'X' | '^' | '_' => .freeText
  | c => if c < '0' then .escapeIntermediate else .plain

/-- The mode after a visible character in the middle of a sequence. -/
def afterVisible (mode : Mode) (c : Char) : Mode :=
  let isIntermediate := c < '0'
  let isParameter := '0' ≤ c && c < '@'
  let isPrivate := '<' ≤ c && c < '@'
  match mode with
  | .plain => .plain
  | .escape => afterEscape c
  | .escapeIntermediate => if isIntermediate then .escapeIntermediate else .plain
  | .control =>
    if isIntermediate then .controlIntermediate
    else if isParameter then .controlParameters else .plain
  | .controlParameters =>
    if isIntermediate then .controlIntermediate
    else if isPrivate then .controlIgnored
    else if isParameter then .controlParameters else .plain
  | .controlIntermediate =>
    if isIntermediate then .controlIntermediate
    else if isParameter then .controlIgnored else .plain
  | .controlIgnored => if isIntermediate || isParameter then .controlIgnored else .plain
  | .device =>
    if isIntermediate then .deviceIntermediate
    else if isParameter then .deviceParameters else .deviceText
  | .deviceParameters =>
    if isIntermediate then .deviceIntermediate
    else if isPrivate then .deviceText
    else if isParameter then .deviceParameters else .deviceText
  | .deviceIntermediate => if isIntermediate then .deviceIntermediate else .deviceText
  | .deviceText => .deviceText
  | .command => .command
  | .freeText => .freeText

/-- Whether the byte that ends a string to the terminal is among those of a character. -/
def holdsTerminator (c : Char) : Bool := (String.singleton c).toUTF8.data.contains 0x9c

/-- The mode after a character beyond ASCII in the middle of a sequence. -/
def afterForeign (mode : Mode) (c : Char) : Mode :=
  match mode with
  | .deviceText | .freeText => if holdsTerminator c then .plain else mode
  | mode => mode

/-- One character: the mode after it, and whether it is shown. -/
def step (mode : Mode) (c : Char) : Mode × Bool :=
  if c = '\x1b' then (.escape, false)
  else if c = '\x18' ∨ c = '\x1a' then (.plain, false)
  else if mode.showsBlanks ∧ isBlank c then (.plain, true)
  else if mode = .command ∧ c = '\x07' then (.plain, false)
  else if c < ' ' ∨ c = '\x7f' then (mode, false)
  else if mode = .plain then (.plain, true)
  else if c < '\x7f' then (afterVisible mode c, false)
  else (afterForeign mode c, false)

def shown : Mode → List Char → List Char
  | _, [] => []
  | mode, c :: rest =>
    let (mode, isShown) := step mode c
    if isShown then c :: shown mode rest else shown mode rest

/-- The plain text, without control sequences. -/
def plainText (s : String) : String := String.ofList (shown .plain s.toList)

end PushOperator.Text.Terminal
