/-!
# Log text

A log line may carry a title or a path, and these may hold any character. Lines after the first
are indented, so that they cannot pass for lines of their own. Control characters and the
sequences by which a text steers a terminal are taken out, as the terminal that the log goes to
filters them; blanks and line ends stay.
-/
namespace Handheld.Text

/-- Indents every line after the first. -/
def indent : List Char → List Char
  | [] => []
  | '\n' :: rest => '\n' :: ' ' :: ' ' :: ' ' :: ' ' :: indent rest
  | c :: rest => c :: indent rest

/-- The codes by which a text steers a terminal: an escape, one that takes a further character, a
control sequence, a command that a bell ends, and a string for a device. The string of a device
control has a heading: its first character, its parameters, and the marks after them. -/
inductive Code where
  | escape | longEscape | sequence | command
  | heading | parameters | marks | string
  deriving DecidableEq, Repr

/-- Where a scan stands: in plain text, inside a code, or in text that a blank has let through in
the middle of a code. -/
inductive Scan where
  | plain
  | inside (code : Code)
  | aside (code : Code)
  deriving DecidableEq, Repr

/-- Blanks and line ends. -/
def isLayout (c : Char) : Bool := c = '\t' || c = '\n' || c = '\x0c' || c = '\r'

/-- The characters that plain text keeps. -/
def isShown (c : Char) : Bool := isLayout c || (' ' ≤ c && c != '\x7f')

/-- Whether the byte that ends a string occurs in the encoding of a character. -/
def endsString (c : Char) : Bool :=
  let n := c.toNat
  (0x80 ≤ n && n % 64 = 0x1c) || (0x800 ≤ n && n / 64 % 64 = 0x1c) ||
    (0x10000 ≤ n && n / 4096 % 64 = 0x1c)

namespace Code

/-- Whether a blank inside the code is shown. -/
def showsLayout : Code → Bool
  | escape | longEscape | sequence => true
  | command | heading | parameters | marks | string => false

def afterEscape (c : Char) : Scan :=
  if c = '[' then .inside sequence
  else if c = ']' then .inside command
  else if c = 'P' then .inside heading
  else if c = 'X' ∨ c = '^' ∨ c = '_' then .inside string
  else if ' ' ≤ c ∧ c ≤ '/' then .inside longEscape
  else if '0' ≤ c ∧ c ≤ '~' then .plain
  else .inside escape

/-- After a character in the heading of a device control. A parameter with a private sign, if it is
not the first, and a parameter after a mark make the rest a string that is not obeyed. -/
def inHeading (code : Code) (c : Char) : Scan :=
  if '@' ≤ c ∧ c ≤ '~' then .inside string
  else if ' ' ≤ c ∧ c ≤ '/' then .inside marks
  else if '0' ≤ c ∧ c ≤ ';' then .inside (if code = marks then string else parameters)
  else if '<' ≤ c ∧ c ≤ '?' then .inside (if code = heading then parameters else string)
  else .inside code

/-- The state after a character that a code takes up. Those without a meaning in it are passed
over. -/
def next (code : Code) (c : Char) : Scan :=
  match code with
  | escape => afterEscape c
  | longEscape => if '0' ≤ c ∧ c ≤ '~' then .plain else .inside longEscape
  | sequence => if '@' ≤ c ∧ c ≤ '~' then .plain else .inside sequence
  | command => if c = '\x07' then .plain else .inside command
  | heading | parameters | marks => inHeading code c
  | string => if endsString c then .plain else .inside string

end Code

/-- Whether a character stays, and the state after it. Cancel, substitute and escape are heeded in
every state. A blank inside an escape or a control sequence is shown, and so is the text after it,
until a control character takes the code up again. A character beyond ASCII in that text drops the
code. -/
def Scan.step (scan : Scan) (c : Char) : Bool × Scan :=
  if c = '\x18' ∨ c = '\x1a' then (false, plain)
  else if c = '\x1b' then (false, inside .escape)
  else
    match scan with
    | plain => (isShown c, plain)
    | inside code =>
      if code.showsLayout && isLayout c then (true, aside code) else (false, code.next c)
    | aside code =>
      if isShown c then (true, if c ≤ '\x7f' then aside code else plain) else (false, inside code)

def cleanFrom (scan : Scan) : List Char → List Char
  | [] => []
  | c :: rest =>
    match scan.step c with
    | (true, scan) => c :: cleanFrom scan rest
    | (false, scan) => cleanFrom scan rest

def clean (text : List Char) : List Char := cleanFrom .plain text

end Handheld.Text
