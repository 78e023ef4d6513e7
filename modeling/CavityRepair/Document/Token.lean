import CavityRepair.Text.Hex
/-!
# Tokens of JSON text

The text of a document is scanned one character at a time into punctuation, words and strings. A
word is a run of the characters of numbers and of `null`, `true` and `false`; what it means is
settled later. Characters outside the basic plane may be written as two escapes, so a string is
scanned into 16-bit units and characters before `characters?` puts it together.
-/
namespace CavityRepair.Document

/-- A lexical piece of a document. -/
inductive Token where
  | openArray
  | closeArray
  | openObject
  | closeObject
  | comma
  | colon
  | word (letters : List Char)
  | string (s : String)
  deriving DecidableEq, Repr

/-- The state of a scan. Collected pieces stand in reverse order. -/
inductive Scan where
  /-- Between two tokens. -/
  | outside
  /-- Inside a word. -/
  | word (letters : List Char)
  /-- Inside a string. -/
  | string (units : List Nat)
  /-- Behind a backslash in a string. -/
  | escape (units : List Nat)
  /-- Inside an escape of four hexadecimal digits, of which `missing` are to come. -/
  | unit (units : List Nat) (missing : Nat) (value : Nat)

/-- Whether a number is the first unit of a pair. -/
def isHigh (u : Nat) : Bool := decide (0xd800 ≤ u ∧ u < 0xdc00)

/-- Whether a number is the second unit of a pair. -/
def isLow (u : Nat) : Bool := decide (0xdc00 ≤ u ∧ u < 0xe000)

/-- The characters of a row of units, none if a unit of a pair stands alone. -/
def characters? : List Nat → Option (List Char)
  | [] => some []
  | [u] => if isHigh u || isLow u then none else some [Char.ofNat u]
  | u :: v :: rest =>
    if isHigh u then
      if isLow v then
        (characters? rest).map (Char.ofNat (0x10000 + (u - 0xd800) * 0x400 + (v - 0xdc00)) :: ·)
      else none
    else if isLow u then none
    else (characters? (v :: rest)).map (Char.ofNat u :: ·)

/-- The character that an escape of one letter stands for. -/
def escaped? : Char → Option Char
  | '"' => some '"'
  | '\\' => some '\\'
  | '/' => some '/'
  | 'b' => some '\x08'
  | 'f' => some '\x0c'
  | 'n' => some '\n'
  | 'r' => some '\r'
  | 't' => some '\t'
  | _ => none

/-- The token that a character is by itself. -/
def punctuation? : Char → Option Token
  | '[' => some .openArray
  | ']' => some .closeArray
  | '\x7b' => some .openObject
  | '\x7d' => some .closeObject
  | ',' => some .comma
  | ':' => some .colon
  | _ => none

/-- Whether a character may stand in a word. -/
def isWordLetter (c : Char) : Bool := c.isAlphanum || c == '+' || c == '-' || c == '.'

/-- Scans a character between two tokens. -/
def Scan.start (c : Char) : Option (Scan × List Token) :=
  if c = ' ' ∨ c = '\n' ∨ c = '\r' ∨ c = '\t' then some (.outside, [])
  else if c = '"' then some (.string [], [])
  else if isWordLetter c then some (.word [c], [])
  else (punctuation? c).map (.outside, [·])

/-- Scans a character. The answer has the tokens that it completes. -/
def Scan.step : Scan → Char → Option (Scan × List Token)
  | .outside, c => start c
  | .word letters, c =>
    if isWordLetter c then some (.word (c :: letters), [])
    else (start c).map fun (scan, tokens) => (scan, .word letters.reverse :: tokens)
  | .string units, c =>
    if c = '"' then (characters? units.reverse).map fun cs => (.outside, [.string (.ofList cs)])
    else if c = '\\' then some (.escape units, [])
    else if c.toNat < 0x20 then none
    else some (.string (c.toNat :: units), [])
  | .escape units, c =>
    if c = 'u' then some (.unit units 4 0, [])
    else (escaped? c).map fun e => (.string (e.toNat :: units), [])
  | .unit units missing value, c => do
    let value := 16 * value + (← hexDigit? c)
    if missing ≤ 1 then some (.string (value :: units), [])
    else some (.unit units (missing - 1) value, [])

/-- The tokens that the end of the text completes. -/
def Scan.finish : Scan → Option (List Token)
  | .outside => some []
  | .word letters => some [.word letters.reverse]
  | _ => none

/-- The tokens of the rest of a text. -/
def Scan.run (scan : Scan) : List Char → Option (List Token)
  | [] => scan.finish
  | c :: rest => do
    let (scan, tokens) ← scan.step c
    return tokens ++ (← scan.run rest)

/-- The tokens of a text. -/
def tokens? (text : List Char) : Option (List Token) := Scan.outside.run text

end CavityRepair.Document
