import ServiceDesk.Text.Digits

/-!
A TOML text with its strings read and its comments dropped. What is left is a list of strings and
single characters, in which lines end with a line feed alone.
-/

namespace ServiceDesk.Toml

open Text

inductive Lexeme where
  | char (c : Char)
  /-- A string, and whether it is one of those that may have several lines. -/
  | text (value : String) (multiline : Bool)
  deriving DecidableEq, Repr

/-- What a character belongs to. A string has its characters so far, the last one first. -/
inductive Mode where
  | plain
  | comment
  | basic (soFar : List Char)
  | literal (soFar : List Char)
  | basicLines (soFar : List Char)
  | literalLines (soFar : List Char)

/-- What a character leads to: lexemes that are complete, the mode after it, and how many of the
characters behind it are used up with it. -/
structure Advance where
  output : List Lexeme
  mode : Mode
  used : Nat

def isLineBlank (c : Char) : Bool := c == ' ' || c == '\t'

/-- The characters that may stand in comments and strings: all but control characters, among which
the tab is not counted. -/
def isWritten (c : Char) : Bool := c == '\t' || (decide (0x20 ≤ c.toNat) && c != '\x7f')

def lineEndLength : List Char → Nat
  | '\n' :: _ => 1
  | '\r' :: '\n' :: _ => 2
  | _ => 0

def gapLength : List Char → Nat
  | ' ' :: rest | '\t' :: rest | '\n' :: rest => gapLength rest + 1
  | '\r' :: '\n' :: rest => gapLength rest + 2
  | _ => 0

/-- The character of a code point, surrogates having none. -/
def charOfCode? (code : Nat) : Option Char :=
  if code < 0xD800 ∨ (0xDFFF < code ∧ code < 0x110000) then some (Char.ofNat code) else none

def charOfDigits? (width : Nat) (text : List Char) : Option Char :=
  let digits := text.take width
  if digits.length = width then (natOfHexadecimal? digits).bind charOfCode? else none

/-- The character that is written behind a backslash, and the length of its written form. -/
def escape? : List Char → Option (Char × Nat)
  | 'b' :: _ => some ('\x08', 1)
  | 't' :: _ => some ('\t', 1)
  | 'n' :: _ => some ('\n', 1)
  | 'f' :: _ => some ('\x0c', 1)
  | 'r' :: _ => some ('\r', 1)
  | '\x22' :: _ => some ('\x22', 1)
  | '\x5c' :: _ => some ('\x5c', 1)
  | 'u' :: rest => (charOfDigits? 4 rest).map (·, 5)
  | 'U' :: rest => (charOfDigits? 8 rest).map (·, 9)
  | _ => none

namespace Mode

/-- A quote outside of strings: three open a string of lines, which does not begin with a line end
right behind them. -/
def opening (quote : Char) (line lines : List Char → Mode) : List Char → Advance
  | b :: c :: rest =>
    if b = quote ∧ c = quote then ⟨[], lines [], 2 + lineEndLength rest⟩ else ⟨[], line [], 0⟩
  | _ => ⟨[], line [], 0⟩

/-- A quote inside a string of lines: three close the string, and one or two more before them
belong to it. -/
def closing (quote : Char) (lines : List Char → Mode) (soFar rest : List Char) : Advance :=
  let count := min 5 ((rest.takeWhile (· == quote)).length + 1)
  if count < 3 then ⟨[], lines (quote :: soFar), 0⟩
  else
    ⟨[.text (String.ofList (soFar.reverse ++ List.replicate (count - 3) quote)) true], .plain,
      count - 1⟩

/-- An ordinary character inside a string of lines. -/
def inLines? (lines : List Char → Mode) (soFar : List Char) (c : Char) (rest : List Char) :
    Option Advance :=
  if c = '\n' then some ⟨[], lines ('\n' :: soFar), 0⟩
  else if c = '\r' then
    if rest.head? = some '\n' then some ⟨[], lines ('\n' :: soFar), 1⟩ else none
  else if isWritten c then some ⟨[], lines (c :: soFar), 0⟩
  else none

/-- A backslash inside a string of lines: at the end of a line it takes all blanks and line ends
with it up to the next character. -/
def escapeInLines? (soFar rest : List Char) : Option Advance :=
  if 0 < lineEndLength (rest.dropWhile isLineBlank) then
    some ⟨[], .basicLines soFar, gapLength rest⟩
  else (escape? rest).map fun (c, length) => ⟨[], .basicLines (c :: soFar), length⟩

def advance? (mode : Mode) (c : Char) (rest : List Char) : Option Advance :=
  match mode with
  | .plain =>
    if c = '#' then some ⟨[], .comment, 0⟩
    else if c = '\x22' then some (opening c .basic .basicLines rest)
    else if c = '\x27' then some (opening c .literal .literalLines rest)
    else if c = '\r' then
      if rest.head? = some '\n' then some ⟨[.char '\n'], .plain, 1⟩ else none
    else some ⟨[.char c], .plain, 0⟩
  | .comment =>
    if c = '\n' then some ⟨[.char '\n'], .plain, 0⟩
    else if c = '\r' ∧ rest.head? = some '\n' then some ⟨[.char '\n'], .plain, 1⟩
    else if isWritten c then some ⟨[], .comment, 0⟩
    else none
  | .basic soFar =>
    if c = '\x22' then some ⟨[.text (String.ofList soFar.reverse) false], .plain, 0⟩
    else if c = '\x5c' then
      (escape? rest).map fun (c, length) => ⟨[], .basic (c :: soFar), length⟩
    else if isWritten c then some ⟨[], .basic (c :: soFar), 0⟩
    else none
  | .literal soFar =>
    if c = '\x27' then some ⟨[.text (String.ofList soFar.reverse) false], .plain, 0⟩
    else if isWritten c then some ⟨[], .literal (c :: soFar), 0⟩
    else none
  | .basicLines soFar =>
    if c = '\x22' then some (closing c .basicLines soFar rest)
    else if c = '\x5c' then escapeInLines? soFar rest
    else inLines? .basicLines soFar c rest
  | .literalLines soFar =>
    if c = '\x27' then some (closing c .literalLines soFar rest)
    else inLines? .literalLines soFar c rest

end Mode

/-- The lexemes of a text, unless a string is not closed or a character stands where it must
not. -/
def lexemes? (mode : Mode) : List Char → Option (List Lexeme)
  | [] =>
    match mode with
    | .plain | .comment => some []
    | _ => none
  | c :: rest =>
    match mode.advance? c rest with
    | none => none
    | some advance => (lexemes? advance.mode (rest.drop advance.used)).map (advance.output ++ ·)
  termination_by text => text.length
  decreasing_by
    simp only [List.length_drop, List.length_cons]
    omega

end ServiceDesk.Toml
