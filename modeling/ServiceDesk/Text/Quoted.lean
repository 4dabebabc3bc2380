import ServiceDesk.Text.Digits
import ServiceDesk.Text.GraphemeExtend
import ServiceDesk.Text.Printable

/-!
Quoting user input inside a message. The four usual control characters, the backslash and the
quote in use have short escapes; every other character that would be invisible, or would attach
to its neighbour, is written by its code point; all else stands for itself.
-/

namespace ServiceDesk.Text

/-- The quotation marks: a string is held in double quotes and a character in single ones. -/
inductive QuoteMark where
  | single
  | double
  deriving DecidableEq, Repr

def QuoteMark.char : QuoteMark → Char
  | .single => '\x27'
  | .double => '\x22'

/-- Whether a character attaches to its neighbour. The halfwidth sound marks U+FF9E and U+FF9F have
the property too, but take a cell of their own. -/
def attaches (c : Char) : Bool := isGraphemeExtend c && c != '\uff9e' && c != '\uff9f'

def codeEscape (c : Char) : List Char :=
  ['\x5c', 'u', '\x7b'] ++ shortestHexadecimal c.toNat ++ ['\x7d']

def escapeChar (mark : QuoteMark) (c : Char) : List Char :=
  if c == '\x00' then ['\x5c', '0']
  else if c == '\t' then ['\x5c', 't']
  else if c == '\r' then ['\x5c', 'r']
  else if c == '\n' then ['\x5c', 'n']
  else if c == '\x5c' || c == mark.char then ['\x5c', c]
  else if attaches c || !isPrintable c then codeEscape c
  else [c]

def quoted (text : String) : String :=
  let mark := QuoteMark.double
  String.ofList (mark.char :: text.toList.flatMap (escapeChar mark) ++ [mark.char])

def quotedChar (c : Char) : String :=
  let mark := QuoteMark.single
  String.ofList (mark.char :: escapeChar mark c ++ [mark.char])

end ServiceDesk.Text
