import ServiceDesk.Json.Basic
import ServiceDesk.Text.Ascii

/-!
JSON values as compact text: no blanks, fields in the order given, and escapes only where JSON
demands them.
-/

namespace ServiceDesk.Json

open Text

def charForm (c : Char) : List Char :=
  if c == '\x22' || c == '\x5c' then ['\x5c', c]
  else if c.toNat < 0x20 then
    ['\x5c', 'u', '0', '0', hexDigit (c.toNat / 16), hexDigit (c.toNat % 16)]
  else [c]

def textForm (string : String) : String :=
  String.ofList ('\x22' :: string.toList.flatMap charForm ++ ['\x22'])

def Number.form (number : Number) : String :=
  (if number.negative then "-" else "") ++ toString number.significand ++
    (if number.plain then "" else "e" ++ toString number.exponent)

mutual

/-- The compact text of a value. -/
def compress : Json → String
  | .null => "null"
  | .bool flag => if flag then "true" else "false"
  | .number numeral => numeral.form
  | .text string => textForm string
  | .list items => "[" ++ compressItems items ++ "]"
  | .record fields => "\x7b" ++ compressFields fields ++ "\x7d"

def compressItems : List Json → String
  | [] => ""
  | [item] => compress item
  | item :: items => compress item ++ "," ++ compressItems items

def compressFields : List (String × Json) → String
  | [] => ""
  | [(key, value)] => textForm key ++ ":" ++ compress value
  | (key, value) :: fields =>
    textForm key ++ ":" ++ compress value ++ "," ++ compressFields fields

end

end ServiceDesk.Json
