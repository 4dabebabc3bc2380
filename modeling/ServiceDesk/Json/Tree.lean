import ServiceDesk.Json.Token

/-!
A whole JSON text as a value. The tokens are read from left to right with a stack of the lists and
records that are still open.
-/

namespace ServiceDesk.Json

/-- A list or record that is still open, with what it holds so far in reverse. -/
inductive Frame where
  | list (items : List Json)
  | record (fields : List (String × Json)) (key : String)

inductive Need where
  | value
  /-- A value, or the end of the list just opened. -/
  | firstItem
  /-- A key of the record with these fields. -/
  | key (fields : List (String × Json))
  /-- A key, or the end of the record just opened. -/
  | firstKey
  /-- The colon after a key. -/
  | colon (fields : List (String × Json)) (key : String)
  /-- Whatever may follow this finished value. -/
  | after (value : Json)

/-- Read one value from the tokens and leave the rest. -/
def build : Need → List Frame → List Token → Option (Json × List Token)
  | .after value, [], rest => some (value, rest)
  | _, _, [] => none
  | .after value, .list items :: stack, token :: rest =>
    match token with
    | .comma => build .value (.list (value :: items) :: stack) rest
    | .closeBracket => build (.after (.list (value :: items).reverse)) stack rest
    | _ => none
  | .after value, .record fields key :: stack, token :: rest =>
    match token with
    | .comma => build (.key ((key, value) :: fields)) stack rest
    | .closeBrace => build (.after (.record ((key, value) :: fields).reverse)) stack rest
    | _ => none
  | .key fields, stack, token :: rest =>
    match token with
    | .text (some key) => build (.colon fields key) stack rest
    | _ => none
  | .firstKey, stack, token :: rest =>
    match token with
    | .text (some key) => build (.colon [] key) stack rest
    | .closeBrace => build (.after (.record [])) stack rest
    | _ => none
  | .colon fields key, stack, token :: rest =>
    match token with
    | .colon => build .value (.record fields key :: stack) rest
    | _ => none
  | need, stack, token :: rest =>
    match token with
    | .null => build (.after .null) stack rest
    | .bool flag => build (.after (.bool flag)) stack rest
    | .number numeral => build (.after (.number numeral)) stack rest
    | .text (some string) => build (.after (.text string)) stack rest
    | .openBracket => build .firstItem (.list [] :: stack) rest
    | .openBrace => build .firstKey stack rest
    | .closeBracket =>
      match need, stack with
      | .firstItem, .list _ :: outer => build (.after (.list [])) outer rest
      | _, _ => none
    | _ => none

def ofText? (source : String) : Option Json :=
  match build .value [] (tokens (source.toList.map some)) with
  | some (value, []) => some value
  | _ => none

end ServiceDesk.Json
