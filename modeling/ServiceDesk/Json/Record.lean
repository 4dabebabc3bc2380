import ServiceDesk.Json.Token
import ServiceDesk.Uuid

/-!
Reading a record of known fields straight from tokens. A reader goes from left to right and stops
at the first fault, and the fault says whether the text stops being JSON there or is JSON of
another shape. The value of a field that the record does not know is passed over at any depth.
-/

namespace ServiceDesk.Json

inductive Fault where
  /-- The text is no JSON. -/
  | malformed
  /-- The text is JSON so far, but not of the wanted shape. -/
  | mismatched
  deriving DecidableEq, Repr

/-- The fault of a reader that wanted another token. A number too large for binary64 and a
string without a value count as malformed wherever they are looked at. -/
def Token.complaint : Token → Fault
  | .fault | .colon | .comma | .closeBrace | .closeBracket | .text none => .malformed
  | .number numeral => if numeral.fitsBinary64 then .mismatched else .malformed
  | _ => .mismatched

def readText : Token → Except Fault String
  | .text (some string) => .ok string
  | token => .error token.complaint

def readBool : Token → Except Fault Bool
  | .bool flag => .ok flag
  | token => .error token.complaint

def readUuid (token : Token) : Except Fault Uuid := do
  let string ← readText token
  match Uuid.ofText? string with
  | some id => .ok id
  | none => .error .mismatched

def readNullable {α : Type} (read : Token → Except Fault α) : Token → Except Fault (Option α)
  | .null => .ok none
  | token => (read token).map some

/-! ### Passing over a value -/

inductive Bracket where
  | list
  | record
  deriving DecidableEq, Repr

inductive Awaited where
  | value
  | firstItem
  | key
  | firstKey
  | colon
  /-- A value has ended. -/
  | separator
  deriving DecidableEq, Repr

/-- Pass over one value, given the brackets that are open within it. -/
def skip : Awaited → List Bracket → List Token → Except Fault (List Token)
  | .separator, [], rest => .ok rest
  | _, _, [] => .error .malformed
  | .separator, bracket :: stack, token :: rest =>
    match bracket, token with
    | .list, .comma => skip .value (.list :: stack) rest
    | .record, .comma => skip .key (.record :: stack) rest
    | .list, .closeBracket => skip .separator stack rest
    | .record, .closeBrace => skip .separator stack rest
    | _, _ => .error .malformed
  | .key, stack, token :: rest =>
    match token with
    | .text _ => skip .colon stack rest
    | _ => .error .malformed
  | .firstKey, stack, token :: rest =>
    match token, stack with
    | .text _, _ => skip .colon stack rest
    | .closeBrace, _ :: outer => skip .separator outer rest
    | _, _ => .error .malformed
  | .colon, stack, token :: rest =>
    match token with
    | .colon => skip .value stack rest
    | _ => .error .malformed
  | awaited, stack, token :: rest =>
    match token with
    | .null | .bool _ | .number _ | .text _ => skip .separator stack rest
    | .openBracket => skip .firstItem (.list :: stack) rest
    | .openBrace => skip .firstKey (.record :: stack) rest
    | .closeBracket =>
      match awaited, stack with
      | .firstItem, _ :: outer => skip .separator outer rest
      | _, _ => .error .malformed
    | _ => .error .malformed

theorem length_of_skip {awaited : Awaited} {stack : List Bracket} {source rest : List Token}
    (h : skip awaited stack source = .ok rest) : rest.length ≤ source.length := by
  fun_induction skip awaited stack source with
  | case1 =>
      cases h
      exact Nat.le_refl _
  | case2 | case7 | case9 | case12 | case14 | case22 | case23 => cases h
  | _ =>
      rename_i ih
      exact Nat.le_succ_of_le (ih h)

/-! ### Known fields -/

/-- One known field of a record that is read into a draft of type `ρ`. -/
structure Field (ρ : Type) where
  key : String
  /-- Whether the draft already has the field. -/
  isSet : ρ → Bool
  /-- Put the value that a token gives into the draft. -/
  fill : ρ → Token → Except Fault ρ
  /-- Whether the field may be left out at the end of the list form. -/
  omissible : Bool

/-- The value of a known field, which must not be there twice, or of an unknown one. -/
def readMember {ρ : Type} (fields : List (Field ρ)) (draft : ρ) :
    List Token → Except Fault (ρ × List Token)
  | .text (some key) :: rest =>
    match fields.find? (·.key == key) with
    | some field =>
      if field.isSet draft then .error .mismatched
      else
        match rest with
        | .colon :: value :: rest => (field.fill draft value).map (·, rest)
        | _ => .error .malformed
    | none =>
      match rest with
      | .colon :: rest => (skip .value [] rest).map (draft, ·)
      | _ => .error .malformed
  | _ => .error .malformed

theorem length_of_readMember {ρ : Type} {fields : List (Field ρ)} {draft next : ρ}
    {source rest : List Token} (h : readMember fields draft source = .ok (next, rest)) :
    rest.length < source.length := by
  unfold readMember at h
  split at h
  · rename_i key after
    split at h
    · split at h
      · cases h
      · split at h
        · rename_i field _ _ _ value after
          cases hv : field.fill draft value with
          | error fault =>
            rw [hv] at h
            cases h
          | ok draft' =>
            rw [hv] at h
            cases h
            simp only [List.length_cons]
            omega
        · cases h
    · split at h
      · rename_i after
        cases hs : skip .value [] after with
        | error fault =>
          rw [hs] at h
          cases h
        | ok after' =>
          rw [hs] at h
          cases h
          have := length_of_skip hs
          simp only [List.length_cons]
          omega
      · cases h
  · cases h

/-- The members of a record, at least one, up to its closing brace. -/
def readMembers {ρ : Type} (fields : List (Field ρ)) (draft : ρ) (source : List Token) :
    Except Fault (ρ × List Token) :=
  match _h : readMember fields draft source with
  | .error fault => .error fault
  | .ok (draft, .comma :: rest) => readMembers fields draft rest
  | .ok (draft, .closeBrace :: rest) => .ok (draft, rest)
  | .ok _ => .error .malformed
  termination_by source.length
  decreasing_by
    have := length_of_readMember _h
    simp only [List.length_cons] at this
    omega

/-- The items of the list form, one for each field in order, up to the closing bracket. -/
def readItems {ρ : Type} (first : Bool) (draft : ρ) :
    List (Field ρ) → List Token → Except Fault (ρ × List Token)
  | _, [] => .error .malformed
  | [], token :: rest =>
    if token = .closeBracket then .ok (draft, rest) else .error .malformed
  | field :: fields, token :: rest =>
    if token = .closeBracket then
      if field.omissible then readItems first draft fields (token :: rest)
      else .error .mismatched
    else
      match (if first then token :: rest else if token = .comma then rest else []) with
      | [] => .error .malformed
      | value :: afterValue =>
        if value = .closeBracket then .error .malformed
        else
          match field.fill draft value with
          | .ok draft => readItems false draft fields afterValue
          | .error fault => .error fault

/-- A record in braces, or in the form of a list with its fields in order. -/
def readRecord {ρ α : Type} (fields : List (Field ρ)) (empty : ρ) (finish : ρ → Option α) :
    List Token → Except Fault (α × List Token)
  | [] => .error .malformed
  | token :: rest => do
    let (draft, rest) ← match token with
      | .openBrace =>
        match rest with
        | .closeBrace :: rest => .ok (empty, rest)
        | rest => readMembers fields empty rest
      | .openBracket => readItems true empty fields rest
      | other => .error other.complaint
    match finish draft with
    | some value => .ok (value, rest)
    | none => .error .mismatched

def recordOfText {ρ α : Type} (fields : List (Field ρ)) (empty : ρ) (finish : ρ → Option α)
    (source : List Glyph) : Except Fault α := do
  let (value, rest) ← readRecord fields empty finish (tokens source)
  if rest.isEmpty then .ok value else .error .malformed

end ServiceDesk.Json
