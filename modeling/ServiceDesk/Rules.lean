import ServiceDesk.Error
import ServiceDesk.Text.Blank
import ServiceDesk.Text.Lowercase

/-!
The rules for the fields of organizations and categories. Each rule returns the normal form of the
field, which is what gets stored. Lengths count characters after trimming.
-/

namespace ServiceDesk.Rules

open Text

def nameLeast : Nat := 2

def nameMost : Nat := 100

def descriptionMost : Nat := 500

/-- A trimmed name of two to a hundred characters. -/
def name (raw : String) : Except DeskError String :=
  let length := (trimChars raw.toList).length
  if length = 0 then .error (.invalid .name .empty)
  else if length < nameLeast then .error (.invalid .name (.tooShort nameLeast))
  else if nameMost < length then .error (.invalid .name (.tooLong nameMost))
  else .ok (trim raw)

/-- A trimmed description of at most five hundred characters, which may be empty. -/
def description (raw : String) : Except DeskError String :=
  if descriptionMost < (trimChars raw.toList).length then
    .error (.invalid .description (.tooLong descriptionMost))
  else .ok (trim raw)

def isDomainChar (c : Char) : Bool := isAsciiLower c || isAsciiDigit c || c == '.' || c == '-'

/-- A trimmed domain in lower case with a dot in it, or none for a blank text. -/
def domain (raw : String) : Except DeskError (Option String) :=
  let normal := lowerChars (trimChars raw.toList)
  if normal = [] then .ok none
  else if '.' ∉ normal then .error (.invalid .domain .noDot)
  else
    match normal.find? fun c => !isDomainChar c with
    | some c => .error (.invalid .domain (.badCharacter c))
    | none => .ok (some (String.ofList normal))

/-- The organization of a category, which must not be the nil identifier. -/
def tenant (id : Uuid) : Except DeskError Uuid :=
  if id = Uuid.nil then .error (.invalid .organizationId .missing) else .ok id

end ServiceDesk.Rules
