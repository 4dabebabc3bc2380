import ServiceDesk.Json.Record
import ServiceDesk.Service.Categories
import ServiceDesk.Text.Utf8

/-!
The bodies of requests. Each is a record of known fields. While it is read, a draft notes which
fields have been given, because none may be given twice.
-/

namespace ServiceDesk.Web

open Json Service

/-- The body of a request. Its bytes need not be text. -/
structure Body where
  bytes : ByteArray

instance : Coe String Body := ⟨fun text => ⟨text.toUTF8⟩⟩

/-- The characters of a body, and its ill-formed parts. -/
def Body.glyphs (body : Body) : List Glyph :=
  Text.utf8Chars (body.bytes.toList.map UInt8.toNat)

/-- A field that is kept in one place of a draft. -/
def draftField {ρ β : Type} (key : String) (get : ρ → Option β) (set : ρ → β → ρ)
    (read : Token → Except Fault β) (omissible : Bool) : Json.Field ρ where
  key := key
  isSet draft := (get draft).isSome
  fill draft token := (read token).map (set draft)
  omissible := omissible

structure NewOrganizationDraft where
  name : Option String := none
  domain : Option (Option String) := none
  parentId : Option (Option Uuid) := none

def newOrganization (body : Body) : Except Fault NewOrganization :=
  recordOfText
    [draftField "name" (·.name) (fun d v => { d with name := some v }) readText false,
     draftField "domain" (·.domain) (fun d v => { d with domain := some v })
      (readNullable readText) false,
     draftField "parent_id" (·.parentId) (fun d v => { d with parentId := some v })
      (readNullable readUuid) false]
    ({} : NewOrganizationDraft)
    (fun draft => draft.name.map fun name =>
      ⟨name, (draft.domain.getD none).getD "", draft.parentId.getD none⟩)
    body.glyphs

structure OrganizationChangesDraft where
  name : Option (Option String) := none
  domain : Option (Option String) := none
  isActive : Option (Option Bool) := none

def organizationChanges (body : Body) : Except Fault OrganizationChanges :=
  recordOfText
    [draftField "name" (·.name) (fun d v => { d with name := some v })
      (readNullable readText) false,
     draftField "domain" (·.domain) (fun d v => { d with domain := some v })
      (readNullable readText) false,
     draftField "is_active" (·.isActive) (fun d v => { d with isActive := some v })
      (readNullable readBool) false]
    ({} : OrganizationChangesDraft)
    (fun draft => some
      ⟨draft.name.getD none, draft.domain.getD none, draft.isActive.getD none⟩)
    body.glyphs

structure NewCategoryDraft where
  name : Option String := none
  description : Option String := none
  parentId : Option (Option Uuid) := none

/-- A missing description is empty. -/
def newCategory (body : Body) : Except Fault NewCategory :=
  recordOfText
    [draftField "name" (·.name) (fun d v => { d with name := some v }) readText false,
     draftField "description" (·.description) (fun d v => { d with description := some v })
      readText true,
     draftField "parent_id" (·.parentId) (fun d v => { d with parentId := some v })
      (readNullable readUuid) false]
    ({} : NewCategoryDraft)
    (fun draft => draft.name.map fun name =>
      ⟨name, draft.description.getD "", draft.parentId.getD none⟩)
    body.glyphs

structure CategoryChangesDraft where
  name : Option (Option String) := none
  description : Option (Option String) := none
  isActive : Option (Option Bool) := none

def categoryChanges (body : Body) : Except Fault CategoryChanges :=
  recordOfText
    [draftField "name" (·.name) (fun d v => { d with name := some v })
      (readNullable readText) false,
     draftField "description" (·.description) (fun d v => { d with description := some v })
      (readNullable readText) false,
     draftField "is_active" (·.isActive) (fun d v => { d with isActive := some v })
      (readNullable readBool) false]
    ({} : CategoryChangesDraft)
    (fun draft => some
      ⟨draft.name.getD none, draft.description.getD none, draft.isActive.getD none⟩)
    body.glyphs

structure ParentDraft where
  parentId : Option (Option Uuid) := none

def newParent (body : Body) : Except Fault (Option Uuid) :=
  recordOfText
    [draftField "parent_id" (·.parentId) (fun d v => { d with parentId := some v })
      (readNullable readUuid) false]
    ({} : ParentDraft)
    (fun draft => some (draft.parentId.getD none))
    body.glyphs

end ServiceDesk.Web
