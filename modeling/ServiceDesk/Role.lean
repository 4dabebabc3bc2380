import ServiceDesk.Error
import ServiceDesk.Json.Basic
import ServiceDesk.Text.Blank
import ServiceDesk.Text.Lowercase

/-!
Roles and what they may do. Roles are ranked, and a capability of one role belongs to every role
above it.
-/

namespace ServiceDesk

open Text

inductive Role where
  | customer
  | agent
  | admin
  deriving DecidableEq, Repr

inductive Capability where
  | createTickets
  | assignTickets
  | viewAllTickets
  | manageUsers
  | viewInternalComments
  | createInternalComments
  | manageOrganization
  deriving DecidableEq, Repr

namespace Capability

def all : List Capability :=
  [.createTickets, .assignTickets, .viewAllTickets, .manageUsers, .viewInternalComments,
   .createInternalComments, .manageOrganization]

def text : Capability → String
  | .createTickets => "create_tickets"
  | .assignTickets => "assign_tickets"
  | .viewAllTickets => "view_all_tickets"
  | .manageUsers => "manage_users"
  | .viewInternalComments => "view_internal_comments"
  | .createInternalComments => "create_internal_comments"
  | .manageOrganization => "manage_organization"

/-- The lowest role that has the capability. -/
def leastRole : Capability → Role
  | .createTickets => .customer
  | .assignTickets | .viewAllTickets | .viewInternalComments | .createInternalComments => .agent
  | .manageUsers | .manageOrganization => .admin

end Capability

namespace Role

/-- Every role, lowest first. -/
def all : List Role := [.customer, .agent, .admin]

def lowest : Role := .customer

def rank : Role → Nat
  | .customer => 0
  | .agent => 1
  | .admin => 2

def text : Role → String
  | .customer => "customer"
  | .agent => "agent"
  | .admin => "admin"

instance : LE Role := ⟨fun a b => a.rank ≤ b.rank⟩

instance (a b : Role) : Decidable (a ≤ b) := inferInstanceAs (Decidable (a.rank ≤ b.rank))

def can (role : Role) (capability : Capability) : Bool := decide (capability.leastRole ≤ role)

def capabilities (role : Role) : List Capability := Capability.all.filter role.can

def ofName? (name : String) : Option Role := all.find? (·.text == name)

/-- The role of a JSON value: its name, or a record whose only field has that name and is null. -/
def ofJson? : Json → Option Role
  | .text name => ofName? name
  | .record [(name, .null)] => ofName? name
  | _ => none

/-- The role that a person means: blanks around the name and its case do not matter. -/
def ofText (raw : String) : Except DeskError Role :=
  match ofName? (lowercase (trim raw)) with
  | some role => .ok role
  | none => .error (.unknownRole raw)

theorem ofName?_text (role : Role) : ofName? role.text = some role := by
  cases role <;> decide

end Role

end ServiceDesk
