import ServiceDesk.Store.Listing

/-!
The calls that can be made on the store, as values, and their answers. A call is the unit of
atomicity: it is answered as a whole, from one state of the store, and leaves another.
-/

namespace ServiceDesk

inductive Store.Call where
  | getOrganization (id : Uuid)
  | saveOrganization (organization : Organization)
  | deleteOrganization (id : Uuid)
  | listOrganizations (query : Query OrganizationSort)
  | allOrganizations
  | getCategory (id : Uuid)
  | saveCategory (category : Category)
  | deleteCategory (id : Uuid)
  | listCategories (query : Query CategorySort)
  | categoriesFor (organizationId : Uuid)
  | countChildOrganizations (id : Uuid)
  | countChildCategories (id : Uuid)
  | countOrganizationCategories (id : Uuid)

namespace Store

abbrev Call.Result : Call → Type
  | .getOrganization _ => Option Organization
  | .saveOrganization _ => Unit
  | .deleteOrganization _ => Bool
  | .listOrganizations _ => List Organization
  | .allOrganizations => List Organization
  | .getCategory _ => Option Category
  | .saveCategory _ => Unit
  | .deleteCategory _ => Bool
  | .listCategories _ => List Category
  | .categoriesFor _ => List Category
  | .countChildOrganizations _ => Nat
  | .countChildCategories _ => Nat
  | .countOrganizationCategories _ => Nat

abbrev Call.Answer (call : Call) : Type := Except StoreError call.Result

def ofRead {α : Type} (store : Store) (result : Except StoreFault α) :
    Except StoreError α × Store :=
  (result.mapError .failed, store)

/-- The answer of a call that writes. A broken constraint leaves the store as it was. -/
def ofWrite {α : Type} (store : Store) (result : Except Violation (α × Store)) :
    Except StoreError α × Store :=
  match result with
  | .ok (value, next) => (.ok value, next)
  | .error violation => (.error (.violated violation), store)

def answer (store : Store) : (call : Call) → call.Answer × Store
  | .getOrganization id => store.ofRead (store.getOrganization id)
  | .saveOrganization organization =>
    store.ofWrite ((store.saveOrganization organization).map ((), ·))
  | .deleteOrganization id => store.ofWrite (store.deleteOrganization id)
  | .listOrganizations query => store.ofRead (store.listOrganizations query)
  | .allOrganizations => store.ofRead store.allOrganizations
  | .getCategory id => store.ofRead (store.getCategory id)
  | .saveCategory category => store.ofWrite ((store.saveCategory category).map ((), ·))
  | .deleteCategory id => store.ofWrite (store.deleteCategory id)
  | .listCategories query => store.ofRead (store.listCategories query)
  | .categoriesFor organizationId => store.ofRead (store.categoriesFor organizationId)
  | .countChildOrganizations id => (.ok (store.countChildOrganizations id), store)
  | .countChildCategories id => (.ok (store.countChildCategories id), store)
  | .countOrganizationCategories id => (.ok (store.countOrganizationCategories id), store)

end Store

end ServiceDesk
