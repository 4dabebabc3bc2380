import ServiceDesk.Proofs.Service.Validity
import ServiceDesk.Proofs.Store.Uniqueness

/-!
Who may join by mail address. An address is judged by what stands behind its only at sign, and the
letters A to Z are folded before it is compared. Stored domains have no capital letters and no two
organizations have the same one, so an address opens at most one organization. This is so however
the requests were served that led to the store, one after another or at the same time.
-/

namespace ServiceDesk

open Hierarchy Service Operation Text

/-! ### Addresses -/

theorem Text.drop_dropWhile_iff {c : Char} {text rest : List Char} :
    (c ∈ text ∧ (text.dropWhile (· != c)).drop 1 = rest) ↔
      ∃ front, text = front ++ c :: rest ∧ c ∉ front := by
  induction text with
  | nil => simp
  | cons d text ih =>
      by_cases hd : d = c
      · subst hd
        have hstop : ((d :: text).dropWhile (· != d)).drop 1 = text := by simp
        rw [hstop]
        constructor
        · rintro ⟨_, rfl⟩
          exact ⟨[], rfl, List.not_mem_nil⟩
        · rintro ⟨front, htext, hfront⟩
          cases front with
          | nil => exact ⟨List.mem_cons_self, (List.cons.inj htext).2⟩
          | cons e front =>
              cases (List.cons.inj htext).1
              exact absurd List.mem_cons_self hfront
      · have hgo : (d :: text).dropWhile (· != c) = text.dropWhile (· != c) :=
          List.dropWhile_cons_of_pos (by simpa using hd)
        rw [hgo, List.mem_cons, or_iff_right (Ne.symm hd), ih]
        constructor
        · rintro ⟨front, rfl, hfront⟩
          exact ⟨d :: front, rfl, List.not_mem_cons_of_ne_of_not_mem (Ne.symm hd) hfront⟩
        · rintro ⟨front, htext, hfront⟩
          cases front with
          | nil => exact absurd (List.cons.inj htext).1 hd
          | cons e front =>
              exact ⟨front, (List.cons.inj htext).2, List.not_mem_of_not_mem_cons hfront⟩

/-- An address has one at sign, and this stands behind it. -/
def HasHost (email : String) (host : List Char) : Prop :=
  ∃ front, email.toList = front ++ '@' :: host ∧ '@' ∉ front ∧ '@' ∉ host

theorem HasHost.unique {email : String} {a b : List Char} (ha : HasHost email a)
    (hb : HasHost email b) : a = b := by
  obtain ⟨front, hfront, hout, _⟩ := ha
  obtain ⟨other, hother, hout', _⟩ := hb
  obtain ⟨_, ha⟩ := drop_dropWhile_iff.2 ⟨front, hfront, hout⟩
  obtain ⟨_, hb⟩ := drop_dropWhile_iff.2 ⟨other, hother, hout'⟩
  exact ha.symm.trans hb

/-- An organization matches the addresses that have its domain behind the at sign, whatever the case
of the letters A to Z in either of them. -/
theorem Organization.matchesEmail_iff_folded {organization : Organization} {email : String} :
    organization.matchesEmail email = true ↔
      ∃ domain host, organization.domain = some domain ∧ HasHost email host ∧
        foldCase host = foldCase domain.toList := by
  rw [matchesEmail]
  cases hdomain : organization.domain with
  | none => exact iff_of_false nofun fun ⟨_, _, heq, _⟩ => nomatch heq
  | some domain =>
      simp only [Bool.and_eq_true, List.contains_iff_mem, Bool.not_eq_true', beq_iff_eq,
        ← Bool.not_eq_true]
      constructor
      · rintro ⟨⟨hat, honly⟩, hfold⟩
        obtain ⟨front, hfront, hout⟩ := drop_dropWhile_iff.1 ⟨hat, rfl⟩
        exact ⟨domain, _, rfl, ⟨front, hfront, hout, honly⟩, hfold⟩
      · rintro ⟨_, host, ⟨⟩, ⟨front, hfront, hout, honly⟩, hfold⟩
        obtain ⟨hat, rfl⟩ := drop_dropWhile_iff.2 ⟨front, hfront, hout⟩
        exact ⟨⟨hat, honly⟩, hfold⟩

/-- A domain in normal form has nothing that could be folded. -/
theorem Organization.matchesEmail_iff {organization : Organization} (h : organization.Normal)
    {email : String} : organization.matchesEmail email = true ↔
      ∃ domain host, organization.domain = some domain ∧ HasHost email host ∧
        foldCase host = domain.toList := by
  rw [matchesEmail_iff_folded]
  constructor
  · rintro ⟨domain, host, hdomain, hhost, hfold⟩
    exact ⟨domain, host, hdomain, hhost, hfold.trans (h.domain domain hdomain).foldCase⟩
  · rintro ⟨domain, host, hdomain, hhost, hfold⟩
    exact ⟨domain, host, hdomain, hhost, hfold.trans (h.domain domain hdomain).foldCase.symm⟩

/-! ### Stores that requests lead to -/

/-- The stores that requests lead to from the empty one, if the clock stays within the years 0 to
9999: each of them is served alone, or some of them are at work at the same time. -/
inductive Store.Served : Store → Prop
  | empty : Served Store.empty
  | serve {store} (h : Served store) (request : Request) (hplain : request.IsPlain) :
      Served (request.serve store).2
  | run {store} (h : Served store) {ι : Type} [DecidableEq ι] (requests : ι → Request)
      (hplain : ∀ i, (requests i).IsPlain) (schedule : List ι) :
      Served ((Desk.start store requests).run schedule).store

/-- Contents in normal form that can be read back, in which no reference dangles and no name is taken
twice. -/
structure Contents.Proper (contents : Contents) : Prop where
  closed : contents.Closed fun _ => False
  distinct : contents.Distinct
  normal : contents.Normal
  plain : ∀ organization ∈ contents.organizations, organization.IsPlain

theorem Contents.Proper.empty : Contents.empty.Proper where
  closed := .empty
  distinct := .empty
  normal := .empty
  plain := fun _ hmem => by cases hmem

theorem Request.Allows.plain_organization {request : Request} {past : List Event}
    {organization : Organization} {good : Contents → Prop}
    (h : request.Allows past (.saveOrganization organization)) (hclock : request.IsPlain)
    (hreads : ∀ event ∈ past, event.ReadFrom good) : organization.IsPlain := by
  rcases h.origin_organization with ⟨_, _, hplain⟩ | ⟨id, stored, hread, _, hplain⟩
  · exact hplain hclock
  · obtain ⟨old, _, hanswer⟩ := hreads _ hread
    exact hplain hclock (Contents.getOrganization_answer hanswer).2.2

/-- A request with a plain time keeps contents proper. -/
theorem Request.keeps_proper {request : Request} (hclock : request.IsPlain) :
    request.Keeps Contents.Proper := by
  intro past call contents after hallows hreads h hcall
  refine ⟨hcall.closed h.closed fun _ _ hlost => hlost,
    hcall.distinct h.closed (fun _ _ hlost => hlost) h.distinct, ?_, ?_⟩
  · exact request.keeps_normal hallows
      (fun event hmem => (hreads event hmem).mono fun _ hproper => hproper.normal) h.normal hcall
  · refine hcall.organizations_plain h.plain ?_
    rintro organization rfl
    exact hallows.plain_organization hclock hreads

/-- A store that requests lead to is written from proper contents. -/
theorem Store.Served.contents {store : Store} (h : store.Served) :
    ∃ contents : Contents, store = contents.store ∧ contents.Proper := by
  induction h with
  | empty => exact ⟨.empty, rfl, .empty⟩
  | serve _ request hplain ih =>
      obtain ⟨contents, rfl, hproper⟩ := ih
      exact Request.Keeps.serve (Request.keeps_proper hplain) hproper
  | run _ requests hplain schedule ih =>
      obtain ⟨contents, rfl, hproper⟩ := ih
      exact (Desk.kept_run (fun i => Request.keeps_proper (hplain i)) hproper schedule).stored

/-! ### Who may join -/

/-- The organization of an id is active, and the address is in its domain. -/
def Store.Admits (store : Store) (id : Uuid) (email : String) : Prop :=
  ∃ row ∈ store.organizations, row.id = some id.text ∧ row.isActive = .ofBool true ∧
    ∃ domain host, row.domain = some domain ∧ HasHost email host ∧ foldCase host = domain.toList

namespace Contents

variable {contents : Contents} {id : Uuid} {email : String}

theorem canJoin_eq_ok (h : contents.Proper) : (Inquiry.canJoin id email).outcome contents.store =
    .ok true ↔ ∃ organization ∈ contents.organizations, organization.id = id ∧
      organization.isActive = true ∧ organization.matchesEmail email = true := by
  have hanswer := answer_getOrganization_of_plain h.plain id
  have hfound := @organization?_eq_some contents h.closed.organizations_nodup id
  rw [Inquiry.outcome, Inquiry.operation, canJoinByEmail]
  cases hstored : contents.organization? id with
  | none =>
      rw [hstored] at hanswer
      rw [perform_bind_error (perform_getOrganization_missing hanswer)]
      refine iff_of_false nofun fun ⟨organization, hmem, hid, _⟩ => ?_
      cases hstored.symm.trans (hfound.2 ⟨hmem, hid⟩)
  | some stored =>
      rw [hstored] at hanswer
      obtain ⟨hmem, hid⟩ := hfound.1 hstored
      rw [perform_bind (perform_getOrganization hanswer)]
      constructor
      · intro hjoin
        have hboth : (stored.isActive && stored.matchesEmail email) = true := Except.ok.inj hjoin
        rw [Bool.and_eq_true] at hboth
        exact ⟨stored, hmem, hid, hboth⟩
      · rintro ⟨organization, hother, hid', hactive, hmatches⟩
        cases hstored.symm.trans (hfound.2 ⟨hother, hid'⟩)
        have hboth : (stored.isActive && stored.matchesEmail email) = true := by
          rw [hactive, hmatches]
          rfl
        exact congrArg Except.ok hboth

theorem admits_iff (h : contents.Proper) : contents.store.Admits id email ↔
    ∃ organization ∈ contents.organizations, organization.id = id ∧
      organization.isActive = true ∧ organization.matchesEmail email = true := by
  have hactive : ∀ isActive, Activity.ofBool isActive = .ofBool true ↔ isActive = true := by decide
  constructor
  · rintro ⟨row, hrow, hid, hrowActive, hdomain⟩
    obtain ⟨organization, hmem, rfl⟩ := List.mem_map.1 hrow
    exact ⟨organization, hmem, Uuid.text_injective (Option.some.inj hid),
      (hactive _).1 hrowActive,
      (Organization.matchesEmail_iff (h.normal.organizations organization hmem)).2 hdomain⟩
  · rintro ⟨organization, hmem, rfl, hisActive, hmatches⟩
    exact ⟨.ofOrganization organization, List.mem_map_of_mem hmem, rfl, (hactive _).2 hisActive,
      (Organization.matchesEmail_iff (h.normal.organizations organization hmem)).1 hmatches⟩

theorem eq_of_matchesEmail (h : contents.Proper) {a b : Organization}
    (ha : a ∈ contents.organizations) (hb : b ∈ contents.organizations)
    (hmatchA : a.matchesEmail email = true) (hmatchB : b.matchesEmail email = true) :
    a.id = b.id := by
  obtain ⟨domain, host, hdomain, hhost, hfold⟩ :=
    (Organization.matchesEmail_iff (h.normal.organizations a ha)).1 hmatchA
  obtain ⟨other, host', hother, hhost', hfold'⟩ :=
    (Organization.matchesEmail_iff (h.normal.organizations b hb)).1 hmatchB
  have hsame : domain = other := by
    rw [hhost.unique hhost', hfold'] at hfold
    exact String.toList_inj.1 hfold.symm
  by_contra hne
  obtain ⟨_, hdiffers⟩ := h.distinct.organizations a ha b hb hne
  refine hdiffers (by rw [hother]; rfl) ?_
  rw [hdomain, hother, hsame]

end Contents

/-- Whatever requests have led to a store, an address is admitted just by an active organization that
has the domain behind its only at sign, and by no more than one organization. -/
theorem admitted_by_at_most_one {store : Store} (hserved : store.Served) (email : String) :
    (∀ id, (Inquiry.canJoin id email).outcome store = .ok true ↔ store.Admits id email) ∧
    ∀ a b, (Inquiry.canJoin a email).outcome store = .ok true →
      (Inquiry.canJoin b email).outcome store = .ok true → a = b := by
  obtain ⟨contents, rfl, hproper⟩ := hserved.contents
  refine ⟨fun id => ?_, fun a b ha hb => ?_⟩
  · rw [Contents.canJoin_eq_ok hproper, Contents.admits_iff hproper]
  · obtain ⟨first, hfirst, rfl, _, hmatchA⟩ := (Contents.canJoin_eq_ok hproper).1 ha
    obtain ⟨second, hsecond, rfl, _, hmatchB⟩ := (Contents.canJoin_eq_ok hproper).1 hb
    exact Contents.eq_of_matchesEmail hproper hfirst hsecond hmatchA hmatchB

/-- Two organizations with domains, one after another. The case of the letters does not matter. -/
theorem admitted_by_at_most_one_ann :
    let desk := Request.createOrganization ⟨.ofSeconds 60, .small 1⟩ ⟨"Desk", "desk.org", none⟩
    let help := Request.createOrganization ⟨.ofSeconds 61, .small 2⟩ ⟨"Help", "Help.org", none⟩
    let store := (help.serve (desk.serve Store.empty).2).2
    store.Served ∧ (Inquiry.canJoin (.small 2) "ann@HELP.org").outcome store = .ok true ∧
      ∀ id, (Inquiry.canJoin id "ann@HELP.org").outcome store = .ok true → id = .small 2 := by
  intro desk help store
  have hdesk : desk.IsPlain := by
    rintro _ ⟨⟩
    decide
  have hhelp : help.IsPlain := by
    rintro _ ⟨⟩
    decide
  have hserved : store.Served := .serve (.serve .empty desk hdesk) help hhelp
  have hjoin : (Inquiry.canJoin (.small 2) "ann@HELP.org").outcome store = .ok true := by
    decide +kernel
  refine ⟨hserved, hjoin, fun id hid => ?_⟩
  exact (admitted_by_at_most_one hserved "ann@HELP.org").2 id (.small 2) hid hjoin

end ServiceDesk
