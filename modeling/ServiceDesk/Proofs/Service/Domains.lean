import ServiceDesk.Proofs.Service.Joining
import ServiceDesk.Proofs.Text.Lowering

/-!
Whether a domain that was accepted admits its own addresses. The domain is lower-cased by the full
mapping before it is stored, but an address is only folded before it is compared. So the text that
was given for the domain is no longer recognised behind an at sign just if it has a character that
becomes an ASCII letter by the full mapping alone.
-/

namespace ServiceDesk

open Text Time

namespace Rules

variable {raw text : String}

theorem toList_domain (h : domain raw = .ok (some text)) :
    text.toList = lowerChars (trim raw).toList := by
  rw [domain] at h
  split at h
  · cases h
  split at h
  · cases h
  split at h
  · cases h
  · cases h
    rw [String.toList_ofList, toList_trim]

end Rules

namespace Organization

/-- The domain of the organization was set from this text, be it when the organization was made or
when its domain was replaced. -/
inductive TakesDomain (raw : String) : Organization → Prop
  | made {id name parentId now organization}
      (h : ofInput id name raw parentId now = .ok organization) : TakesDomain raw organization
  | replaced {before : Organization} {now organization}
      (h : before.changeDomain raw now = .ok organization) : TakesDomain raw organization

variable {raw front : String} {organization : Organization}

theorem TakesDomain.domain_eq (h : TakesDomain raw organization) :
    Rules.domain raw = .ok organization.domain := by
  cases h with
  | made h =>
      obtain ⟨_, _, _, hdomain, _, rfl⟩ := ofInput_eq_ok_iff.1 h
      exact hdomain
  | replaced h =>
      obtain ⟨domain, hdomain, hchanged⟩ := bind_eq_ok.1 h
      cases hchanged
      exact hdomain

/-- An address in the text of a domain has nothing but the text behind its at sign. -/
theorem hasHost_domain {domain : String} (h : Rules.domain raw = .ok (some domain))
    (hfront : '@' ∉ front.toList) : HasHost (front ++ "@" ++ trim raw) (trim raw).toList := by
  refine ⟨front.toList, by simp, hfront, fun hmem => ?_⟩
  have hdomain := Rules.domain_eq_ok h
  have hascii : ∀ c ∈ lowerChars (trim raw).toList, IsAscii c := by
    intro c hc
    rw [← Rules.toList_domain h] at hc
    exact (hdomain.ascii hc).1
  have hat : '@' ∈ domain.toList := by
    rw [Rules.toList_domain h, lowerChars_eq_map hascii]
    exact List.mem_map.2 ⟨'@', hmem, by decide +kernel⟩
  exact (hdomain.ascii hat).2 rfl

/-- The addresses in the text that a domain was set from are admitted, unless the text has a KELVIN
SIGN, which was stored as a small k. -/
theorem admits_own_addresses_iff (htakes : TakesDomain raw organization)
    (hdomain : organization.domain ≠ none) (hfront : '@' ∉ front.toList) :
    organization.matchesEmail (front ++ "@" ++ trim raw) = true ↔ kelvinSign ∉ (trim raw).toList := by
  obtain ⟨domain, hsome⟩ := Option.ne_none_iff_exists'.1 hdomain
  have hrule : Rules.domain raw = .ok (some domain) := hsome ▸ htakes.domain_eq
  have hnormal := Rules.domain_eq_ok hrule
  have hlower := Rules.toList_domain hrule
  have hhost : HasHost (front ++ "@" ++ trim raw) (trim raw).toList := hasHost_domain hrule hfront
  have hascii : ∀ c ∈ lowerChars (trim raw).toList, IsAscii c :=
    fun c hmem => (hnormal.ascii (hlower ▸ hmem)).1
  rw [matchesEmail_iff_folded, ← foldCase_eq_lowerChars_iff hascii, ← hlower]
  constructor
  · rintro ⟨other, host, hother, hother', hfold⟩
    cases hsome.symm.trans hother
    rw [hother'.unique hhost] at hfold
    exact hfold.trans hnormal.foldCase
  · intro hfold
    exact ⟨domain, _, hsome, hhost, hfold.trans hnormal.foldCase.symm⟩

/-- The case of the letters A to Z and the blanks around a domain do not matter. -/
theorem admits_own_addresses_ann :
    let before : Organization := ⟨.small 1, "Desk", none, none, true, .ofSeconds 0, .ofSeconds 0⟩
    let organization := { before with domain := some "desk.org", updatedAt := .ofSeconds 60 }
    TakesDomain " Desk.ORG " organization ∧ organization.domain ≠ none ∧ '@' ∉ "ann".toList ∧
      organization.matchesEmail ("ann" ++ "@" ++ trim " Desk.ORG ") = true := by
  intro before organization
  have hreplaced : before.changeDomain " Desk.ORG " (.ofSeconds 60) = .ok organization := by
    decide +kernel
  have htakes : TakesDomain " Desk.ORG " organization := .replaced hreplaced
  have hdomain : organization.domain ≠ none := nofun
  have hfront : '@' ∉ "ann".toList := by decide
  have hout : kelvinSign ∉ (trim " Desk.ORG ").toList := by decide +kernel
  exact ⟨htakes, hdomain, hfront, (admits_own_addresses_iff htakes hdomain hfront).2 hout⟩

/-- With a KELVIN SIGN for the letter k a domain is accepted but refuses the very address. -/
theorem kelvin_domain_refuses_itself :
    ∃ organization : Organization,
      ofInput (.small 1) "Example Ltd" "\u212A.com" none (.ofSeconds 0) = .ok organization ∧
      organization.domain = some "k.com" ∧
      organization.matchesEmail ("a" ++ "@" ++ trim "\u212A.com") = false := by
  refine ⟨⟨.small 1, "Example Ltd", some "k.com", none, true, .ofSeconds 0, .ofSeconds 0⟩, ?_, rfl, ?_⟩
  · decide +kernel
  · decide +kernel

end Organization

end ServiceDesk
