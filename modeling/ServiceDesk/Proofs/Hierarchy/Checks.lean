import ServiceDesk.Proofs.Hierarchy.Forest
import ServiceDesk.Service.Organizations

/-!
What the checks of a new parent are worth. A climb that ends has passed every id above, and the
height of an id is not smaller than the number of levels below it. So a move that passes its checks
turns a forest into a forest, and so does a new id below a parent that passes the check of depth,
even if some of the links that were checked have gone since.
-/

namespace ServiceDesk.Lineage

open Hierarchy

variable {lineage : Lineage} {id top : Uuid}

theorem parent?_eq_some {parent : Option Uuid} :
    lineage.parent? id = some parent ↔ (id, parent) ∈ lineage.links := by
  have hnodup := lineage.nodup
  rw [parent?]
  generalize lineage.links = links at hnodup
  induction links with
  | nil => simp
  | cons link rest ih =>
      obtain ⟨key, value⟩ := link
      obtain ⟨hfirst, hrest⟩ := List.nodup_cons.1 hnodup
      rw [List.lookup_cons, List.mem_cons, Prod.mk.injEq]
      by_cases hid : id = key
      · subst hid
        have hout : (id, parent) ∉ rest := fun hmem => hfirst (mem_keys_of_mem hmem)
        simp [hout, eq_comm]
      · have hbeq : (id == key) = false := by simpa using hid
        simp [hbeq, hid, ih hrest]

theorem links_ofItems {α : Type} [Nested α] {items : List α} (h : (items.map Nested.id).Nodup) :
    (ofItems items).links = linksOf items := by
  have hfold : ∀ (rest : List α) (start : Lineage),
      ((start.links.map (·.1)) ++ rest.map Nested.id).Nodup →
      (rest.foldl (fun lineage item => lineage.insert (Nested.id item) (Nested.parentId item))
          start).links =
        start.links ++ linksOf rest := by
    intro rest
    induction rest with
    | nil => simp [linksOf]
    | cons item rest ih =>
        intro start hstart
        have hnew : Nested.id item ∉ start.links.map (·.1) := by
          intro hmem
          exact (List.nodup_append.1 hstart).2.2 _ hmem _ List.mem_cons_self rfl
        have hinsert : (start.insert (Nested.id item) (Nested.parentId item)).links =
            start.links ++ [(Nested.id item, Nested.parentId item)] := by
          simp only [insert, relink, if_neg hnew]
        rw [List.foldl_cons, ih, hinsert]
        · simp [linksOf]
        · rw [hinsert]
          simpa using hstart
  exact hfold items ∅ h

/-! ### Climbing -/

@[simp]
theorem climb_none (start : Uuid) (steps : Nat) : lineage.climb start steps none = .ok [] := by
  cases steps <;> rfl

/-- A climb that ends has found the parent of every id that it met. -/
theorem climb_eq_ok {start : Uuid} {steps : Nat} {above : List Uuid}
    (h : lineage.climb start steps (some id) = .ok above) :
    ∃ fewer next rest, steps = fewer + 1 ∧ (id, next) ∈ lineage.links ∧
      lineage.climb start fewer next = .ok rest ∧ above = id :: rest := by
  cases steps with
  | zero => cases h
  | succ fewer =>
      rw [climb] at h
      split at h
      · cases h
      · rename_i next hnext
        cases hrest : lineage.climb start fewer next with
        | error error => rw [hrest] at h; cases h
        | ok rest =>
            rw [hrest] at h
            cases h
            exact ⟨fewer, next, rest, rfl, parent?_eq_some.1 hnext, hrest, rfl⟩

theorem ancestors_eq_ok {above : List Uuid} (h : lineage.ancestors id = .ok above) :
    ∃ next, (id, next) ∈ lineage.links ∧ lineage.climb id lineage.size next = .ok above := by
  rw [ancestors] at h
  split at h
  · cases h
  · rename_i next hnext
    exact ⟨next, parent?_eq_some.1 hnext, h⟩

/-- A climb that ends tells the level of the id it started from. -/
theorem level_of_climb {start : Uuid} {steps : Nat} {above : List Uuid}
    (h : lineage.climb start steps (some id) = .ok above) :
    Level lineage.links id above.length := by
  induction steps generalizing id above with
  | zero => cases h
  | succ steps ih =>
      obtain ⟨_, next, rest, hsteps, hlink, hrest, rfl⟩ := climb_eq_ok h
      cases hsteps
      cases next with
      | none =>
          cases (climb_none start steps).symm.trans hrest
          exact .root hlink
      | some parent => exact .child hlink (ih hrest)

theorem mem_of_climb {start : Uuid} {steps distance : Nat} {above : List Uuid}
    (h : lineage.climb start steps (some id) = .ok above)
    (hbelow : Below lineage.links top id distance) : top ∈ above := by
  induction steps generalizing id above distance with
  | zero => cases h
  | succ steps ih =>
      obtain ⟨_, next, rest, hsteps, hlink, hrest, rfl⟩ := climb_eq_ok h
      cases hsteps
      cases hbelow with
      | top => exact List.mem_cons_self
      | step _ hup hbelow =>
          cases link_unique lineage.nodup hlink hup
          exact List.mem_cons_of_mem _ (ih hrest hbelow)

theorem level_of_ancestors {above : List Uuid} (h : lineage.ancestors id = .ok above) :
    Level lineage.links id (above.length + 1) := by
  obtain ⟨next, hlink, hclimb⟩ := ancestors_eq_ok h
  cases next with
  | none =>
      cases (climb_none id lineage.size).symm.trans hclimb
      exact .root hlink
  | some parent => exact .child hlink (level_of_climb hclimb)

theorem mem_of_ancestors {above : List Uuid} {steps : Nat} (h : lineage.ancestors id = .ok above)
    (hbelow : Below lineage.links top id steps) : id = top ∨ top ∈ above := by
  obtain ⟨next, hlink, hclimb⟩ := ancestors_eq_ok h
  cases hbelow with
  | top => exact Or.inl rfl
  | step _ hup hbelow =>
      cases link_unique lineage.nodup hlink hup
      exact Or.inr (mem_of_climb hclimb hbelow)

/-! ### Levels below an id -/

theorem leadsTo_iff {level : List Uuid} {link : Uuid × Option Uuid} :
    leadsTo level link = true ↔ ∃ parent ∈ level, link.2 = some parent := by
  obtain ⟨id, parentId⟩ := link
  cases parentId <;> simp [leadsTo]

/-- The ids of the unmet links whose parent is in the level stand on the level below. -/
theorem mem_levelBelow_iff {unmet : Links} {level : List Uuid} :
    id ∈ levelBelow unmet level ↔ ∃ parent ∈ level, (id, some parent) ∈ unmet := by
  constructor
  · intro hmem
    obtain ⟨⟨id, parentId⟩, hlink, rfl⟩ := List.mem_map.1 hmem
    obtain ⟨hunmet, hleads⟩ := List.mem_filter.1 hlink
    obtain ⟨parent, hparent, rfl⟩ := leadsTo_iff.1 hleads
    exact ⟨parent, hparent, hunmet⟩
  · rintro ⟨parent, hparent, hlink⟩
    have hleads := List.mem_filter.2 ⟨hlink, leadsTo_iff.2 ⟨parent, hparent, rfl⟩⟩
    exact List.mem_map_of_mem (f := (·.1)) hleads

theorem mem_beyondBelow {unmet : Links} {level : List Uuid} {parent : Uuid}
    (hlink : (id, some parent) ∈ unmet) (hparent : parent ∉ level) :
    (id, some parent) ∈ beyondBelow unmet level := by
  refine List.mem_filter.2 ⟨hlink, ?_⟩
  simpa [leadsTo] using hparent

/-- Steps upwards into a level, all of them through ids that have not been met. -/
inductive Into (unmet : Links) (level : List Uuid) : Uuid → Nat → Prop
  | start {id : Uuid} (hlevel : id ∈ level) : Into unmet level id 0
  | step {id parent : Uuid} {steps : Nat} (hlink : (id, some parent) ∈ unmet)
      (hinto : Into unmet level parent steps) : Into unmet level id (steps + 1)

theorem Into.level_ne_nil {unmet : Links} {level : List Uuid} {steps : Nat}
    (h : Into unmet level id steps) : level ≠ [] := by
  induction h with
  | start hlevel => exact List.ne_nil_of_mem hlevel
  | step _ _ ih => exact ih

/-- With no id twice, the links that do not lead to a level are those of the ids not below it. -/
theorem mem_beyondBelow_iff {unmet : Links} {level : List Uuid} (hnodup : (keys unmet).Nodup)
    {link : Uuid × Option Uuid} :
    link ∈ beyondBelow unmet level ↔ link ∈ unmet ∧ link.1 ∉ levelBelow unmet level := by
  rw [beyondBelow, List.mem_filter]
  refine and_congr_right fun hlink => ?_
  rw [Bool.not_eq_true', ← Bool.not_eq_true, leadsTo_iff, mem_levelBelow_iff]
  refine not_congr (exists_congr fun parent => and_congr_right fun _ => ?_)
  exact ⟨fun hparent => hparent ▸ hlink, fun hup => link_unique hnodup hlink hup⟩

theorem notMem_keys_beyondBelow {unmet : Links} {level : List Uuid} (hnodup : (keys unmet).Nodup)
    (h : id ∈ levelBelow unmet level) : id ∉ keys (beyondBelow unmet level) := by
  intro hmem
  obtain ⟨parent, hlink⟩ := exists_of_mem_keys hmem
  exact ((mem_beyondBelow_iff hnodup).1 hlink).2 h

/-- The first step down from the level can be spared if the level below is started from. -/
theorem Into.shorten {unmet : Links} {level : List Uuid} {steps : Nat}
    (hmet : ∀ id ∈ level, id ∉ keys unmet) (h : Into unmet level id (steps + 1)) :
    Into (beyondBelow unmet level) (levelBelow unmet level) id steps := by
  induction steps generalizing id with
  | zero =>
      cases h with
      | step hlink hinto =>
          cases hinto with
          | start hlevel => exact .start (mem_levelBelow_iff.2 ⟨_, hlevel, hlink⟩)
  | succ steps ih =>
      cases h with
      | step hlink hinto =>
          refine .step (mem_beyondBelow hlink ?_) (ih hinto)
          intro hlevel
          cases hinto with
          | step hup _ => exact hmet _ hlevel (mem_keys_of_mem hup)

/-- Every walk up into a level is shorter than the number of levels from there downwards. -/
theorem Into.lt_levelsFrom {unmet : Links} {level : List Uuid} {steps : Nat}
    (hnodup : (keys unmet).Nodup) (hmet : ∀ id ∈ level, id ∉ keys unmet)
    (h : Into unmet level id steps) : steps < levelsFrom unmet level := by
  induction steps generalizing unmet level id with
  | zero =>
      unfold levelsFrom
      split <;> omega
  | succ steps ih =>
      have hshort := h.shorten hmet
      have hbeyond : (keys (beyondBelow unmet level)).Nodup :=
        hnodup.sublist (List.filter_sublist.map _)
      have hnext := ih hbeyond (fun _ hmem => notMem_keys_beyondBelow hnodup hmem) hshort
      unfold levelsFrom
      rw [dif_neg hshort.level_ne_nil]
      omega

/-- A walk of so many steps up to an id shows that its height is greater. -/
theorem lt_height {steps : Nat} (h : Below lineage.links top id steps) :
    steps < lineage.height top := by
  have hinto : Into (lineage.links.filter fun link => link.1 ≠ top) [top] id steps := by
    induction h with
    | top => exact .start List.mem_cons_self
    | step hne hlink _ ih => exact .step (List.mem_filter.2 ⟨hlink, by simpa using hne⟩) ih
  refine hinto.lt_levelsFrom (lineage.nodup.sublist (List.filter_sublist.map _)) ?_
  intro other hother hmem
  obtain ⟨parent, hlink⟩ := exists_of_mem_keys hmem
  cases List.mem_singleton.1 hother
  simpa using (List.mem_filter.1 hlink).2

/-! ### Checked changes -/

theorem checkDepth_eq_ok {child parent : Uuid} (h : lineage.checkDepth child (some parent) = .ok ()) :
    ∃ above, lineage.ancestors parent = .ok above ∧
      above.length + 1 + lineage.height child ≤ maxDepth := by
  obtain ⟨above, habove, hroom⟩ := bind_eq_ok.1 h
  split at hroom
  · cases hroom
  · exact ⟨above, habove, by omega⟩

theorem checkAcyclic_eq_ok {child parent : Uuid}
    (h : lineage.checkAcyclic child (some parent) = .ok ()) :
    parent ≠ child ∧ ∃ above, lineage.ancestors parent = .ok above ∧ child ∉ above := by
  rw [checkAcyclic] at h
  split at h
  · cases h
  · rename_i hne
    split at h
    · obtain ⟨above, habove, hout⟩ := bind_eq_ok.1 h
      split at hout
      · cases hout
      · rename_i hnew
        exact ⟨hne, above, habove, hnew⟩
    · cases h

variable {links : Links} {child parent : Uuid}

/-- The check of depth alone is enough if the parent does not lie below the child. Links that the
check has seen may have gone since. -/
theorem forest_of_checkDepth (hforest : Forest links) (hsub : links ⊆ lineage.links)
    (hparent : parent ∈ keys links) (hfar : ∀ steps, ¬Below links child parent steps)
    (hdepth : lineage.checkDepth child (some parent) = .ok ()) :
    Forest (relink links child (some parent)) := by
  obtain ⟨above, habove, hroom⟩ := checkDepth_eq_ok hdepth
  obtain ⟨level, _, hlevel⟩ := hforest.shallow parent hparent
  have hsame := (hlevel.mono hsub).unique lineage.nodup (level_of_ancestors habove)
  refine hforest.graft hlevel hfar ?_
  intro id steps hbelow
  have := lt_height (hbelow.mono hsub)
  omega

theorem forest_of_new (hforest : Forest links) (hsub : links ⊆ lineage.links)
    (hparent : parent ∈ keys links) (hnew : child ∉ keys links)
    (hdepth : lineage.checkDepth child (some parent) = .ok ()) :
    Forest (relink links child (some parent)) := by
  refine forest_of_checkDepth hforest hsub hparent ?_ hdepth
  exact fun steps hbelow => hnew (hforest.top_known hbelow hparent)

end ServiceDesk.Lineage

namespace ServiceDesk.Service

open Hierarchy Lineage

variable {links : Links} {child parent : Uuid}

theorem forest_of_checkMove {lineage : Lineage} (hforest : Forest links)
    (hsub : links ⊆ lineage.links) (hparent : parent ∈ keys links)
    (h : checkMove lineage child parent = .ok ()) : Forest (relink links child (some parent)) := by
  obtain ⟨_, hacyclic, hdepth⟩ := bind_eq_ok.1 h
  obtain ⟨hne, above, habove, hout⟩ := checkAcyclic_eq_ok hacyclic
  refine forest_of_checkDepth hforest hsub hparent ?_ hdepth
  intro steps hbelow
  rcases mem_of_ancestors habove (hbelow.mono hsub) with heq | hmem
  · exact hne heq
  · exact hout hmem

variable {α : Type} [Nested α] {items : List α}

/-- A parent of which the depth was checked is one of the entities that were read. -/
theorem parent_of_checkDepth (hnodup : (keys (linksOf items)).Nodup)
    (h : (Lineage.ofItems items).checkDepth child (some parent) = .ok ()) :
    parent ∈ keys (linksOf items) := by
  obtain ⟨above, habove, _⟩ := checkDepth_eq_ok h
  have hmem := (level_of_ancestors habove).mem_keys
  rw [keys_linksOf] at hnodup
  rwa [links_ofItems hnodup] at hmem

/-- A move that was checked against all entities as they were read. -/
theorem forest_of_move (hforest : Forest links) (hnodup : (keys (linksOf items)).Nodup)
    (hsub : links ⊆ linksOf items) (hparent : parent ∈ keys links)
    (h : checkMove (Lineage.ofItems items) child parent = .ok ()) :
    Forest (relink links child (some parent)) := by
  rw [keys_linksOf] at hnodup
  exact forest_of_checkMove hforest (by rwa [links_ofItems hnodup]) hparent h

/-- A new entity that was checked against all others as they were read. -/
theorem forest_of_insertion (hforest : Forest links) (hnodup : (keys (linksOf items)).Nodup)
    (hsub : links ⊆ linksOf items) (hparent : parent ∈ keys links) (hnew : child ∉ keys links)
    (h : (Lineage.ofItems items).checkDepth child (some parent) = .ok ()) :
    Forest (relink links child (some parent)) := by
  rw [keys_linksOf] at hnodup
  exact forest_of_new hforest (by rwa [links_ofItems hnodup]) hparent hnew h

end ServiceDesk.Service
