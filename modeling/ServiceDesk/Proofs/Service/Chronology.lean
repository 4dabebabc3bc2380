import Mathlib.Data.List.DropRight
import Mathlib.Data.List.Infix
import ServiceDesk.Proofs.Service.Guards
import ServiceDesk.Proofs.Service.Thinning
import ServiceDesk.Proofs.Store.Births

/-!
The chronology of rows. The age of a row is the number of the last commands since which it has been
there; it tells the order in which the rows were inserted, whatever has been deleted and inserted anew.
The flat reads list every row once, by its time of creation and then by its age, so that no command
changes the order of rows that are there before and after it.
-/

namespace ServiceDesk

open Hierarchy Service Operation

/-- What can be done to a store: a call on it, or a request that is served alone. -/
inductive Command where
  | call (call : Store.Call)
  | request (request : Request)

namespace Command

def IsPlain : Command → Prop
  | .call asked => asked.IsPlain
  | .request asked => asked.IsPlain

def run (store : Store) : Command → Store
  | .call asked => (store.answer asked).2
  | .request asked => (asked.serve store).2

/-- The store after some commands on an empty one. -/
def runAll (commands : List Command) : Store := commands.foldl run Store.empty

/-- The number of the last commands after each of which a row of the id was there. -/
def age (layout : Layout) (commands : List Command) (id : Uuid) : Nat :=
  (commands.inits.rtakeWhile fun early => (runAll early).has layout id).length

variable {commands : List Command} {command : Command} {layout : Layout} {id : Uuid}

theorem runAll_concat (commands : List Command) (command : Command) :
    runAll (commands ++ [command]) = run (runAll commands) command := by
  rw [runAll, List.foldl_append]
  rfl

/-- A command makes a row older, unless the row is missing after it. -/
theorem age_concat : age layout (commands ++ [command]) id =
    if (runAll (commands ++ [command])).has layout id then age layout commands id + 1 else 0 := by
  have hinits : (commands ++ [command]).inits = commands.inits ++ [commands ++ [command]] := by
    rw [List.inits_append]
    rfl
  let there (early : List Command) : Bool := (runAll early).has layout id
  rw [age, hinits]
  split
  · rename_i hthere
    rw [List.rtakeWhile_concat_pos there _ _ hthere, List.length_append, List.length_singleton, age]
  · rename_i hmissing
    rw [List.rtakeWhile_concat_neg there _ _ hmissing, List.length_nil]

theorem age_pos_iff : 0 < age layout commands id ↔ (runAll commands).has layout id = true := by
  rcases List.eq_nil_or_concat commands with rfl | ⟨early, last, rfl⟩
  · cases layout <;> exact iff_of_false (Nat.lt_irrefl 0) Bool.false_ne_true
  · rw [List.concat_eq_append, age_concat]
    split
    · rename_i hthere
      exact iff_of_true (Nat.succ_pos _) hthere
    · rename_i hmissing
      exact iff_of_false (Nat.lt_irrefl 0) hmissing

end Command

namespace Contents

variable {contents : Contents} {layout : Layout} {id : Uuid}

theorem has_iff_birth : contents.store.has layout id = true ↔
    id ∈ (contents.births layout).map Birth.id := by
  rw [has_store]
  cases layout with
  | organizations => rw [map_id_organizations, links, keys_linksOf]
  | categories => rw [map_id_categories, links, keys_linksOf]

theorem Readable.births_nodup (h : contents.Readable) (layout : Layout) :
    ((contents.births layout).map Birth.id).Nodup := by
  cases layout with
  | organizations => exact map_id_organizations contents ▸ h.closed.organizations_nodup
  | categories => exact map_id_categories contents ▸ h.closed.categories_nodup

theorem Readable.births_plain (h : contents.Readable) (layout : Layout) :
    ∀ birth ∈ contents.births layout, birth.createdAt.IsPlain := by
  cases layout with
  | organizations =>
      exact List.forall_mem_map.2 fun organization hmem => (h.organizations_plain _ hmem).1
  | categories => exact List.forall_mem_map.2 fun category hmem => (h.categories_plain _ hmem).1

end Contents

namespace Command

variable {contents after : Contents} {commands : List Command} {command : Command} {layout : Layout}

/-- A command with plain times leaves readable contents, in which the births go on. -/
theorem run_continues (hplain : command.IsPlain) (h : contents.Readable) : ∃ after : Contents,
    run contents.store command = after.store ∧ after.Readable ∧
      ∀ layout, Birth.Continues (contents.births layout) (after.births layout) := by
  cases command with
  | call asked =>
      obtain ⟨after, hafter, hcall⟩ := contents.answer_becomes asked
      refine ⟨after, hafter, h.becomes hcall ?_ ?_, hcall.continues h.closed⟩
      · rintro organization rfl
        exact hplain
      · rintro category rfl
        exact hplain
  | request asked =>
      obtain ⟨after, hafter, rfl | ⟨past, call, hallows, hcurrent, hcall⟩⟩ :=
        asked.serve_current contents
      · exact ⟨after, hafter, h, fun _ => .thinned (List.Sublist.refl _)⟩
      · have hreads : ∀ event ∈ past, event.ReadFrom Contents.Readable :=
          fun event hmem => (hcurrent event hmem).readFrom h
        exact ⟨after, hafter, Request.keeps_readable hplain hallows hreads h hcall,
          hcall.continues h.closed⟩

/-- Contents that some commands have led to, in which the older of two rows stands first. -/
structure Chronicle (commands : List Command) (contents : Contents) : Prop where
  store : runAll commands = contents.store
  readable : contents.Readable
  aged : ∀ layout, (contents.births layout).Pairwise fun a b =>
    age layout commands b.id < age layout commands a.id

namespace Chronicle

theorem empty : Chronicle [] Contents.empty where
  store := rfl
  readable := .empty
  aged layout := by cases layout <;> exact List.Pairwise.nil

theorem age_pos_iff (h : Chronicle commands contents) {id : Uuid} :
    0 < age layout commands id ↔ id ∈ (contents.births layout).map Birth.id := by
  rw [Command.age_pos_iff, h.store, Contents.has_iff_birth]

/-- Every row that is there after one more command has become older by one. -/
theorem age_succ (h : runAll (commands ++ [command]) = after.store) :
    ∀ birth ∈ after.births layout,
      age layout (commands ++ [command]) birth.id = age layout commands birth.id + 1 := by
  intro birth hmem
  have hthere : (runAll (commands ++ [command])).has layout birth.id = true := by
    rw [h, Contents.has_iff_birth]
    exact List.mem_map_of_mem hmem
  rw [age_concat, if_pos hthere]

theorem concat (h : Chronicle commands contents) (hplain : command.IsPlain) :
    ∃ after, Chronicle (commands ++ [command]) after ∧
      ∀ layout, Birth.Continues (contents.births layout) (after.births layout) := by
  obtain ⟨after, hafter, hreadable, hcontinues⟩ := run_continues hplain h.readable
  have hstore : runAll (commands ++ [command]) = after.store := by
    rw [runAll_concat, h.store, hafter]
  refine ⟨after, ⟨hstore, hreadable, fun layout => ?_⟩, hcontinues⟩
  refine (hcontinues layout).aged (age_succ hstore) ?_ ?_ (h.aged layout)
  · intro birth hmem
    exact h.age_pos_iff.2 (List.mem_map_of_mem hmem)
  · intro id hmissing
    exact Nat.eq_zero_of_not_pos fun hpos => hmissing (h.age_pos_iff.1 hpos)

/-- Whatever commands with plain times have been run, there is a chronicle of them. -/
theorem exists_of_plain (hplain : ∀ command ∈ commands, command.IsPlain) :
    ∃ contents, Chronicle commands contents := by
  induction commands using List.reverseRecOn with
  | nil => exact ⟨.empty, .empty⟩
  | append_singleton early last ih =>
      obtain ⟨hearly, hlast⟩ := List.forall_mem_append.1 hplain
      obtain ⟨contents, hcontents⟩ := ih hearly
      obtain ⟨after, hafter, -⟩ := hcontents.concat (hlast last (List.mem_singleton_self last))
      exact ⟨after, hafter⟩

end Chronicle

/-- Births of different rows, the earlier one first, and for the same time the older one. -/
structure InCreationOrder (age : Uuid → Nat) (found : List Birth) : Prop where
  once : (found.map Birth.id).Nodup
  ordered : found.Pairwise (Birth.Precedes age)

variable {births later : List Birth}

/-- A read of some rows of a table is in the order of creation. -/
theorem Chronicle.inCreationOrder (h : Chronicle commands contents)
    (hsub : births.Sublist (contents.births layout)) :
    InCreationOrder (age layout commands) ((Birth.sorted births).map Birth.toMicros) where
  once := by
    rw [Birth.map_id_toMicros]
    have hnodup := (h.readable.births_nodup layout).sublist (hsub.map Birth.id)
    exact ((List.mergeSort_perm _ _).map Birth.id).nodup_iff.2 hnodup
  ordered := Birth.pairwise_precedes (fun birth hmem =>
    h.readable.births_plain layout birth (hsub.subset hmem)) ((h.aged layout).sublist hsub)

/-- Two reads, before and after one more command, have the rows that are in both in the same order. -/
theorem Chronicle.keepsOrder (h : Chronicle commands contents)
    (hafter : Chronicle (commands ++ [command]) after)
    (hcontinues : Birth.Continues (contents.births layout) (after.births layout))
    (hsub : births.Sublist (contents.births layout)) (hlater : later.Sublist (after.births layout)) :
    Birth.KeepsOrder (((Birth.sorted births).map Birth.toMicros).map Birth.id)
      (((Birth.sorted later).map Birth.toMicros).map Birth.id) := by
  have hread := h.inCreationOrder hsub
  have hreadLater := hafter.inCreationOrder hlater
  refine Birth.keepsOrder hread.once hreadLater.once ?_ ?_ hread.ordered hreadLater.ordered
  · intro a ha b hb hid
    obtain ⟨last, hlast, rfl⟩ := List.mem_map.1 ha
    obtain ⟨first, hfirst, rfl⟩ := List.mem_map.1 hb
    have hsame : last = first := hcontinues.persists (h.readable.births_nodup layout)
      (hlater.subset (List.mem_mergeSort.1 hlast)) (hsub.subset (List.mem_mergeSort.1 hfirst)) hid
    rw [hsame]
  · intro birth hmem
    obtain ⟨birth, hbirth, rfl⟩ := List.mem_map.1 hmem
    exact Chronicle.age_succ hafter.store birth (hlater.subset (List.mem_mergeSort.1 hbirth))

/-- The flat reads after some commands: they go through, they list all rows of their kind and nothing
else, each of them once, and they are in the order of creation. -/
structure ReadsInOrder (commands : List Command) : Prop where
  organizations : ∃ found, (runAll commands).allOrganizations = .ok found ∧
    (found.map .ofOrganization).Perm (runAll commands).organizations ∧
    InCreationOrder (age .organizations commands) (found.map Organization.birth)
  categories : ∀ owner : Uuid, ∃ found, (runAll commands).categoriesFor owner = .ok found ∧
    (found.map .ofCategory).Perm
      ((runAll commands).categories.filter fun row => row.organizationId == owner.text) ∧
    InCreationOrder (age .categories commands) (found.map Category.birth)

/-- The flat reads of two stores have the rows that are in both in the same order. -/
structure SameOrder (store next : Store) : Prop where
  organizations : ∀ before after, store.allOrganizations = .ok before →
    next.allOrganizations = .ok after →
    Birth.KeepsOrder (before.map (·.id)) (after.map (·.id))
  categories : ∀ owner before after, store.categoriesFor owner = .ok before →
    next.categoriesFor owner = .ok after → Birth.KeepsOrder (before.map (·.id)) (after.map (·.id))

theorem Chronicle.readsInOrder (h : Chronicle commands contents) : ReadsInOrder commands where
  organizations := by
    obtain ⟨found, hfound, hrows, hbirths⟩ :=
      Contents.allOrganizations_births h.readable.organizations_plain
    rw [h.store]
    exact ⟨found, hfound, hrows, hbirths ▸ h.inCreationOrder (List.Sublist.refl _)⟩
  categories owner := by
    obtain ⟨found, hfound, hrows, hbirths⟩ :=
      Contents.categoriesFor_births h.readable.categories_plain owner
    rw [h.store]
    exact ⟨found, hfound, hrows, hbirths ▸ h.inCreationOrder (Birth.owned_sublist _ _)⟩

theorem Chronicle.sameOrder (h : Chronicle commands contents) (hplain : command.IsPlain) :
    SameOrder (runAll commands) (run (runAll commands) command) := by
  obtain ⟨after, hafter, hcontinues⟩ := h.concat hplain
  rw [← runAll_concat, h.store, hafter.store]
  constructor
  · intro before later hbefore hlater
    obtain ⟨found, hfound, -, hbirths⟩ :=
      Contents.allOrganizations_births h.readable.organizations_plain
    obtain ⟨foundLater, hfoundLater, -, hbirthsLater⟩ :=
      Contents.allOrganizations_births hafter.readable.organizations_plain
    obtain rfl : found = before := Except.ok.inj (hfound.symm.trans hbefore)
    obtain rfl : foundLater = later := Except.ok.inj (hfoundLater.symm.trans hlater)
    have hsame := h.keepsOrder hafter (hcontinues .organizations) (List.Sublist.refl _)
      (List.Sublist.refl _)
    rwa [← hbirths, ← hbirthsLater, List.map_map, List.map_map] at hsame
  · intro owner before later hbefore hlater
    obtain ⟨found, hfound, -, hbirths⟩ :=
      Contents.categoriesFor_births h.readable.categories_plain owner
    obtain ⟨foundLater, hfoundLater, -, hbirthsLater⟩ :=
      Contents.categoriesFor_births hafter.readable.categories_plain owner
    obtain rfl : found = before := Except.ok.inj (hfound.symm.trans hbefore)
    obtain rfl : foundLater = later := Except.ok.inj (hfoundLater.symm.trans hlater)
    have hsame := h.keepsOrder hafter (hcontinues .categories) (Birth.owned_sublist owner _)
      (Birth.owned_sublist owner _)
    rwa [← hbirths, ← hbirthsLater, List.map_map, List.map_map] at hsame

/-- Whatever commands with plain times have been run, the flat reads are complete and in the order of
creation, and no command that follows changes the order of rows that persist through it. -/
theorem flat_reads_in_creation_order (hplain : ∀ command ∈ commands, command.IsPlain) :
    ReadsInOrder commands ∧
      ∀ command : Command, command.IsPlain →
        SameOrder (runAll commands) (run (runAll commands) command) := by
  obtain ⟨contents, hcontents⟩ := Chronicle.exists_of_plain hplain
  exact ⟨hcontents.readsInOrder, fun command hcommand => hcontents.sameOrder hcommand⟩

/-- Of two organizations of the same time the first is deleted and inserted anew, and then the other one
is saved with an earlier time of creation. -/
def reinserted : List Command :=
  [.call (.saveOrganization (.small 1 "Desk" none)), .call (.saveOrganization (.small 2 "Help" none)),
    .request (.deleteOrganization (.small 1)), .call (.saveOrganization (.small 1 "Desk" none)),
    .call (.saveOrganization { Organization.small 2 "Post" none with createdAt := .ofSeconds (-60) })]

/-- The organization that was inserted anew is the younger one, and it stays behind the other one when a
third one is saved. -/
theorem flat_reads_in_creation_order_reinserted :
    (∀ command ∈ reinserted, command.IsPlain) ∧
    age .organizations reinserted (.small 1) = 2 ∧ age .organizations reinserted (.small 2) = 4 ∧
    ReadsInOrder reinserted ∧
    SameOrder (runAll reinserted)
      (run (runAll reinserted) (.call (.saveOrganization (.small 3 "Shop" none)))) := by
  have hfirst : (Time.Instant.ofSeconds 0).IsPlain := by decide
  have hearlier : (Time.Instant.ofSeconds (-60)).IsPlain := by decide
  have hplain : ∀ command ∈ reinserted, command.IsPlain := by
    rw [reinserted, List.forall_mem_cons, List.forall_mem_cons, List.forall_mem_cons,
      List.forall_mem_cons, List.forall_mem_singleton]
    exact ⟨⟨hfirst, hfirst⟩, ⟨hfirst, hfirst⟩, nofun, ⟨hfirst, hfirst⟩, hearlier, hfirst⟩
  obtain ⟨hreads, hkeeps⟩ := flat_reads_in_creation_order hplain
  exact ⟨hplain, by decide +kernel, by decide +kernel, hreads, hkeeps _ ⟨hfirst, hfirst⟩⟩

end Command

end ServiceDesk
