import Mathlib.Data.List.Nodup
import NotaryNetwork.Proofs.Config.Changes

/-!
# Configurations after changes

After any changes, of which those that fail are left out, members and services stand in the order in
which they first came, services have the versions of their last declaration, and the scheme is the
last one named (`follows_after`). One more event keeps this (`Follows.concat`).
-/

namespace NotaryNetwork.NetworkConfig

/-- The configuration after changes. A change that fails leaves it as it is. -/
def after (c : NetworkConfig) : List Change → NetworkConfig
  | [] => c
  | change :: rest => ((change.apply c).toOption.getD c).after rest

variable {c c' : NetworkConfig}

/-! ## What events make -/

namespace Event

def members : Event → List Identity
  | joined members => members
  | declared _ _ | named _ => []

def declaration? : Event → Option (Identity × List Nat)
  | declared service versions => some (service, versions)
  | joined _ | named _ => none

def schemeName? : Event → Option NonemptyText
  | named schemeName => some schemeName
  | joined _ | declared _ _ => none

end Event

/-- The services with their versions: first those that a configuration declares, and then those of
events, a service as often as it is declared. -/
def declarations (c : NetworkConfig) (events : List Event) : List (Identity × List Nat) :=
  (c.notaries.map fun d => (d.service, d.versions.val)) ++ events.filterMap Event.declaration?

/-- A configuration is what events have made of an earlier one. A service has the versions of its
last declaration, and stands where its first one was. -/
structure Follows (c : NetworkConfig) (events : List Event) (current : NetworkConfig) : Prop where
  members : current.members = distinct (c.members ++ events.flatMap Event.members)
  services : current.services = distinct ((c.declarations events).map (·.1))
  versions : ∀ d ∈ current.notaries,
    ((c.declarations events).reverse.lookup d.service).map distinct = some d.versions.val
  schemeName : current.schemeName = (events.filterMap Event.schemeName?).getLastD c.schemeName

/-! ### One event more -/

namespace Event

variable {e : Event} (h : e.Makes c c')

include h

theorem members_of_makes : c'.members = distinct (c.members ++ e.members) := by
  cases e with
  | joined members => exact h.1
  | declared _ _ | named _ =>
    rw [members, List.append_nil, distinct_of_nodup c.members_nodup]
    exact h.1

theorem services_of_makes :
    c'.services = distinct (c.services ++ e.declaration?.toList.map (·.1)) := by
  have kept : distinct c.services = c.services := distinct_of_nodup c.services_nodup
  cases e with
  | joined _ | named _ =>
    rw [declaration?, Option.toList_none, List.map_nil, List.append_nil, kept]
    exact congrArg (List.map (·.service)) h.2.1
  | declared service versions =>
    obtain ⟨-, ⟨d, rfl, -, notaries⟩, -⟩ := h
    rw [NetworkConfig.services, notaries, services_redeclare, declaration?, Option.toList_some,
      List.map_singleton, distinct_concat, kept]
    rfl

/-- A declaration afterwards is one of before, of another service than the one declared, or it is
the one declared. -/
theorem notaries_of_makes {d : NotaryDeclaration} (hd : d ∈ c'.notaries) :
    (d ∈ c.notaries ∧ ∀ p, e.declaration? = some p → p.1 ≠ d.service) ∨
      ∃ ns, e.declaration? = some (d.service, ns) ∧ d.versions.val = distinct ns := by
  cases e with
  | joined members => exact .inl ⟨h.2.1 ▸ hd, nofun⟩
  | named schemeName => exact .inl ⟨h.2.1 ▸ hd, nofun⟩
  | declared service versions =>
    obtain ⟨-, ⟨new, rfl, value, notaries⟩, -⟩ := h
    rw [notaries] at hd
    rcases mem_redeclare c.services_nodup hd with rfl | ⟨old, apart⟩
    · exact .inr ⟨versions, rfl, value⟩
    · refine .inl ⟨old, fun p same => ?_⟩
      cases same
      exact apart

theorem schemeName_of_makes : c'.schemeName = e.schemeName?.getD c.schemeName := by
  cases e with
  | joined members => exact h.2.2
  | declared service versions => exact h.2.2
  | named schemeName => exact h.2.2

end Event

theorem declarations_concat (c : NetworkConfig) (events : List Event) (e : Event) :
    c.declarations (events ++ [e]) = c.declarations events ++ e.declaration?.toList := by
  rw [declarations, declarations, List.filterMap_append, List.append_assoc]
  cases e <;> rfl

theorem lookup_reverse_concat {α β : Type} [DecidableEq α] (entries : List (α × β)) (key k : α)
    (value : β) : (entries ++ [(key, value)]).reverse.lookup k =
      if k = key then some value else entries.reverse.lookup k := by
  rw [List.reverse_append, List.reverse_singleton, List.singleton_append, List.lookup_cons]
  by_cases same : k = key
  · simp [same]
  · rw [beq_false_of_ne same, if_neg same]

theorem follows_nil (c : NetworkConfig) : Follows c [] c where
  members := by
    rw [List.flatMap_nil, List.append_nil, distinct_of_nodup c.members_nodup]
  services := by
    rw [declarations, List.filterMap_nil, List.append_nil, List.map_map]
    exact (distinct_of_nodup c.services_nodup).symm
  versions d hd := by
    have keys : ((c.declarations []).reverse.map (·.1)).Nodup := by
      rw [declarations, List.filterMap_nil, List.append_nil, List.map_reverse, List.nodup_reverse,
        List.map_map]
      exact c.services_nodup
    have found : (c.declarations []).reverse.lookup d.service = some d.versions.val := by
      rw [lookup_eq_some_iff_mem keys, List.mem_reverse]
      exact List.mem_append_left _ (List.mem_map.mpr ⟨d, hd, rfl⟩)
    rw [found, Option.map_some, distinct_of_nodup d.versions.property.2.2]
  schemeName := rfl

/-- **What events have made is changed by one more event as it says.** -/
theorem Follows.concat {events : List Event} {current : NetworkConfig} {e : Event}
    (h : Follows c events current) (makes : e.Makes current c') :
    Follows c (events ++ [e]) c' where
  members := by
    rw [Event.members_of_makes makes, h.members, distinct_distinct_append, List.flatMap_append,
      List.flatMap_singleton, List.append_assoc]
  services := by
    rw [Event.services_of_makes makes, h.services, distinct_distinct_append, declarations_concat,
      List.map_append]
  versions d hd := by
    rw [declarations_concat]
    rcases Event.notaries_of_makes makes hd with ⟨old, others⟩ | ⟨ns, told, value⟩
    · cases told : e.declaration? with
      | none => simpa using h.versions d old
      | some p =>
        rw [Option.toList_some, lookup_reverse_concat, if_neg (Ne.symm (others p told))]
        exact h.versions d old
    · rw [told, Option.toList_some, lookup_reverse_concat, if_pos rfl, Option.map_some, value]
  schemeName := by
    rw [Event.schemeName_of_makes makes, h.schemeName, List.filterMap_append]
    cases told : e.schemeName? with
    | none => simp [told]
    | some name => simp [told]

theorem follows_after_of_follows {events : List Event} {current : NetworkConfig}
    (h : Follows c events current) (changes : List Change) :
    Follows c (events ++ changes.filterMap Change.event?) (current.after changes) := by
  induction changes generalizing events current with
  | nil => simpa [after] using h
  | cons change changes ih =>
    rw [after]
    cases made : change.apply current with
    | error e =>
      -- What can be read can be applied, so a change that fails has no event.
      have unread : change.event? = none := by
        cases told : change.event? with
        | none => rfl
        | some e =>
          obtain ⟨c', makes⟩ := exists_makes told current
          cases made.symm.trans (apply_eq_ok_iff.mpr ⟨e, told, makes⟩)
      rw [List.filterMap_cons_none unread]
      exact ih h
    | ok c' =>
      obtain ⟨e, told, makes⟩ := apply_eq_ok_iff.mp made
      rw [List.filterMap_cons_some told, List.append_cons]
      exact ih (h.concat makes)

/-- What holds of the parts of every configuration. -/
structure WellFormed (c : NetworkConfig) : Prop where
  members : c.members.Nodup
  services : c.services.Nodup
  versions : ∀ d ∈ c.notaries,
    d.versions.val ≠ [] ∧ (∀ v ∈ d.versions.val, 1 ≤ v) ∧ d.versions.val.Nodup

theorem wellFormed (c : NetworkConfig) : c.WellFormed where
  members := c.members_nodup
  services := c.services_nodup
  versions d _ := d.versions.property

/-- **After any changes a configuration is what the changes that can be read have made of it. What
comes next succeeds if it can be read, whatever is declared already, and it changes one part.** -/
theorem follows_after (c : NetworkConfig) (changes : List Change) :
    Follows c (changes.filterMap Change.event?) (c.after changes) ∧ (c.after changes).WellFormed ∧
      ∀ change : Change, ((∃ c', change.apply (c.after changes) = .ok c') ↔ change.event?.isSome) ∧
        ∀ c', change.apply (c.after changes) = .ok c' → change.Keeps (c.after changes) c' :=
  ⟨by simpa using follows_after_of_follows (follows_nil c) changes, wellFormed _,
    fun _ => ⟨exists_apply_iff, fun _ => keeps_of_apply⟩⟩

end NotaryNetwork.NetworkConfig
