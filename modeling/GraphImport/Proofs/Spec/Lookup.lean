import Mathlib.Data.List.Forall2
import GraphImport.Spec.Lookup

/-!
# What mappings provide

A mapping resolves when its constant or its field is not blank. The values of a target for a
fragment and some roles are one for each of its mappings for them that resolves, in their order. A
target provides a value for a fragment and a role when one of its mappings for them resolves, and
this is so exactly when the first value it carries for them is not blank.
-/

namespace GraphImport.Spec

/-- A mapping that carries its constant or its field. -/
def Mapping.Resolves (m : Mapping) : Prop :=
  Text.isBlank? m.constant = false ∨ Text.isBlank? m.field = false

instance (m : Mapping) : Decidable m.Resolves :=
  inferInstanceAs (Decidable (_ ∨ _))

/-- What a mapping resolves to: its constant unless that is blank, and otherwise its field unless
that is blank. -/
inductive Mapping.Carries (m : Mapping) : String → Prop
  | constant {s : String} (h : m.constant = some s) (hfilled : Text.isBlank s = false) :
      m.Carries s
  | field {s : String} (hconstant : Text.isBlank? m.constant = true) (h : m.field = some s)
      (hfilled : Text.isBlank s = false) : m.Carries s

/-- The mappings of a target for a fragment and some roles that resolve. -/
def Target.resolving (t : Target) (fragment : FragmentType) (roles : List RoleType) :
    List Mapping :=
  t.mappings.filter fun m => m.fragment = fragment ∧ m.role ∈ roles ∧ m.Resolves

/-- Whether some mapping of a fragment and role resolves. -/
def Target.Provides (t : Target) (fragment : FragmentType) (role : RoleType) : Prop :=
  ∃ m ∈ t.mappings, m.fragment = fragment ∧ m.role = role ∧ m.Resolves

instance (t : Target) (fragment : FragmentType) (role : RoleType) :
    Decidable (t.Provides fragment role) :=
  inferInstanceAs (Decidable (∃ m ∈ t.mappings, _))

/-- Whether some mapping of a target has a field. -/
def Target.Reads (t : Target) (field : Option String) : Prop :=
  ∃ name, field = some name ∧ ∃ m ∈ t.mappings, m.field = some name

theorem filled?_eq_some {text? : Option String} {s : String} :
    filled? text? = some s ↔ text? = some s ∧ Text.isBlank s = false := by
  cases text? with
  | none => simp [filled?]
  | some text =>
    cases hblank : Text.isBlank text with
    | true =>
      simp only [filled?, hblank, if_true, reduceCtorEq, false_iff, Option.some.injEq]
      rintro ⟨rfl, hs⟩
      exact Bool.noConfusion (hblank.symm.trans hs)
    | false =>
      simp only [filled?, hblank, Bool.false_eq_true, if_false, Option.some.injEq]
      constructor
      · rintro rfl
        exact ⟨rfl, hblank⟩
      · exact fun h => h.1

theorem filled?_isSome (text? : Option String) :
    (filled? text?).isSome = !Text.isBlank? text? := by
  cases text? with
  | none => rfl
  | some text => cases hblank : Text.isBlank text <;> simp [filled?, Text.isBlank?, hblank]

theorem filled?_eq_none {text? : Option String} :
    filled? text? = none ↔ Text.isBlank? text? = true := by
  rw [← Option.isNone_iff_eq_none, ← Option.not_isSome, filled?_isSome, Bool.not_not]

theorem Mapping.carried?_isSome {m : Mapping} : m.carried?.isSome = true ↔ m.Resolves := by
  have hor : m.carried?.isSome = ((filled? m.constant).isSome || (filled? m.field).isSome) := by
    cases hconstant : filled? m.constant <;> simp [carried?, hconstant]
  rw [hor, filled?_isSome, filled?_isSome, Bool.or_eq_true, Bool.not_eq_true', Bool.not_eq_true']
  rfl

/-- A mapping carries nothing blank. -/
theorem Mapping.isBlank_of_carried? {m : Mapping} {s : String} (h : m.carried? = some s) :
    Text.isBlank s = false := by
  cases hconstant : filled? m.constant with
  | some c =>
    have hc : c = s := by simpa [carried?, hconstant] using h
    exact hc ▸ (filled?_eq_some.mp hconstant).2
  | none =>
    have hfield : filled? m.field = some s := by simpa [carried?, hconstant] using h
    exact (filled?_eq_some.mp hfield).2

theorem Target.mem_carried {t : Target} {fragment : FragmentType} {roles : List RoleType}
    {s : String} : s ∈ t.carried fragment roles ↔
      ∃ m ∈ t.mappings, m.fragment = fragment ∧ m.role ∈ roles ∧ m.carried? = some s := by
  simp [carried, List.mem_filterMap, List.mem_filter, and_assoc]

theorem Mapping.carried?_eq_some {m : Mapping} {s : String} :
    m.carried? = some s ↔ m.Carries s := by
  constructor
  · intro h
    cases hconstant : filled? m.constant with
    | some c =>
      have hc : c = s := by simpa [carried?, hconstant] using h
      obtain ⟨hpresent, hfilled⟩ := filled?_eq_some.mp hconstant
      exact hc ▸ .constant hpresent hfilled
    | none =>
      have hfield : filled? m.field = some s := by simpa [carried?, hconstant] using h
      obtain ⟨hpresent, hfilled⟩ := filled?_eq_some.mp hfield
      exact .field (filled?_eq_none.mp hconstant) hpresent hfilled
  · intro h
    cases h with
    | constant hpresent hfilled =>
      simp [carried?, filled?_eq_some.mpr ⟨hpresent, hfilled⟩]
    | field hconstant hpresent hfilled =>
      simp [carried?, filled?_eq_none.mpr hconstant, filled?_eq_some.mpr ⟨hpresent, hfilled⟩]

/-- Of the mappings that resolve each gives one value. -/
theorem Mapping.filterMap_carried? (ms : List Mapping) :
    List.Forall₂ Mapping.Carries (ms.filter fun m => m.Resolves) (ms.filterMap carried?) := by
  induction ms with
  | nil => exact .nil
  | cons m rest ih =>
    rw [List.filter_cons, List.filterMap_cons]
    cases hcarried : m.carried? with
    | none =>
      have hresolves : ¬ m.Resolves := by
        rw [← carried?_isSome, hcarried]
        exact Bool.false_ne_true
      rw [if_neg (mt of_decide_eq_true hresolves)]
      exact ih
    | some s =>
      have hresolves : m.Resolves := by
        rw [← carried?_isSome, hcarried]
        rfl
      rw [if_pos (decide_eq_true hresolves)]
      exact .cons (carried?_eq_some.mp hcarried) ih

section Carried

variable (t : Target) (fragment : FragmentType) (roles : List RoleType)

/-- A target carries one value for each mapping that resolves, in the order of the mappings. -/
theorem Target.carried_resolving :
    List.Forall₂ Mapping.Carries (t.resolving fragment roles) (t.carried fragment roles) := by
  have hresolving : t.resolving fragment roles =
      (t.mappings.filter fun m => m.fragment == fragment && roles.contains m.role).filter
        fun m => m.Resolves := by
    rw [List.filter_filter, resolving]
    apply List.filter_congr
    intro m _
    simp only [Bool.decide_and, List.contains_eq_mem, ← Bool.and_assoc, Bool.and_comm,
      Bool.beq_eq_decide_eq]
  rw [hresolving]
  exact Mapping.filterMap_carried? _

theorem Target.carried_eq_nil :
    t.carried fragment roles = [] ↔
      ∀ m ∈ t.mappings, m.fragment = fragment → m.role ∈ roles → ¬ m.Resolves := by
  have hlength := (t.carried_resolving fragment roles).length_eq
  rw [← List.length_eq_zero_iff, ← hlength, List.length_eq_zero_iff, resolving,
    List.filter_eq_nil_iff]
  simp only [decide_eq_true_eq, not_and]

theorem Target.isBlank_of_mem_carried {t : Target} {fragment : FragmentType}
    {roles : List RoleType} {s : String} (h : s ∈ t.carried fragment roles) :
    Text.isBlank s = false := by
  obtain ⟨m, _, _, _, hcarried⟩ := mem_carried.mp h
  exact Mapping.isBlank_of_carried? hcarried

/-- The first value carried is blank exactly when there is none. -/
theorem Target.isBlank_firstCarried_iff :
    Text.isBlank (t.firstCarried fragment roles) = true ↔
      ∀ m ∈ t.mappings, m.fragment = fragment → m.role ∈ roles → ¬ m.Resolves := by
  rw [← carried_eq_nil, firstCarried]
  cases hcarried : t.carried fragment roles with
  | nil => simp
  | cons s rest =>
    have hs : s ∈ t.carried fragment roles := by rw [hcarried]; exact List.mem_cons_self
    simp [isBlank_of_mem_carried hs]

theorem Target.isBlank_firstCarried (role : RoleType) :
    Text.isBlank (t.firstCarried fragment [role]) = true ↔ ¬ t.Provides fragment role := by
  rw [isBlank_firstCarried_iff]
  simp [Provides]

/-- Only the set of roles counts. -/
theorem Target.carried_congr {roles others : List RoleType}
    (h : ∀ role, role ∈ others ↔ role ∈ roles) :
    t.carried fragment others = t.carried fragment roles := by
  have hcontains (role : RoleType) : others.contains role = roles.contains role := by
    rw [Bool.eq_iff_iff, List.contains_iff_mem, List.contains_iff_mem, h]
  simp only [carried, hcontains]

theorem Target.carried_append (before later : List Mapping) :
    ({ t with mappings := before ++ later } : Target).carried fragment roles =
      ({ t with mappings := before } : Target).carried fragment roles ++
        ({ t with mappings := later } : Target).carried fragment roles := by
  simp only [carried, List.filter_append, List.filterMap_append]

/-- A mapping that does not resolve adds no value where it stands. -/
theorem Target.carried_unresolving {m : Mapping} (h : ¬ m.Resolves) (before later : List Mapping) :
    ({ t with mappings := before ++ m :: later } : Target).carried fragment roles =
      ({ t with mappings := before ++ later } : Target).carried fragment roles := by
  have hnone : ({ t with mappings := [m] } : Target).carried fragment roles = [] := by
    rw [carried_eq_nil, List.forall_mem_singleton]
    exact fun _ _ => h
  rw [List.append_cons, carried_append, carried_append t fragment roles before [m], hnone,
    List.append_nil, ← carried_append]

end Carried

theorem Target.mapsField_eq_true {t : Target} {field : Option String} :
    t.mapsField field = true ↔ t.Reads field := by
  cases field with
  | none => simp [mapsField, Reads]
  | some name => simp [mapsField, Reads]

instance (t : Target) (field : Option String) : Decidable (t.Reads field) :=
  decidable_of_iff _ Target.mapsField_eq_true

theorem JobSpec.source?_isNone {spec : JobSpec} {name : String} :
    (spec.source? name).isNone = true ↔ name ∉ spec.sources.map Source.name := by
  simp [source?]

end GraphImport.Spec
