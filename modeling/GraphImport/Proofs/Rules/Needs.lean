import GraphImport.Proofs.Rules.Report

/-!
# What targets need

A node needs a label and a key, an edge a key at either end and a type. Whether one of these is
missing is judged by the first value that a target carries for it. That this value is blank says
no less than that no mapping for it resolves, since nothing blank is ever carried before, between
or after what the other mappings resolve to.
-/

namespace GraphImport.Rules

open Spec

/-- A fragment and a role that a target has to carry a value for, and what is said when it does
not. -/
structure Need where
  fragment : FragmentType
  role : RoleType
  problem : Problem
deriving DecidableEq

/-- What a target of its type needs. -/
def needs (t : Target) : List Need :=
  match t.type with
  | .node => [⟨.node, .label, .noLabel t.name⟩, ⟨.node, .key, .noKey t.name⟩]
  | .edge => [⟨.source, .key, .noEdgePart .sourceKey t.name⟩,
      ⟨.target, .key, .noEdgePart .targetKey t.name⟩, ⟨.rel, .type, .noEdgePart .relType t.name⟩]
  | .customQuery | .unmodelled _ => []

/-- Whether a problem is an unmet need. -/
def Problem.isUnmet : Problem → Bool
  | .noLabel _ | .noKey _ | .noEdgePart _ _ => true
  | _ => false

theorem filter_isUnmet_typeReport (t : Target) :
    (typeReport t).filter Problem.isUnmet = (needs t).flatMap fun need =>
      reported (Text.isBlank (t.firstCarried need.fragment [need.role])) need.problem := by
  unfold typeReport needs
  cases t.type <;>
    simp [nodeReport, edgeReport, queryReport, List.filter_flatMap, filter_reported,
      Problem.isUnmet, Target.isBlank_firstCarried]

/-- Of a target it is said that something is missing when its first value for it is blank, and
nothing else is. -/
theorem filter_isUnmet_targetReport (spec : JobSpec) (earlier : List Target) (t : Target) :
    (targetReport spec earlier t).filter Problem.isUnmet = (needs t).flatMap fun need =>
      reported (Text.isBlank (t.firstCarried need.fragment [need.role])) need.problem := by
  have hname : (nameReport .target (earlier.map Target.name) t.name).filter
      Problem.isUnmet = [] := by
    simp [nameReport, filter_reported, Problem.isUnmet]
  have hreference : (referenceReport spec t).filter Problem.isUnmet = [] := by
    simp [referenceReport, filter_reported, Problem.isUnmet]
  have haggregations : (aggregationReport t).filter Problem.isUnmet = [] := by
    simp [aggregationReport, List.filter_flatMap, filter_reported, Problem.isUnmet]
  have hproperties : (if t.type = .customQuery then [] else cardinalityReport t).filter
      Problem.isUnmet = [] := by
    split <;> simp [cardinalityReport, List.filter_flatMap, filter_reported, Problem.isUnmet]
  simp only [targetReport, List.filter_append, hname, hreference, haggregations, hproperties,
    filter_isUnmet_typeReport, List.nil_append, List.append_nil]

theorem filter_isUnmet_report (spec : JobSpec) :
    (report spec).filter Problem.isUnmet = spec.activeTargets.flatMap fun t =>
      (needs t).flatMap fun need =>
        reported (Text.isBlank (t.firstCarried need.fragment [need.role])) need.problem := by
  have hpart (q : Problem) (hq : q.isUnmet = true) : q.part = .sources ∨ q.part = .targets := by
    cases q <;> cases hq <;> exact .inr rfl
  have hsource (earlier : List Source) (s : Source) :
      (sourceReport earlier s).filter Problem.isUnmet = [] := by
    simp [sourceReport, nameReport, filter_reported, Problem.isUnmet]
  rw [filter_report spec hpart, filter_alongside hsource,
    filter_alongside (filter_isUnmet_targetReport spec)]
  simp

/-- For every target, fragment and roles the values are one for each mapping of the fragment and
one of the roles that resolves: its constant unless that is blank, and otherwise its field. They
stand in the order of the mappings, none of them is blank, only the set of the roles counts, and
the values for mappings put one after the other are put one after the other. So the first value is
blank exactly when no such mapping resolves, wherever others stand, and what is missing in a
target of a job spec is told by this and by nothing else. -/
theorem values_by_mapping (t : Target) (fragment : FragmentType) (roles : List RoleType) :
    List.Forall₂ Mapping.Carries (t.resolving fragment roles) (t.carried fragment roles) ∧
    (∀ s ∈ t.carried fragment roles, Text.isBlank s = false) ∧
    (∀ others : List RoleType, (∀ role, role ∈ others ↔ role ∈ roles) →
      t.carried fragment others = t.carried fragment roles) ∧
    (∀ before later, ({ t with mappings := before ++ later } : Target).carried fragment roles =
      ({ t with mappings := before } : Target).carried fragment roles ++
        ({ t with mappings := later } : Target).carried fragment roles) ∧
    (Text.isBlank (t.firstCarried fragment roles) = true ↔
      ∀ m ∈ t.mappings, m.fragment = fragment → m.role ∈ roles → ¬ m.Resolves) ∧
    (∀ m before later, ¬ m.Resolves →
      ({ t with mappings := before ++ m :: later } : Target).firstCarried fragment roles =
        ({ t with mappings := before ++ later } : Target).firstCarried fragment roles) ∧
    ∀ spec : JobSpec, spec.Modelled → ∃ problems, problemsOf spec = .ok problems ∧
      problems.filter Problem.isUnmet = spec.activeTargets.flatMap fun active =>
        (needs active).flatMap fun need =>
          reported (Text.isBlank (active.firstCarried need.fragment [need.role]))
            need.problem := by
  refine ⟨t.carried_resolving fragment roles, fun _ => Target.isBlank_of_mem_carried,
    fun _ => t.carried_congr fragment, t.carried_append fragment roles,
    t.isBlank_firstCarried_iff fragment roles, ?_, ?_⟩
  · intro m before later hm
    rw [Target.firstCarried, Target.firstCarried, t.carried_unresolving fragment roles hm]
  · exact fun spec hmodelled => ⟨_, problemsOf_eq_report hmodelled, filter_isUnmet_report spec⟩

/-- A mapping with a blank constant and no field. -/
def blankStart : Mapping where
  name := "from"
  constant := "\u3000"
  fragment := .source
  role := .key

/-- Blank, absent and filled texts before and after the values of an edge, whose type is blank. -/
def following : Target where
  name := "FOLLOWS"
  type := .edge
  mappings := [
    blankStart,
    { name := "from", field := "follower", constant := "", fragment := .source, role := .key },
    { name := "to", field := "ignored", constant := "anyone", fragment := .target, role := .key },
    { name := "from", field := "alias", fragment := .source, role := .label },
    { name := "kind", field := "\t", fragment := .rel, role := .type }]

theorem following_values :
    following.carried .source [.label, .key] = ["follower", "alias"] ∧
      following.carried .source [.key, .label, .key] = following.carried .source [.label, .key] ∧
      Text.isBlank "alias" = false ∧ ¬ blankStart.Resolves ∧
      following.firstCarried .source [.label, .key] = "follower" ∧
      ({ targets := [following] } : JobSpec).Modelled ∧
      ∃ problems, problemsOf { targets := [following] } = .ok problems ∧
        problems.filter Problem.isUnmet = [.noEdgePart .relType "FOLLOWS"] := by
  obtain ⟨_, hfilled, hroles, _, _, hskipped, hlacks⟩ :=
    values_by_mapping following .source [.label, .key]
  have hblank : ¬ blankStart.Resolves := by decide
  have hmodelled : ({ targets := [following] } : JobSpec).Modelled := by
    unfold JobSpec.Modelled
    decide
  obtain ⟨problems, hproblems, hkept⟩ := hlacks _ hmodelled
  refine ⟨by decide, hroles _ ?_, hfilled "alias" (by decide), hblank, ?_, hmodelled, problems,
    hproblems, hkept.trans (by decide)⟩
  · intro role
    cases role <;> decide
  · exact (hskipped blankStart [] _ hblank).trans (by decide)

end GraphImport.Rules
