import GraphImport.Rules.Examination

/-!
# Only active targets count

The walk passes over inactive targets, and nothing else reads them: not the names seen so far, not
the question whether any target is active, and not the search for what an action waits for. So the
problems of a job spec depend on its sources, its active targets and its actions alone.
-/

namespace GraphImport.Rules

open Spec

/-- A job spec without its inactive targets. -/
def onlyActive (spec : JobSpec) : JobSpec :=
  { spec with targets := spec.activeTargets }

@[simp] theorem activeTargets_onlyActive (spec : JobSpec) :
    (onlyActive spec).activeTargets = spec.activeTargets := by
  simp [onlyActive, JobSpec.activeTargets]

/-- The walk comes to the same findings and the same end when inactive targets are left out. -/
theorem targetFindings_filter_active (spec : JobSpec) (seen : List String)
    (targets : List Target) :
    targetFindings spec seen (targets.filter Target.active) =
      targetFindings spec seen targets := by
  induction targets generalizing seen with
  | nil => rfl
  | cons t rest ih =>
    cases hactive : t.active with
    | false =>
      rw [List.filter_cons, targetFindings]
      simpa only [hactive, Bool.false_eq_true, if_false] using ih seen
    | true =>
      rw [List.filter_cons, hactive, if_pos rfl, targetFindings, targetFindings, ih, ih]

theorem targetFindings_onlyActive (spec : JobSpec) (seen : List String)
    (targets : List Target) :
    targetFindings (onlyActive spec) seen targets = targetFindings spec seen targets := by
  induction targets generalizing seen with
  | nil => rfl
  | cons t rest ih =>
    have hreference : referenceFindings (onlyActive spec) t = referenceFindings spec t := rfl
    rw [targetFindings, targetFindings, hreference, ih, ih]

theorem resolves_onlyActive (spec : JobSpec) (name : String) (kind : ActionExecuteAfter) :
    resolves (onlyActive spec) name kind = resolves spec name kind := by
  have htargets (type : TargetType) :
      hasActiveTarget (onlyActive spec) type name = hasActiveTarget spec type name := by
    rw [hasActiveTarget, activeTargets_onlyActive, hasActiveTarget]
  cases kind with
  | node | edge | customQuery => exact htargets _
  | _ => rfl

theorem dependencyFindings_onlyActive (spec : JobSpec) (a : Action) :
    dependencyFindings (onlyActive spec) a = dependencyFindings spec a := by
  simp only [dependencyFindings, resolves_onlyActive]

theorem any_activeTargets (spec : JobSpec) :
    (spec.activeTargets.any fun t => t.active) = spec.targets.any fun t => t.active := by
  rw [JobSpec.activeTargets, List.any_filter]
  simp only [Bool.and_self]

/-- What the inactive targets of a job spec are has no part in its problems. -/
theorem problemsOf_onlyActive (spec : JobSpec) :
    problemsOf (onlyActive spec) = problemsOf spec := by
  have hwalk : targetFindings (onlyActive spec) [] (onlyActive spec).targets =
      targetFindings spec [] spec.targets := by
    rw [targetFindings_onlyActive]
    exact targetFindings_filter_active spec [] spec.targets
  have hnone : ((onlyActive spec).targets.any fun t => t.active) =
      spec.targets.any fun t => t.active := any_activeTargets spec
  have hsources : (onlyActive spec).sources = spec.sources := rfl
  have hactions : (onlyActive spec).actions = spec.actions := rfl
  cases hfound : targetFindings spec [] spec.targets with
  | mk findings stop =>
    cases stop with
    | some type => simp only [problemsOf, examine, hwalk, hfound]
    | none =>
      simp only [problemsOf, examine, hwalk, hfound, hnone, hsources, hactions,
        problemsIn_append, problemsIn_flatMap, dependencyFindings_onlyActive, problemsIn_note,
        problemsIn_nil]

/-- Job specs of the same sources, active targets and actions have the same problems. -/
theorem problemsOf_congr {spec other : JobSpec} (hsources : spec.sources = other.sources)
    (htargets : spec.activeTargets = other.activeTargets)
    (hactions : spec.actions = other.actions) : problemsOf spec = problemsOf other := by
  have hsame : onlyActive spec = onlyActive other := by
    rw [onlyActive, onlyActive, hsources, htargets, hactions]
  rw [← problemsOf_onlyActive spec, hsame, problemsOf_onlyActive]

theorem filter_insertIdx_of_neg {α : Type} {p : α → Bool} {a : α} (h : p a = false) (index : Nat)
    (items : List α) : (items.insertIdx index a).filter p = items.filter p := by
  induction items generalizing index with
  | nil => cases index <;> simp [h]
  | cons item rest ih =>
    cases index with
    | zero => simp [h]
    | succ index => rw [List.insertIdx_succ_cons, List.filter_cons, List.filter_cons, ih]

/-- An inactive target of any content, put anywhere among the targets, changes no problem and no
place in their order, nor the target type that ends the walk. -/
theorem problemsOf_insert_inactive (spec : JobSpec) (index : Nat) (t : Target)
    (h : t.active = false) :
    problemsOf { spec with targets := spec.targets.insertIdx index t } = problemsOf spec :=
  problemsOf_congr rfl (filter_insertIdx_of_neg h index spec.targets) rfl

/-- A query of its own that bears the name of the node an action waits for. -/
def indexing : JobSpec where
  sources := [{ name := "people" }]
  targets := [
    { name := "Person", type := .customQuery, source := "people", customQuery := "RETURN 1" }]
  actions := [
    { name := "index", type := .cypher, options := [("cypher", .null)], executeAfter := some .node,
      executeAfterName := "Person" }]

/-- A node of that name that is not active. -/
def shelved : Target where
  name := "Person"
  active := false
  type := .node
  source := "nowhere"

theorem indexing_not_shelved :
    shelved.active = false ∧
      problemsOf { indexing with targets := indexing.targets.insertIdx 0 shelved } =
        .ok [.dependencyUnknown "index" .node "Person"] :=
  ⟨rfl, (problemsOf_insert_inactive indexing 0 shelved rfl).trans rfl⟩

end GraphImport.Rules
