import GraphImport.Proofs.Rules.Report
import GraphImport.Rules.Problem

/-!
# Rules are independent

The problems of a job spec that was read are those its report lists, so no rule hides or repeats
what another one says. The message about missing active targets belongs to one problem alone and
stands in the list once or not at all.
-/

namespace GraphImport.Rules

open Document (Value)
open Spec

theorem prefix_append_text {start : List Char} {a : String} (b : String)
    (h : start <+: a.toList) : start <+: (a ++ b).toList := by
  rw [String.toList_append]
  exact h.trans (List.prefix_append a.toList b.toList)

theorem prefix_ofList {start cs : List Char} (h : start <+: cs) :
    start <+: (String.ofList cs).toList := by
  rwa [String.toList_ofList]

/-- What the message of a problem begins with, as far as it takes to tell it from the one about
missing active targets. -/
def Problem.initial : Problem → List Char
  | .noActiveTarget => ['T', 'h']
  | .noSource | .unnamed .target | .sortedTarget _ | .undefinedSource _ => ['T', 'a']
  | .unnamed .source | .sortedSource _ => ['S']
  | .unnamed .action | .unmappedAggregation _ => ['A']
  | .dependencyUnnamed _ _ | .dependencyUnknown _ _ _ => ['A']
  | .duplicateName _ _ => ['D']
  | .nodeFragment _ _ | .edgeFragment _ _ | .endpointRole _ _ => ['I']
  | .noLabel _ | .noKey _ => ['M']
  | .noEdgePart _ _ | .noQuery _ | .queryWithMapping _ | .queryWithTransform _ => ['C']
  | .incompatibleModes _ => ['E']
  | .tooManyFields _ _ _ | .tooManyTypes _ _ _ | .missingOption _ _ => ['P']

theorem Problem.initial_prefix (p : Problem) : p.initial <+: p.message.toList := by
  cases p with
  | unnamed item => cases item <;> decide
  | noSource => exact prefix_ofList (by decide)
  | noActiveTarget => exact prefix_ofList (by decide)
  | _ =>
    refine prefix_append_text _ ?_
    repeat with_reducible refine prefix_append_text _ ?_
    dsimp only [initial]
    exact prefix_ofList (by decide)

/-- The message about missing active targets is that of no other problem. -/
theorem Problem.message_eq_noActiveTarget {p : Problem} :
    p.message = Problem.noActiveTarget.message ↔ p = .noActiveTarget := by
  refine ⟨fun h => ?_, fun h => h ▸ rfl⟩
  have hinitial : p.initial <+: Problem.noActiveTarget.message.toList := h ▸ p.initial_prefix
  cases p with
  | noActiveTarget => rfl
  | unnamed item => cases item <;> exact absurd hinitial (by decide)
  | _ =>
    dsimp only [initial] at hinitial
    exact absurd hinitial (by decide)

theorem count_noActiveTarget_report (spec : JobSpec) :
    (report spec).count .noActiveTarget = if spec.activeTargets = [] then 1 else 0 := by
  have hsources : Problem.noActiveTarget ∉ alongside sourceReport spec.sources :=
    fun h => nomatch part_of_mem_sources h
  have htargets : Problem.noActiveTarget ∉ alongside (targetReport spec) spec.activeTargets :=
    fun h => nomatch part_of_mem_targets h
  have hactions : Problem.noActiveTarget ∉ alongside actionReport spec.actions :=
    fun h => nomatch part_of_mem_actions h
  have hdependencies : Problem.noActiveTarget ∉ spec.actions.flatMap (dependencyReport spec) :=
    fun h => nomatch part_of_mem_dependencies h
  simp only [report, List.count_append, List.count_eq_zero_of_not_mem hsources,
    List.count_eq_zero_of_not_mem htargets, List.count_eq_zero_of_not_mem hactions,
    List.count_eq_zero_of_not_mem hdependencies, reported]
  split <;> rfl

theorem count_map_message (problems : List Problem) :
    (problems.map Problem.message).count Problem.noActiveTarget.message =
      problems.count .noActiveTarget := by
  rw [List.count, List.countP_map, List.count]
  apply List.countP_congr
  intro p _
  simp [Problem.message_eq_noActiveTarget]

/-- The problems of a job spec that was read are what its report lists, in order. The message
about missing active targets is among them once when no target is active, and otherwise not. -/
theorem problemsOf_document_eq_report (origin : String) (raw : Value) (spec : JobSpec)
    (h : JobSpec.ofDocument origin raw = .ok spec) :
    problemsOf spec = .ok (report spec) ∧
      ((report spec).map Problem.message).count Problem.noActiveTarget.message =
        if spec.activeTargets = [] then 1 else 0 := by
  refine ⟨problemsOf_eq_report (JobSpec.ofDocument_modelled h), ?_⟩
  rw [count_map_message, count_noActiveTarget_report]

/-- A job spec that breaks rules of every kind at once. -/
def crowdedDocument : Value := .record [
  ("sources", .list [
    .record [("name", .text " ")],
    .record [("name", .text "rows"), ("query", .text "SELECT 1 order\tby 1")],
    .record [("name", .text "rows")]]),
  ("targets", .list [
    .record [("name", .text "T"), ("type", .text "node"), ("active", .bool false)],
    .record [("name", .text "T"), ("type", .text "node"), ("source", .text "\t"),
      ("transform", .record [("aggregations", .list [.record [("field", .text "sum")]])]),
      ("mappings", .list [
        .record [("name", .text "age"), ("field", .text "a"), ("fragment_type", .text "node")],
        .record [("name", .text "age"), ("field", .text "b"), ("fragment_type", .text "rel")]])],
    .record [("name", .text "T"), ("type", .text "custom_query"), ("source", .text "rows"),
      ("custom_query", .text "RETURN 1")]]),
  ("actions", .list [
    .record [("name", .text "go"), ("type", .text "cypher"), ("execute_after", .text "edge"),
      ("execute_after_name", .text "T")],
    .record [("name", .text "go"), ("type", .text "cypher"),
      ("options", .record [("cypher", .null)])]])]

def crowded : JobSpec where
  sources := [{ name := " " }, { name := "rows", query := "SELECT 1 order\tby 1" },
    { name := "rows" }]
  targets := [
    { name := "T", type := .node, active := false },
    { name := "T", type := .node, source := "\t",
      transform := { aggregations := [{ field := "sum" }] },
      mappings := [
        { name := "age", field := "a", fragment := .node },
        { name := "age", field := "b", fragment := .rel }] },
    { name := "T", type := .customQuery, source := "rows", customQuery := "RETURN 1" }]
  actions := [
    { name := "go", type := .cypher, executeAfter := some .edge, executeAfterName := "T" },
    { name := "go", type := .cypher, options := [("cypher", .null)] }]

theorem crowded_problems :
    JobSpec.ofDocument unnamedOrigin crowdedDocument = .ok crowded ∧
      problemsOf crowded = .ok [
        .unnamed .source, .sortedSource "rows", .duplicateName .source "rows",
        .noSource, .undefinedSource "\t", .nodeFragment .rel "age", .noLabel "T", .noKey "T",
        .unmappedAggregation (some "sum"), .tooManyFields "age" "T" ["a", "b"],
        .duplicateName .target "T", .missingOption .cypher "go", .duplicateName .action "go",
        .dependencyUnknown "go" .edge "T"] ∧
      ((report crowded).map Problem.message).count Problem.noActiveTarget.message = 0 := by
  have hread : JobSpec.ofDocument unnamedOrigin crowdedDocument = .ok crowded := rfl
  obtain ⟨hproblems, hcount⟩ := problemsOf_document_eq_report _ _ _ hread
  exact ⟨hread, hproblems.trans (congrArg _ (by decide +kernel)), hcount.trans (by decide +kernel)⟩

end GraphImport.Rules
