import GraphImport.Proofs.Rules.Supply

/-!
# Where calculated fields end up

A calculated field is told to be unmapped when no mapping of its target has it for its field. This
is not the question whether some mapping carries it: where values are looked up, a filled constant
beside the field takes its place, and a blank field is as good as none. So a calculated field that
is not told can still end up nowhere, and this is said here without a gap: it is carried exactly
when it is not blank and some mapping has it for its field with no filled constant beside it.
-/

namespace GraphImport.Rules

open Document (Value)
open Spec

/-- Whether some mapping of a target resolves to a field. -/
def CarriesField (t : Target) (name : String) : Prop :=
  ∃ m ∈ t.mappings, supply? m = some (.field name)

instance (t : Target) (name : String) : Decidable (CarriesField t name) :=
  inferInstanceAs (Decidable (∃ m ∈ t.mappings, _))

/-- A mapping resolves to its field unless that is blank or a filled constant takes its place. -/
theorem supply?_eq_field {m : Mapping} {name : String} :
    supply? m = some (.field name) ↔
      m.field = some name ∧ Text.isBlank name = false ∧ Text.isBlank? m.constant = true := by
  rw [← filled?_eq_none, ← and_assoc, ← filled?_eq_some]
  unfold supply?
  cases filled? m.constant with
  | some text => simp
  | none => cases filled? m.field <;> simp

theorem carriesField_iff {t : Target} {name : String} :
    CarriesField t name ↔
      Text.isBlank name = false ∧
        ∃ m ∈ t.mappings, m.field = some name ∧ Text.isBlank? m.constant = true := by
  simp only [CarriesField, supply?_eq_field]
  constructor
  · rintro ⟨m, hm, hfield, hfilled, hconstant⟩
    exact ⟨hfilled, m, hm, hfield, hconstant⟩
  · rintro ⟨hfilled, m, hm, hfield, hconstant⟩
    exact ⟨m, hm, hfield, hfilled, hconstant⟩

theorem unmapped_mem_aggregationReport {t : Target} {field : Option String} :
    .unmappedAggregation field ∈ aggregationReport t ↔
      (∃ a ∈ t.transform.aggregations, a.field = field) ∧ ¬ t.Reads field := by
  simp only [aggregationReport, List.mem_flatMap, mem_reported, Problem.unmappedAggregation.injEq]
  constructor
  · rintro ⟨a, ha, hreads, rfl⟩
    exact ⟨⟨a, ha, rfl⟩, hreads⟩
  · rintro ⟨⟨a, ha, rfl⟩, hreads⟩
    exact ⟨a, ha, hreads, rfl⟩

theorem unmapped_mem_targetReport {spec : JobSpec} {earlier : List Target} {t : Target}
    {field : Option String} :
    .unmappedAggregation field ∈ targetReport spec earlier t ↔
      .unmappedAggregation field ∈ aggregationReport t := by
  have htype : .unmappedAggregation field ∉ typeReport t := by
    unfold typeReport
    cases t.type <;> simp [nodeReport, edgeReport, queryReport, mem_reported]
  have hcardinality : .unmappedAggregation field ∉
      (if t.type = .customQuery then [] else cardinalityReport t) := by
    split <;> simp [cardinalityReport, mem_reported]
  simp [targetReport, nameReport, referenceReport, mem_reported, htype, hcardinality]

/-- A report tells that a field is unmapped when it is for some active target. -/
theorem unmapped_mem_report {spec : JobSpec} {field : Option String} :
    .unmappedAggregation field ∈ report spec ↔
      ∃ t ∈ spec.activeTargets, .unmappedAggregation field ∈ aggregationReport t := by
  have hown (earlier : List Target) (t : Target) :
      .unmappedAggregation field ∈ targetReport spec earlier t ↔
        .unmappedAggregation field ∈ aggregationReport t := unmapped_mem_targetReport
  rw [mem_report]
  exact mem_alongside_of_own hown

/-- A calculated field of an active target is told to be unmapped exactly when no mapping of the
target has it for its field, and the problems tell just what is told of some active target. Some
mapping carries the field exactly when it is not blank and a mapping that has it for its field has
no filled constant. So a field that is carried is never told, and one that is not told is carried
unless it is blank or has a filled constant beside it in every mapping that has it. -/
theorem calculated_field_judged (origin : String) (raw : Value) (spec : JobSpec)
    (h : JobSpec.ofDocument origin raw = .ok spec) :
    ∃ problems, problemsOf spec = .ok problems ∧
      (∀ field, .unmappedAggregation field ∈ problems ↔
        ∃ t ∈ spec.activeTargets, .unmappedAggregation field ∈ aggregationReport t) ∧
      ∀ t ∈ spec.activeTargets, ∀ a ∈ t.transform.aggregations, ∀ name, a.field = some name →
        (.unmappedAggregation (some name) ∈ aggregationReport t ↔
          ∀ m ∈ t.mappings, m.field ≠ some name) ∧
        (CarriesField t name ↔ Text.isBlank name = false ∧
          ∃ m ∈ t.mappings, m.field = some name ∧ Text.isBlank? m.constant = true) := by
  refine ⟨report spec, problemsOf_eq_report (JobSpec.ofDocument_modelled h),
    fun _ => unmapped_mem_report, ?_⟩
  intro t _ a ha name hname
  refine ⟨?_, carriesField_iff⟩
  rw [unmapped_mem_aggregationReport, and_iff_right ⟨a, ha, hname⟩]
  simp [Target.Reads]

/-- Two calculated fields, of which one stands beside a blank constant and the other in no mapping. -/
def salesDocument : Value := .record [
  ("targets", .list [.record [
    ("name", .text "Shop"), ("type", .text "node"),
    ("transform", .record [("aggregations", .list [
      .record [("field", .text "total")], .record [("field", .text "mean")]])]),
    ("mappings", .list [
      .record [("name", .text "sales"), ("field", .text "total"), ("constant", .text "0"),
        ("fragment_type", .text "node")],
      .record [("name", .text "total"), ("field", .text "total"), ("constant", .text " "),
        ("fragment_type", .text "node")]])]])]

def shop : Target where
  name := "Shop"
  type := .node
  transform := { aggregations := [{ field := "total" }, { field := "mean" }] }
  mappings := [
    { name := "sales", field := "total", constant := "0", fragment := .node },
    { name := "total", field := "total", constant := " ", fragment := .node }]

theorem shop_judged :
    JobSpec.ofDocument unnamedOrigin salesDocument = .ok { targets := [shop] } ∧
      CarriesField shop "total" ∧
      ∃ problems, problemsOf { targets := [shop] } = .ok problems ∧
        .unmappedAggregation (some "mean") ∈ problems ∧
        .unmappedAggregation (some "total") ∉ aggregationReport shop := by
  have hread : JobSpec.ofDocument unnamedOrigin salesDocument = .ok { targets := [shop] } := rfl
  obtain ⟨problems, hproblems, hlisted, hjudged⟩ := calculated_field_judged _ _ _ hread
  have htotal := hjudged shop List.mem_cons_self _ List.mem_cons_self "total" rfl
  have hmean := hjudged shop List.mem_cons_self _ (List.mem_cons_of_mem _ List.mem_cons_self)
    "mean" rfl
  refine ⟨hread, htotal.2.mpr (by decide), problems, hproblems, ?_, ?_⟩
  · exact (hlisted _).mpr ⟨shop, List.mem_cons_self, hmean.1.mpr (by decide)⟩
  · rw [htotal.1]
    decide

/-- A total that stands beside a constant, in an otherwise sound target. -/
def totalDocument : Value := .record [
  ("sources", .list [.record [("name", .text "people")]]),
  ("targets", .list [.record [
    ("name", .text "Person"), ("type", .text "node"), ("source", .text "people"),
    ("transform", .record [("aggregations", .list [
      .record [("field", .text "total"), ("expression", .text "SUM(amount)")]])]),
    ("mappings", .list [
      .record [("name", .text "Person"), ("constant", .text "Person"),
        ("fragment_type", .text "node"), ("role", .text "label")],
      .record [("name", .text "id"), ("field", .text "id"), ("fragment_type", .text "node"),
        ("role", .text "key")],
      .record [("name", .text "total"), ("field", .text "total"), ("constant", .text "0"),
        ("fragment_type", .text "node")]])]])]

def personOfTotal : Target where
  name := "Person"
  type := .node
  source := "people"
  transform := { aggregations := [{ field := "total", expression := "SUM(amount)" }] }
  mappings := [
    { name := "Person", constant := "Person", fragment := .node, role := .label },
    { name := "id", field := "id", fragment := .node, role := .key },
    { name := "total", field := "total", constant := "0", fragment := .node }]

def peopleOfTotal : JobSpec where
  sources := [{ name := "people" }]
  targets := [personOfTotal]

/-- A calculated field can end up nowhere although no problem is found at all. -/
theorem calculated_field_dropped :
    ¬ ∀ (origin : String) (raw : Value) (spec : JobSpec) (problems : List Problem),
      JobSpec.ofDocument origin raw = .ok spec → problemsOf spec = .ok problems →
      ∀ t ∈ spec.activeTargets, t.type ≠ .customQuery →
      ∀ a ∈ t.transform.aggregations, ∀ name, a.field = some name →
        .unmappedAggregation (some name) ∉ problems → CarriesField t name := by
  intro claim
  have hread : JobSpec.ofDocument unnamedOrigin totalDocument = .ok peopleOfTotal := rfl
  have hproblems : problemsOf peopleOfTotal = .ok [] := rfl
  have hnowhere : ¬ CarriesField personOfTotal "total" := by decide
  exact hnowhere (claim _ _ _ _ hread hproblems personOfTotal List.mem_cons_self (by decide) _
    List.mem_cons_self "total" rfl List.not_mem_nil)

end GraphImport.Rules
