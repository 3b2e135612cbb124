import GraphImport.Proofs.Rules.FanIn

/-!
# What feeds a property

Where a value is looked up, a filled constant wins over the field of a mapping and blanks count
for nothing. The rule about too many fields takes the field first and takes blanks as they are,
so the two agree on properties whose mappings leave no choice: each gives a constant or a field
and not both.
-/

namespace GraphImport.Rules

open Document (Value)
open Spec

/-- What a mapping resolves to. A constant and a field of the same text are different. -/
inductive Supply
  | constant (text : String)
  | field (name : String)
deriving DecidableEq

/-- How a supply stands in a list of fields: constants are quoted. -/
def Supply.listed : Supply → String
  | .constant text => s!"'{text}'"
  | .field name => name

/-- A filled constant, or else a filled field. -/
def supply? (m : Mapping) : Option Supply :=
  ((filled? m.constant).map .constant).orElse fun _ => (filled? m.field).map .field

/-- A mapping that gives either a filled constant or a filled field, or nothing at all. Beside a
filled field a blank constant says nothing. -/
structure IsClear (m : Mapping) : Prop where
  ofField : m.field.isSome → Text.isBlank? m.field = false ∧ Text.isBlank? m.constant = true
  ofConstant : m.field = none → m.constant.isSome → Text.isBlank? m.constant = false

/-- What a clear mapping enters among the fields is what it resolves to. -/
theorem IsClear.enteredField?_eq {m : Mapping} (h : IsClear m) :
    enteredField? m = (supply? m).map Supply.listed := by
  unfold enteredField? supply?
  cases hfield : m.field with
  | some name =>
    obtain ⟨hname, hconstant⟩ := h.ofField (by rw [hfield]; rfl)
    rw [hfield] at hname
    have hfilled : filled? (some name) = some name := filled?_eq_some.mpr ⟨rfl, hname⟩
    rw [filled?_eq_none.mpr hconstant, hfilled]
    rfl
  | none =>
    cases hconstant : m.constant with
    | none => rfl
    | some text =>
      have htext := h.ofConstant hfield (by rw [hconstant]; rfl)
      rw [hconstant] at htext
      have hfilled : filled? (some text) = some text := filled?_eq_some.mpr ⟨rfl, htext⟩
      rw [hfilled]
      rfl

/-- A property whose mappings are all clear, none of them with a field that is written like the
quoted constant of another. -/
structure ClearlyFed (t : Target) (property : String) : Prop where
  clear : ∀ m ∈ t.mappings.filter (feeds property), IsClear m
  apart : ∀ m ∈ t.mappings.filter (feeds property),
    ∀ other ∈ t.mappings.filter (feeds property), ∀ name text,
      supply? m = some (.field name) → supply? other = some (.constant text) →
      name ≠ (Supply.constant text).listed

/-- Putting different things in other words keeps a conflict, as long as the words differ too. -/
theorem conflict_map {β γ : Type} {entry : Mapping → Option β} {words : Mapping → Option γ}
    (say : β → γ) {ms : List Mapping} (hsay : ∀ m ∈ ms, words m = (entry m).map say)
    (hinj : ∀ m ∈ ms, ∀ other ∈ ms, ∀ a b, entry m = some a → entry other = some b →
      say a = say b → a = b) :
    Conflict words ms ↔ Conflict entry ms := by
  have hsome (m : Mapping) (hm : m ∈ ms) : (words m).isSome = (entry m).isSome := by
    rw [hsay m hm, Option.isSome_map]
  constructor
  · rintro ⟨m, hm, other, hother, hmSome, hotherSome, hne⟩
    rw [hsome m hm] at hmSome
    rw [hsome other hother] at hotherSome
    refine ⟨m, hm, other, hother, hmSome, hotherSome, ?_⟩
    intro heq
    rw [hsay m hm, hsay other hother, heq] at hne
    exact hne rfl
  · rintro ⟨m, hm, other, hother, hmSome, hotherSome, hne⟩
    refine ⟨m, hm, other, hother, (hsome m hm).trans hmSome, (hsome other hother).trans hotherSome,
      ?_⟩
    obtain ⟨a, ha⟩ := Option.isSome_iff_exists.mp hmSome
    obtain ⟨b, hb⟩ := Option.isSome_iff_exists.mp hotherSome
    rw [hsay m hm, hsay other hother, ha, hb]
    intro heq
    exact hne (ha.trans ((congrArg some (hinj m hm other hother a b ha hb
      (Option.some.inj heq))).trans hb.symm))

theorem Supply.constant_listed_injective {text other : String}
    (h : (Supply.constant text).listed = (Supply.constant other).listed) : text = other := by
  have hlists := congrArg String.toList h
  have hsame : text.toList = other.toList := by simpa [Supply.listed, toString] using hlists
  exact String.toList_inj.mp hsame

/-- Of a clearly fed property the fields that are counted differ exactly when the values do. -/
theorem ClearlyFed.conflict_iff_supply {t : Target} {property : String}
    (h : ClearlyFed t property) :
    Conflict enteredField? (t.mappings.filter (feeds property)) ↔
      Conflict supply? (t.mappings.filter (feeds property)) := by
  apply conflict_map Supply.listed
  · intro m hm
    exact (h.clear m hm).enteredField?_eq
  · intro m hm other hother a b ha hb heq
    cases a with
    | constant text =>
      cases b with
      | constant second => rw [Supply.constant_listed_injective heq]
      | field name => exact absurd heq.symm (h.apart other hother m hm name text hb ha)
    | field name =>
      cases b with
      | constant text => exact absurd heq (h.apart m hm other hother name text ha hb)
      | field second => exact congrArg Supply.field heq

/-- A kind that comes from two fields, both of them beside the same constant. -/
def kindDocument : Value := .record [
  ("sources", .list [.record [("name", .text "people")]]),
  ("targets", .list [.record [
    ("name", .text "Person"), ("type", .text "node"), ("source", .text "people"),
    ("mappings", .list [
      .record [("name", .text "Person"), ("constant", .text "Person"),
        ("fragment_type", .text "node"), ("role", .text "label")],
      .record [("name", .text "id"), ("field", .text "id"), ("fragment_type", .text "node"),
        ("role", .text "key")],
      .record [("name", .text "kind"), ("field", .text "a"), ("constant", .text "human"),
        ("fragment_type", .text "node")],
      .record [("name", .text "kind"), ("field", .text "b"), ("constant", .text "human"),
        ("fragment_type", .text "node")]])]])]

def personOfKind : Target where
  name := "Person"
  type := .node
  source := "people"
  mappings := [
    { name := "Person", constant := "Person", fragment := .node, role := .label },
    { name := "id", field := "id", fragment := .node, role := .key },
    { name := "kind", field := "a", constant := "human", fragment := .node },
    { name := "kind", field := "b", constant := "human", fragment := .node }]

def peopleOfKind : JobSpec where
  sources := [{ name := "people" }]
  targets := [personOfKind]

/-- A property can have too many fields although all its mappings resolve to one constant. -/
theorem fields_not_judged_by_supply :
    ¬ ∀ (origin : String) (raw : Value) (spec : JobSpec) (problems : List Problem),
      JobSpec.ofDocument origin raw = .ok spec → problemsOf spec = .ok problems →
      ∀ t ∈ spec.activeTargets, t.type ≠ .customQuery → ∀ property : String,
        ((∃ fields, .tooManyFields property t.name fields ∈ problems) ↔
          Conflict supply? (t.mappings.filter (feeds property))) := by
  intro claim
  have hread : JobSpec.ofDocument unnamedOrigin kindDocument = .ok peopleOfKind := rfl
  have hproblems : problemsOf peopleOfKind = .ok [.tooManyFields "kind" "Person" ["a", "b"]] := rfl
  have hsupply : ¬ Conflict supply? (personOfKind.mappings.filter (feeds "kind")) := by
    decide +kernel
  have hiff := claim _ _ _ _ hread hproblems personOfKind List.mem_cons_self (by decide) "kind"
  exact hsupply (hiff.mp ⟨_, List.mem_cons_self⟩)

/-- A property of an active target has too many fields exactly when two key or property mappings
of its name enter different ones, a field first and else a quoted constant, blank or not. On a
property that is clearly fed this is so exactly when two of them resolve to different values. -/
theorem fields_judged_by_supply_of_clear (origin : String) (raw : Value) (spec : JobSpec)
    (h : JobSpec.ofDocument origin raw = .ok spec) :
    ∃ problems, problemsOf spec = .ok problems ∧ ∀ property target : String,
      ((∃ fields, .tooManyFields property target fields ∈ problems) ↔
        ∃ t ∈ spec.activeTargets, t.type ≠ .customQuery ∧ t.name = target ∧
          Conflict enteredField? (t.mappings.filter (feeds property))) ∧
      ((∀ t ∈ spec.activeTargets, t.type ≠ .customQuery → t.name = target →
          ClearlyFed t property) →
        ((∃ fields, .tooManyFields property target fields ∈ problems) ↔
          ∃ t ∈ spec.activeTargets, t.type ≠ .customQuery ∧ t.name = target ∧
            Conflict supply? (t.mappings.filter (feeds property)))) := by
  have hreported (property target : String) :
      (∃ fields, .tooManyFields property target fields ∈ report spec) ↔
        ∃ t ∈ spec.activeTargets, t.type ≠ .customQuery ∧ t.name = target ∧
          Conflict enteredField? (t.mappings.filter (feeds property)) := by
    constructor
    · rintro ⟨fields, hmem⟩
      obtain ⟨t, ht, htype, hfed⟩ := (fanIn_mem_report (q := .tooManyFields property target fields)
        trivial).mp hmem
      obtain ⟨hname, _, hconflict⟩ := tooManyFields_mem_cardinalityReport.mp hfed
      exact ⟨t, ht, htype, hname.symm, hconflict⟩
    · rintro ⟨t, ht, htype, rfl, hconflict⟩
      exact ⟨_, (fanIn_mem_report (q := .tooManyFields property t.name _) trivial).mpr
        ⟨t, ht, htype, tooManyFields_mem_cardinalityReport.mpr ⟨rfl, rfl, hconflict⟩⟩⟩
  refine ⟨report spec, problemsOf_eq_report (JobSpec.ofDocument_modelled h), ?_⟩
  intro property target
  refine ⟨hreported property target, ?_⟩
  intro hclear
  rw [hreported property target]
  constructor
  · rintro ⟨t, ht, htype, hname, hconflict⟩
    exact ⟨t, ht, htype, hname, (hclear t ht htype hname).conflict_iff_supply.mp hconflict⟩
  · rintro ⟨t, ht, htype, hname, hconflict⟩
    exact ⟨t, ht, htype, hname, (hclear t ht htype hname).conflict_iff_supply.mpr hconflict⟩

/-- A kind that comes from a field and from a constant of the same text. -/
def humanDocument : Value := .record [
  ("targets", .list [.record [
    ("name", .text "Person"), ("type", .text "node"),
    ("mappings", .list [
      .record [("name", .text "kind"), ("field", .text "human"), ("fragment_type", .text "node")],
      .record [("name", .text "kind"), ("constant", .text "human"),
        ("fragment_type", .text "node")]])]])]

def human : Target where
  name := "Person"
  type := .node
  mappings := [
    { name := "kind", field := "human", fragment := .node },
    { name := "kind", constant := "human", fragment := .node }]

theorem human_fed_twice :
    JobSpec.ofDocument unnamedOrigin humanDocument = .ok { targets := [human] } ∧
      ClearlyFed human "kind" ∧
      ∃ problems, problemsOf { targets := [human] } = .ok problems ∧
        ∃ fields, .tooManyFields "kind" "Person" fields ∈ problems := by
  have hread : JobSpec.ofDocument unnamedOrigin humanDocument = .ok { targets := [human] } := rfl
  have hfed : ClearlyFed human "kind" := by
    constructor
    · intro m hm
      constructor <;> revert m <;> decide
    · intro m hm other hother name text hname htext
      have hnames : ∀ m ∈ human.mappings.filter (feeds "kind"),
          (supply? m).all (fun s => s == .field "human" || s == .constant "human") := by decide
      have hlisted : (Supply.constant "human").listed ≠ "human" := by decide
      grind
  obtain ⟨problems, hproblems, hjudged⟩ := fields_judged_by_supply_of_clear _ _ _ hread
  refine ⟨hread, hfed, problems, hproblems, ?_⟩
  refine ((hjudged "kind" "Person").2 ?_).mpr ⟨human, List.mem_cons_self, by decide, rfl, ?_⟩
  · intro t ht _ _
    rw [List.mem_singleton.mp ht]
    exact hfed
  · decide +kernel

end GraphImport.Rules
