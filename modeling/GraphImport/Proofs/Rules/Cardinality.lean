import GraphImport.Proofs.Rules.FanIn
import GraphImport.Proofs.Rules.Independence

/-!
# What each target adds about its properties

The problems about the cardinality of properties are told target by target. What a node or an edge
adds depends on its own mappings alone: name by name in order of first occurrence, its distinct
fields and then its distinct types, where there are several. A query of its own adds none. The
messages of these problems, and no others, begin with the word that tells them apart.
-/

namespace GraphImport.Rules

open Document (Value)
open Spec

instance (p : Problem) : Decidable p.IsFanIn := by
  unfold Problem.IsFanIn
  split <;> infer_instance

/-- The problems about the cardinality of properties, in order. -/
def fanIns (problems : List Problem) : List Problem :=
  problems.filter fun p => p.IsFanIn

/-- What a target adds about the properties it feeds. -/
def contribution (t : Target) : List Problem :=
  if t.type = .customQuery then []
  else (t.mappings.map Mapping.name).eraseDups.flatMap fun property =>
    reported (1 < (entriesOf t.mappings property).length)
      (.tooManyFields property t.name (entriesOf t.mappings property)) ++
    reported (1 < (typesOf t.mappings property).length)
      (.tooManyTypes property t.name (typesOf t.mappings property))

theorem fanIns_append (before after : List Problem) :
    fanIns (before ++ after) = fanIns before ++ fanIns after :=
  List.filter_append ..

theorem fanIns_flatMap {α : Type} (items : List α) (say : α → List Problem) :
    fanIns (items.flatMap say) = items.flatMap fun item => fanIns (say item) :=
  List.filter_flatMap ..

theorem fanIns_reported (condition : Prop) [Decidable condition] (p : Problem) :
    fanIns (reported condition p) = if p.IsFanIn then reported condition p else [] := by
  rw [fanIns, filter_reported]
  simp only [decide_eq_true_eq]

theorem fanIns_typeReport (t : Target) : fanIns (typeReport t) = [] := by
  unfold typeReport
  cases t.type with
  | unmodelled => rfl
  | _ =>
    simp [nodeReport, edgeReport, queryReport, fanIns_append, fanIns_flatMap, fanIns_reported,
      Problem.IsFanIn]

theorem fanIns_contribution (t : Target) : fanIns (contribution t) = contribution t := by
  rw [contribution]
  split
  · rfl
  · simp [fanIns_flatMap, fanIns_append, fanIns_reported, Problem.IsFanIn]

/-- Beside whatever other targets, a target adds about its properties what it adds alone. -/
theorem fanIns_targetReport (spec : JobSpec) (earlier : List Target) (t : Target) :
    fanIns (targetReport spec earlier t) = contribution t := by
  have hcontribution :
      fanIns (if t.type = .customQuery then [] else cardinalityReport t) = contribution t :=
    fanIns_contribution t
  simp [targetReport, nameReport, referenceReport, aggregationReport, fanIns_append,
    fanIns_flatMap, fanIns_reported, Problem.IsFanIn, fanIns_typeReport, hcontribution]

theorem Problem.IsFanIn.part {p : Problem} (h : p.IsFanIn) : p.part = .targets := by
  cases p <;> cases h <;> rfl

theorem fanIns_report (spec : JobSpec) :
    fanIns (report spec) = spec.activeTargets.flatMap contribution := by
  have hpart (q : Problem) (hq : decide q.IsFanIn = true) : q.part = .targets :=
    (of_decide_eq_true hq).part
  have hsources : fanIns (alongside sourceReport spec.sources) = [] := by
    refine filter_eq_nil_of_part ?_ fun _ => part_of_mem_sources
    intro q hq
    rw [hpart q hq]
    decide
  have htargets : fanIns (alongside (targetReport spec) spec.activeTargets) =
      spec.activeTargets.flatMap contribution :=
    filter_alongside (fanIns_targetReport spec) _
  rw [fanIns, filter_report spec fun q hq => .inr (hpart q hq), ← fanIns, ← fanIns, hsources,
    htargets, List.nil_append]

/-- The word that messages about the cardinality of properties begin with. -/
def fanInWord : List Char := ['P', 'r', 'o', 'p', 'e', 'r', 't', 'y', ' ']

theorem Problem.fanInWord_prefix {p : Problem} (h : p.IsFanIn) :
    fanInWord <+: p.message.toList := by
  cases p <;> cases h
  all_goals
    refine prefix_append_text _ ?_
    repeat with_reducible refine prefix_append_text _ ?_
    exact prefix_ofList (by decide)

theorem Problem.missingOption_begins (type : ActionType) (action : String) :
    ['P', 'a'] <+: (Problem.missingOption type action).message.toList := by
  refine prefix_append_text _ ?_
  repeat with_reducible refine prefix_append_text _ ?_
  exact prefix_ofList (by decide)

/-- Messages about the cardinality of properties are told apart by their first word. -/
theorem Problem.fanInWord_prefix_iff {p : Problem} :
    fanInWord <+: p.message.toList ↔ p.IsFanIn := by
  refine ⟨fun hword => ?_, fanInWord_prefix⟩
  have htell {start : List Char} (hstart : start <+: p.message.toList)
      (hlength : start.length ≤ 2) : start <+: fanInWord :=
    List.prefix_of_prefix_length_le hstart hword (Nat.le_trans hlength (by decide))
  have hshort : p.initial.length ≤ 2 := by
    cases p with
    | unnamed item => cases item <;> decide
    | _ => dsimp only [initial]; decide
  have hinitial : p.initial <+: fanInWord := htell p.initial_prefix hshort
  cases p with
  | tooManyFields | tooManyTypes => trivial
  | missingOption type action =>
    exact absurd (htell (missingOption_begins type action) (by decide)) (by decide)
  | unnamed item => cases item <;> exact absurd hinitial (by decide)
  | _ =>
    dsimp only [initial] at hinitial
    exact absurd hinitial (by decide)

theorem filter_fanInWord_map_message (problems : List Problem) :
    (problems.map Problem.message).filter (fun message => fanInWord.isPrefixOf message.toList) =
      (fanIns problems).map Problem.message := by
  rw [List.filter_map, fanIns]
  congr 1
  apply List.filter_congr
  intro p _
  rw [Function.comp_apply, Bool.eq_iff_iff, List.isPrefixOf_iff_prefix, decide_eq_true_eq]
  exact Problem.fanInWord_prefix_iff

/-- The problems about the cardinality of properties are what the active targets add one after the
other, and so are the messages with their first word. Whatever other targets there are, before or
after, of whatever names, a target adds what its own mappings make of it. -/
theorem fanIns_by_target (spec : JobSpec) (hmodelled : spec.Modelled) :
    ∃ problems, problemsOf spec = .ok problems ∧
      fanIns problems = spec.activeTargets.flatMap contribution ∧
      (problems.map Problem.message).filter
        (fun message => fanInWord.isPrefixOf message.toList) =
          (spec.activeTargets.flatMap contribution).map Problem.message ∧
      ∀ earlier t, fanIns (targetReport spec earlier t) = contribution t := by
  refine ⟨report spec, problemsOf_eq_report hmodelled, fanIns_report spec, ?_,
    fanIns_targetReport spec⟩
  rw [filter_fanInWord_map_message, fanIns_report]

/-- Two nodes and a query of one name. The first node labels an age before it reads it, and reads
it twice. -/
def namesakes : JobSpec where
  sources := [{ name := "people" }]
  targets := [
    { name := "T", type := .node, source := "people", mappings := [
      { name := "age", constant := "Person", fragment := .node, role := .label },
      { name := "id", field := "a", fragment := .node, role := .key },
      { name := "id", field := "b", fragment := .node },
      { name := "age", field := "x", fragment := .node, type := some .integer },
      { name := "age", constant := "x", fragment := .node, type := some .long },
      { name := "age", field := "x", fragment := .node }] },
    { name := "T", type := .node, source := "people", mappings := [
      { name := "id", field := "c", fragment := .node, role := .key },
      { name := "label", constant := "Person", fragment := .node, role := .label }] },
    { name := "T", type := .customQuery, source := "people", mappings := [
      { name := "id", field := "p", fragment := .node },
      { name := "id", field := "q", fragment := .node }] }]

theorem namesakes_fanIns :
    namesakes.Modelled ∧ ∃ problems, problemsOf namesakes = .ok problems ∧
      fanIns problems = [.tooManyFields "age" "T" ["x", "'x'"],
        .tooManyTypes "age" "T" [.integer, .long], .tooManyFields "id" "T" ["a", "b"]] := by
  have hmodelled : namesakes.Modelled := by
    unfold JobSpec.Modelled
    decide
  obtain ⟨problems, hproblems, hfanIns, _⟩ := fanIns_by_target namesakes hmodelled
  exact ⟨hmodelled, problems, hproblems, hfanIns.trans (by decide +kernel)⟩

end GraphImport.Rules
