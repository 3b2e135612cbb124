import GraphImport.Proofs.Rules.Report

/-!
# Names mean nothing by themselves

Names are compared with each other and looked at for being blank or empty, and that is all. Under
new names that keep these apart, for sources, targets and actions separately, a job spec has the
same problems, found by the same rules at the same parts and in the same order. Only the names in
them are the new ones.
-/

namespace GraphImport.Rules

open Document (Value)
open Spec

/-- New names for sources, for targets and for actions. Different names stay different, blank ones
blank and filled ones filled, and the empty name alone becomes the empty one. -/
structure Renaming where
  map : NamedItem → String → String
  injective : ∀ item, Function.Injective (map item)
  isBlank_map : ∀ item name, Text.isBlank (map item name) = Text.isBlank name
  map_eq_empty : ∀ item name, map item name = "" ↔ name = ""

/-- What kind of named item an action waits for, if it is a single one. -/
def awaitedItem? : ActionExecuteAfter → Option NamedItem
  | .source => some .source
  | .node | .edge | .customQuery => some .target
  | .action => some .action
  | _ => none

/-- The name of what an action waits for, under new names. -/
def mapAwaited (f : NamedItem → String → String) (kind : ActionExecuteAfter) (name : String) :
    String :=
  (awaitedItem? kind).elim name fun item => f item name

namespace Renaming

def source (r : Renaming) (s : Source) : Source :=
  { s with name := r.map .source s.name }

def target (r : Renaming) (t : Target) : Target :=
  { t with name := r.map .target t.name, source := r.map .source t.source }

def action (r : Renaming) (a : Action) : Action :=
  { a with
    name := r.map .action a.name
    executeAfterName := match a.executeAfter with
      | none => a.executeAfterName
      | some kind => a.executeAfterName.map (mapAwaited r.map kind) }

/-- A job spec under new names, wherever items are declared or referred to. -/
def jobSpec (r : Renaming) (spec : JobSpec) : JobSpec where
  sources := spec.sources.map r.source
  targets := spec.targets.map r.target
  actions := spec.actions.map r.action

end Renaming

/-- A problem under new names. What it says of mappings, fields and types is as it was. -/
@[simp] def Problem.mapNames (f : NamedItem → String → String) : Problem → Problem
  | .duplicateName item name => .duplicateName item (f item name)
  | .sortedSource source => .sortedSource (f .source source)
  | .sortedTarget target => .sortedTarget (f .target target)
  | .undefinedSource source => .undefinedSource (f .source source)
  | .noLabel target => .noLabel (f .target target)
  | .noKey target => .noKey (f .target target)
  | .noEdgePart part target => .noEdgePart part (f .target target)
  | .incompatibleModes target => .incompatibleModes (f .target target)
  | .noQuery target => .noQuery (f .target target)
  | .queryWithMapping target => .queryWithMapping (f .target target)
  | .queryWithTransform target => .queryWithTransform (f .target target)
  | .tooManyFields property target fields => .tooManyFields property (f .target target) fields
  | .tooManyTypes property target types => .tooManyTypes property (f .target target) types
  | .missingOption type action => .missingOption type (f .action action)
  | .dependencyUnnamed action kind => .dependencyUnnamed (f .action action) kind
  | .dependencyUnknown action kind name =>
    .dependencyUnknown (f .action action) kind (mapAwaited f kind name)
  | p => p

/-- The rule that found a problem: what is left of it without the names of items. -/
def Problem.rule (p : Problem) : Problem :=
  p.mapNames fun _ _ => ""

/-- Where a problem is found: at a source, a target or an action by its index, or at the whole. -/
inductive Site
  | source (index : Nat)
  | target (index : Nat)
  | action (index : Nat)
  | whole
deriving DecidableEq, Repr

/-- What is said of each of some items with their indices, and at which it is said. -/
def located {α : Type} (site : Nat → Site) (say : List α → α → List Problem)
    (items : List (α × Nat)) : List (Site × Problem) :=
  alongside (fun earlier item => (say (earlier.map Prod.fst) item.1).map fun p =>
    (site item.2, p)) items

/-- The active targets with their indices among all targets. -/
def activeIndexed (spec : JobSpec) : List (Target × Nat) :=
  spec.targets.zipIdx.filter fun item => item.1.active

/-- The report of a job spec, each problem with the site where it is found. -/
def locatedReport (spec : JobSpec) : List (Site × Problem) :=
  located .source sourceReport spec.sources.zipIdx ++
    located .target (targetReport spec) (activeIndexed spec) ++
    (reported (spec.activeTargets = []) .noActiveTarget).map (Prod.mk .whole) ++
    located .action actionReport spec.actions.zipIdx ++
    located .action (fun _ => dependencyReport spec) spec.actions.zipIdx

theorem Problem.rule_mapNames (f : NamedItem → String → String) (p : Problem) :
    (p.mapNames f).rule = p.rule := by
  cases p with
  | dependencyUnknown action kind name => cases kind <;> rfl
  | _ => rfl

theorem map_reported (f : Problem → Problem) (condition : Prop) [Decidable condition]
    (p : Problem) : (reported condition p).map f = reported condition (f p) := by
  by_cases h : condition <;> simp [reported, h]

section Located

variable {α : Type} {site : Nat → Site} {say say' : List α → α → List Problem}

/-- Without the sites it is what is said of the items. -/
theorem map_snd_located (items : List (α × Nat)) :
    (located site say items).map Prod.snd = alongside say (items.map Prod.fst) := by
  rw [located, map_alongside, alongside_map]
  simp only [List.map_map, Function.comp_def, List.map_id']

/-- When changed items have changed problems, they have them at the same sites. -/
theorem located_map {g : α → α} {f : Problem → Problem}
    (h : ∀ earlier item, say' (earlier.map g) (g item) = (say earlier item).map f)
    (items : List (α × Nat)) :
    located site say' (items.map (Prod.map g id)) =
      (located site say items).map (Prod.map id f) := by
  have hnames (earlier : List (α × Nat)) :
      (earlier.map (Prod.map g id)).map Prod.fst = (earlier.map Prod.fst).map g := by
    simp only [List.map_map, Function.comp_def, Prod.map_fst]
  rw [located, located, alongside_map, map_alongside]
  simp only [hnames, Prod.map_fst, Prod.map_snd, id_eq, h]
  simp only [List.map_map, Function.comp_def, Prod.map_apply, id_eq]

end Located

theorem map_fst_activeIndexed (spec : JobSpec) :
    (activeIndexed spec).map Prod.fst = spec.activeTargets := by
  have hactive : (fun item : Target × Nat => item.1.active) = Target.active ∘ Prod.fst := rfl
  rw [activeIndexed, hactive, ← List.filter_map, List.zipIdx_map_fst, JobSpec.activeTargets]

/-- Without the sites a located report is the report. -/
theorem map_snd_locatedReport (spec : JobSpec) :
    (locatedReport spec).map Prod.snd = report spec := by
  simp only [locatedReport, List.map_append, map_snd_located, List.zipIdx_map_fst,
    map_fst_activeIndexed, alongside_const, List.map_map, Function.comp_def, List.map_id', report]

section Renamed

variable (r : Renaming)

theorem nameReport_renamed (item : NamedItem) (earlier : List String) (name : String) :
    nameReport item (earlier.map (r.map item)) (r.map item name) =
      (nameReport item earlier name).map (Problem.mapNames r.map) := by
  have hseen : r.map item name ∈ earlier.map (r.map item) ↔ name ∈ earlier :=
    List.mem_map_of_injective (r.injective item)
  simp only [nameReport, List.map_append, map_reported, Problem.mapNames, r.isBlank_map, hseen]

theorem sourceNames_renamed (sources : List Source) :
    (sources.map r.source).map Source.name = (sources.map Source.name).map (r.map .source) := by
  simp only [List.map_map, Function.comp_def, Renaming.source]

theorem sourceReport_renamed (earlier : List Source) (s : Source) :
    sourceReport (earlier.map r.source) (r.source s) =
      (sourceReport earlier s).map (Problem.mapNames r.map) := by
  rw [sourceReport, sourceReport, sourceNames_renamed, List.map_append, ← nameReport_renamed,
    map_reported]
  rfl

theorem nodeReport_renamed (t : Target) :
    nodeReport (r.target t) = (nodeReport t).map (Problem.mapNames r.map) := by
  simp only [nodeReport, List.map_append, List.map_flatMap, map_reported, Problem.mapNames]
  rfl

theorem edgeReport_renamed (t : Target) :
    edgeReport (r.target t) = (edgeReport t).map (Problem.mapNames r.map) := by
  simp only [edgeReport, List.map_append, List.map_flatMap, map_reported, Problem.mapNames]
  rfl

theorem queryReport_renamed (t : Target) :
    queryReport (r.target t) = (queryReport t).map (Problem.mapNames r.map) := by
  simp only [queryReport, List.map_append, map_reported, Problem.mapNames]
  rfl

/-- The rules for the type of a target do not look at its names. -/
theorem typeReport_renamed (t : Target) :
    typeReport (r.target t) = (typeReport t).map (Problem.mapNames r.map) := by
  have htype : (r.target t).type = t.type := rfl
  rw [typeReport, typeReport, htype]
  cases t.type with
  | node => exact nodeReport_renamed r t
  | edge => exact edgeReport_renamed r t
  | customQuery => exact queryReport_renamed r t
  | unmodelled name => rfl

theorem aggregationReport_renamed (t : Target) :
    aggregationReport (r.target t) = (aggregationReport t).map (Problem.mapNames r.map) := by
  simp only [aggregationReport, List.map_flatMap, map_reported, Problem.mapNames]
  rfl

theorem cardinalityReport_renamed (t : Target) :
    cardinalityReport (r.target t) = (cardinalityReport t).map (Problem.mapNames r.map) := by
  simp only [cardinalityReport, List.map_flatMap, List.map_append, map_reported,
    Problem.mapNames]
  rfl

theorem name_mem_sources_renamed (spec : JobSpec) (name : String) :
    r.map .source name ∈ (r.jobSpec spec).sources.map Source.name ↔
      name ∈ spec.sources.map Source.name := by
  rw [Renaming.jobSpec, sourceNames_renamed, List.mem_map_of_injective (r.injective .source)]

theorem referenceReport_renamed (spec : JobSpec) (t : Target) :
    referenceReport (r.jobSpec spec) (r.target t) =
      (referenceReport spec t).map (Problem.mapNames r.map) := by
  have hundefined : r.map .source t.source ≠ "" ∧
      r.map .source t.source ∉ (r.jobSpec spec).sources.map Source.name ↔
        t.source ≠ "" ∧ t.source ∉ spec.sources.map Source.name := by
    rw [ne_eq, r.map_eq_empty, name_mem_sources_renamed]
  have hsource : (r.target t).source = r.map .source t.source := rfl
  simp only [referenceReport, hsource, List.map_append, map_reported, Problem.mapNames]
  rw [reported_congr hundefined, r.isBlank_map]
  rfl

theorem targetReport_renamed (spec : JobSpec) (earlier : List Target) (t : Target) :
    targetReport (r.jobSpec spec) (earlier.map r.target) (r.target t) =
      (targetReport spec earlier t).map (Problem.mapNames r.map) := by
  have hnames : (earlier.map r.target).map Target.name =
      (earlier.map Target.name).map (r.map .target) := by
    simp only [List.map_map, Function.comp_def, Renaming.target]
  have hname : (r.target t).name = r.map .target t.name := rfl
  have htype : (r.target t).type = t.type := rfl
  have hproperties : (if t.type = .customQuery then [] else cardinalityReport (r.target t)) =
      (if t.type = .customQuery then [] else cardinalityReport t).map
        (Problem.mapNames r.map) := by
    rw [cardinalityReport_renamed]
    split <;> rfl
  simp only [targetReport, hnames, hname, htype, nameReport_renamed, referenceReport_renamed,
    typeReport_renamed, aggregationReport_renamed, hproperties, List.map_append]

theorem actionReport_renamed (earlier : List Action) (a : Action) :
    actionReport (earlier.map r.action) (r.action a) =
      (actionReport earlier a).map (Problem.mapNames r.map) := by
  have hnames : (earlier.map r.action).map Action.name =
      (earlier.map Action.name).map (r.map .action) := by
    simp only [List.map_map, Function.comp_def, Renaming.action]
  rw [actionReport, actionReport, hnames, List.map_append, ← nameReport_renamed, map_reported]
  rfl

theorem isBlank_mapAwaited (kind : ActionExecuteAfter) (name : String) :
    Text.isBlank (mapAwaited r.map kind name) = Text.isBlank name := by
  unfold mapAwaited
  cases awaitedItem? kind with
  | none => rfl
  | some item => exact r.isBlank_map item name

theorem filled?_mapAwaited (kind : ActionExecuteAfter) (name? : Option String) :
    filled? (name?.map (mapAwaited r.map kind)) =
      (filled? name?).map (mapAwaited r.map kind) := by
  cases name? with
  | none => rfl
  | some name => cases h : Text.isBlank name <;> simp [filled?, isBlank_mapAwaited, h]

theorem activeTargets_renamed (spec : JobSpec) :
    (r.jobSpec spec).activeTargets = spec.activeTargets.map r.target := by
  rw [JobSpec.activeTargets, Renaming.jobSpec, List.filter_map]
  rfl

/-- What an action waits for is there under the new names when it was under the old ones. -/
theorem awaited_renamed (spec : JobSpec) (kind : ActionExecuteAfter) (name : String) :
    Awaited (r.jobSpec spec) kind (mapAwaited r.map kind name) ↔ Awaited spec kind name := by
  have htargets (type : TargetType) :
      (∃ t ∈ (r.jobSpec spec).activeTargets, t.name = r.map .target name ∧ t.type = type) ↔
        ∃ t ∈ spec.activeTargets, t.name = name ∧ t.type = type := by
    simp [activeTargets_renamed, Renaming.target, (r.injective .target).eq_iff]
  cases kind with
  | source =>
    simp [Awaited, mapAwaited, awaitedItem?, Renaming.jobSpec, Renaming.source,
      (r.injective .source).eq_iff]
  | action =>
    simp [Awaited, mapAwaited, awaitedItem?, Renaming.jobSpec, Renaming.action,
      (r.injective .action).eq_iff]
  | node | edge | customQuery => exact htargets _
  | _ => exact Iff.rfl

theorem dependencyReport_renamed (spec : JobSpec) (a : Action) :
    dependencyReport (r.jobSpec spec) (r.action a) =
      (dependencyReport spec a).map (Problem.mapNames r.map) := by
  unfold dependencyReport
  cases hafter : a.executeAfter with
  | none => simp [Renaming.action, hafter]
  | some kind =>
    by_cases hitem : kind.namesSingleItem = true
    · cases hname : filled? a.executeAfterName with
      | none =>
        simp [Renaming.action, hafter, hitem, filled?_mapAwaited, hname, Problem.mapNames]
      | some name =>
        simp [Renaming.action, hafter, hitem, filled?_mapAwaited, hname, Problem.mapNames,
          awaited_renamed, map_reported]
    · simp [Renaming.action, hafter, hitem]

theorem activeIndexed_renamed (spec : JobSpec) :
    activeIndexed (r.jobSpec spec) = (activeIndexed spec).map (Prod.map r.target id) := by
  rw [activeIndexed, Renaming.jobSpec, List.zipIdx_map, List.filter_map]
  rfl

theorem activity_renamed (spec : JobSpec) :
    reported ((r.jobSpec spec).activeTargets = []) .noActiveTarget =
      (reported (spec.activeTargets = []) .noActiveTarget).map (Problem.mapNames r.map) := by
  have hnone : (r.jobSpec spec).activeTargets = [] ↔ spec.activeTargets = [] := by
    rw [activeTargets_renamed, List.map_eq_nil_iff]
  rw [map_reported, reported_congr hnone]
  rfl

/-- Under new names each problem is found where it was, and it is the same but for the names. -/
theorem locatedReport_renamed (spec : JobSpec) :
    locatedReport (r.jobSpec spec) =
      (locatedReport spec).map (Prod.map id (Problem.mapNames r.map)) := by
  have hsources : (r.jobSpec spec).sources.zipIdx =
      spec.sources.zipIdx.map (Prod.map r.source id) := List.zipIdx_map
  have hactions : (r.jobSpec spec).actions.zipIdx =
      spec.actions.zipIdx.map (Prod.map r.action id) := List.zipIdx_map
  have hdependencies : located .action (fun _ => dependencyReport (r.jobSpec spec))
      (spec.actions.zipIdx.map (Prod.map r.action id)) =
        (located .action (fun _ => dependencyReport spec) spec.actions.zipIdx).map
          (Prod.map id (Problem.mapNames r.map)) :=
    located_map (fun _ => dependencyReport_renamed r spec) _
  simp only [locatedReport, hsources, hactions, activeIndexed_renamed, activity_renamed,
    List.map_append, hdependencies, located_map (sourceReport_renamed r),
    located_map (targetReport_renamed r spec), located_map (actionReport_renamed r), List.map_map]
  rfl

theorem modelled_renamed {spec : JobSpec} (h : spec.Modelled) : (r.jobSpec spec).Modelled := by
  intro t ht
  obtain ⟨old, hold, rfl⟩ := List.mem_map.mp ht
  exact h old hold

end Renamed

/-- A job spec that was read has under new names as many problems as before. One after the other
they are found at the same item by the same rule, and they differ in the new names only. So it is
valid under new names just when it was valid under the old ones. -/
theorem problemsOf_renamed (origin : String) (raw : Value) (spec : JobSpec)
    (h : JobSpec.ofDocument origin raw = .ok spec) (r : Renaming) :
    problemsOf spec = .ok ((locatedReport spec).map Prod.snd) ∧
      problemsOf (r.jobSpec spec) = .ok ((locatedReport (r.jobSpec spec)).map Prod.snd) ∧
      (locatedReport (r.jobSpec spec)).length = (locatedReport spec).length ∧
      (locatedReport (r.jobSpec spec)).map (Prod.map id Problem.rule) =
        (locatedReport spec).map (Prod.map id Problem.rule) ∧
      locatedReport (r.jobSpec spec) =
        (locatedReport spec).map (Prod.map id (Problem.mapNames r.map)) ∧
      (problemsOf (r.jobSpec spec) = .ok [] ↔ problemsOf spec = .ok []) := by
  have hmodelled := JobSpec.ofDocument_modelled h
  have hown : problemsOf spec = .ok ((locatedReport spec).map Prod.snd) := by
    rw [map_snd_locatedReport, problemsOf_eq_report hmodelled]
  have hrenamed : problemsOf (r.jobSpec spec) =
      .ok ((locatedReport (r.jobSpec spec)).map Prod.snd) := by
    rw [map_snd_locatedReport, problemsOf_eq_report (modelled_renamed r hmodelled)]
  refine ⟨hown, hrenamed, ?_, ?_, locatedReport_renamed r spec, ?_⟩
  · rw [locatedReport_renamed, List.length_map]
  · rw [locatedReport_renamed, List.map_map]
    apply List.map_congr_left
    rintro ⟨site, p⟩ _
    exact congrArg (Prod.mk site) (p.rule_mapNames r.map)
  · rw [hown, hrenamed, locatedReport_renamed]
    simp only [Except.ok.injEq, List.map_eq_nil_iff]

theorem isBlank_append_of_filled (intro : String) {name : String}
    (h : Text.isBlank name = false) : Text.isBlank (intro ++ name) = false := by
  rw [Text.isBlank] at h ⊢
  rw [String.toList_append, List.all_append, h, Bool.and_false]

/-- Every filled name is introduced by what it names. -/
def introduced (item : NamedItem) (name : String) : String :=
  if Text.isBlank name then name else item.word ++ ": " ++ name

theorem isBlank_introduced (item : NamedItem) (name : String) :
    Text.isBlank (introduced item name) = Text.isBlank name := by
  unfold introduced
  split
  case isTrue => rfl
  case isFalse hfilled =>
    rw [Bool.not_eq_true] at hfilled
    rw [isBlank_append_of_filled _ hfilled, hfilled]

/-- The renaming that introduces every filled name. -/
def introductions : Renaming where
  map := introduced
  isBlank_map := isBlank_introduced
  injective item name other heq := by
    have hblank : Text.isBlank name = Text.isBlank other := by
      rw [← isBlank_introduced item, heq, isBlank_introduced]
    unfold introduced at heq
    rw [hblank] at heq
    split at heq
    · exact heq
    · exact (String.append_right_inj _).mp heq
  map_eq_empty item name := by
    constructor
    · intro hempty
      have hblank : Text.isBlank name := by
        rw [← isBlank_introduced item, hempty, Text.isBlank_empty]
      rwa [introduced, if_pos hblank] at hempty
    · rintro rfl
      rfl

/-- One word names a source, two targets and two actions. -/
def homonymsDocument : Value := .record [
  ("sources", .list [
    .record [("name", .text "rows")],
    .record [("name", .text " ")]]),
  ("targets", .list [
    .record [("name", .text "rows"), ("active", .bool false), ("type", .text "node"),
      ("source", .text "rows")],
    .record [("name", .text "rows"), ("type", .text "custom_query"), ("source", .text "lines"),
      ("custom_query", .text "RETURN 1")]]),
  ("actions", .list [
    .record [("name", .text "rows"), ("type", .text "cypher"), ("execute_after", .text "source"),
      ("execute_after_name", .text "rows"), ("options", .record [("cypher", .null)])],
    .record [("name", .text "rows"), ("type", .text "cypher"), ("execute_after", .text "node"),
      ("execute_after_name", .text "rows"), ("options", .record [("cypher", .null)])]])]

def homonyms : JobSpec where
  sources := [{ name := "rows" }, { name := " " }]
  targets := [
    { name := "rows", active := false, type := .node, source := "rows" },
    { name := "rows", type := .customQuery, source := "lines", customQuery := "RETURN 1" }]
  actions := [
    { name := "rows", type := .cypher, options := [("cypher", .null)],
      executeAfter := some .source, executeAfterName := "rows" },
    { name := "rows", type := .cypher, options := [("cypher", .null)],
      executeAfter := some .node, executeAfterName := "rows" }]

theorem homonyms_introduced :
    JobSpec.ofDocument unnamedOrigin homonymsDocument = .ok homonyms ∧
      problemsOf homonyms = .ok [
        .unnamed .source, .undefinedSource "lines", .duplicateName .action "rows",
        .dependencyUnknown "rows" .node "rows"] ∧
      problemsOf (introductions.jobSpec homonyms) = .ok [
        .unnamed .source, .undefinedSource "source: lines",
        .duplicateName .action "action: rows",
        .dependencyUnknown "action: rows" .node "target: rows"] ∧
      (locatedReport homonyms).map Prod.fst = [.source 1, .target 1, .action 1, .action 1] := by
  have hread : JobSpec.ofDocument unnamedOrigin homonymsDocument = .ok homonyms := rfl
  have hlocated : locatedReport homonyms = [
      (.source 1, .unnamed .source), (.target 1, .undefinedSource "lines"),
      (.action 1, .duplicateName .action "rows"),
      (.action 1, .dependencyUnknown "rows" .node "rows")] := rfl
  obtain ⟨hown, hrenamed, _, _, hsame, _⟩ :=
    problemsOf_renamed _ _ _ hread introductions
  rw [hsame, hlocated] at hrenamed
  rw [hlocated] at hown
  refine ⟨hread, hown, hrenamed, ?_⟩
  rw [hlocated]
  rfl

end GraphImport.Rules
