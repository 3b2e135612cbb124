import GraphImport.Proofs.Rules.FanIn
import GraphImport.Proofs.Rules.OrderBy
import Mathlib.Data.List.Induction
import Mathlib.Data.List.Nodup

/-!
# Sound job specs

What the rules ask of a job spec, said of its parts and not of the walk through them. A job spec
has an empty report exactly when it is sound.
-/

namespace GraphImport.Rules

open Spec

/-- Names that are filled, no two of them the same. -/
structure NamedApart (names : List String) : Prop where
  filled : ∀ name ∈ names, Text.isBlank name = false
  nodup : names.Nodup

/-- Whether a query, if there is one, does without sorting clauses. -/
def Unsorted (query? : Option String) : Prop :=
  ∀ query, query? = some query → ¬ HoldsClause query.toList

structure SoundNode (t : Target) : Prop where
  fragments : ∀ m ∈ t.mappings, m.fragment = .node
  label : t.Provides .node .label
  key : t.Provides .node .key

structure SoundEdge (t : Target) : Prop where
  fragments : ∀ m ∈ t.mappings, m.fragment ≠ .node
  endpoints : ∀ m ∈ t.mappings, m.fragment = .source ∨ m.fragment = .target →
    m.role = .key ∨ m.role = .label
  sourceKey : t.Provides .source .key
  targetKey : t.Provides .target .key
  relType : t.Provides .rel .type
  modes : ¬ (t.saveMode = .merge ∧ t.edgeNodesMatchMode = .create)

structure SoundQuery (t : Target) : Prop where
  query : ∃ query, t.customQuery = some query ∧ Text.isBlank query = false
  mappings : t.mappings = []
  transform : t.transform = {}

def SoundType (t : Target) : Prop :=
  match t.type with
  | .node => SoundNode t
  | .edge => SoundEdge t
  | .customQuery => SoundQuery t
  | .unmodelled _ => False

/-- What is asked of an active target, its name aside. -/
structure SoundTarget (spec : JobSpec) (t : Target) : Prop where
  source : Text.isBlank t.source = false ∧ (spec.sources.map Source.name).count t.source = 1
  unsorted : Unsorted t.transform.sql
  ofType : SoundType t
  aggregations : ∀ a ∈ t.transform.aggregations, t.Reads a.field
  fields : t.type ≠ .customQuery →
    ∀ property, ¬ Conflict enteredField? (t.mappings.filter (feeds property))
  types : t.type ≠ .customQuery →
    ∀ property, ¬ Conflict Mapping.type (t.mappings.filter (feeds property))

/-- What is asked of an action, its name aside. -/
structure SoundAction (spec : JobSpec) (a : Action) : Prop where
  option : requiredOption a.type ∈ a.options.map Prod.fst
  dependency : ∀ kind, a.executeAfter = some kind → kind.namesSingleItem →
    ∃ name, a.executeAfterName = some name ∧ Text.isBlank name = false ∧ Awaited spec kind name

/-- A job spec that obeys all rules. -/
structure Sound (spec : JobSpec) : Prop where
  sourceNames : NamedApart (spec.sources.map Source.name)
  sources : ∀ s ∈ spec.sources, Unsorted s.query
  active : spec.activeTargets ≠ []
  targetNames : NamedApart (spec.activeTargets.map Target.name)
  targets : ∀ t ∈ spec.activeTargets, SoundTarget spec t
  actionNames : NamedApart (spec.actions.map Action.name)
  actions : ∀ a ∈ spec.actions, SoundAction spec a

section Named

variable {α : Type} {name : α → String} {items : List α}

theorem alongside_eq_nil {β : Type} {say : List α → α → List β} :
    alongside say items = [] ↔
      ∀ earlier item later, items = earlier ++ item :: later → say earlier item = [] := by
  simp only [List.eq_nil_iff_forall_not_mem, mem_alongside, not_exists, not_and]
  exact ⟨fun h earlier item later hsplit b => h b earlier item later hsplit,
    fun h b earlier item later hsplit => h earlier item later hsplit b⟩

theorem forall_mem_iff_forall_split {P : α → Prop} :
    (∀ x ∈ items, P x) ↔ ∀ earlier x later, items = earlier ++ x :: later → P x := by
  constructor
  · rintro h earlier x later rfl
    exact h x (by simp)
  · intro h x hx
    obtain ⟨earlier, later, hsplit⟩ := List.append_of_mem hx
    exact h earlier x later hsplit

/-- Names differ when each differs from those before it. -/
theorem nodup_map_iff_forall_split : (items.map name).Nodup ↔
    ∀ earlier x later, items = earlier ++ x :: later → name x ∉ earlier.map name := by
  constructor
  · rintro h earlier x later rfl hx
    rw [List.map_append, List.map_cons, List.nodup_append] at h
    exact h.2.2 (name x) hx (name x) List.mem_cons_self rfl
  · intro h
    induction items using List.reverseRecOn with
    | nil => simp
    | append_singleton rest x ih =>
      rw [List.map_append, List.map_singleton, ← List.concat_eq_append, List.nodup_concat]
      refine ⟨h rest x [] rfl, ih ?_⟩
      rintro earlier y later rfl
      exact h earlier y (later ++ [x]) (by simp)

theorem nameReport_eq_nil {item : NamedItem} {earlier : List String} {name : String} :
    nameReport item earlier name = [] ↔ Text.isBlank name = false ∧ name ∉ earlier := by
  rw [nameReport, List.append_eq_nil_iff, reported_eq_nil, reported_eq_nil, Bool.not_eq_true]

/-- Nothing is said of items with names when the names are apart and nothing else is said. -/
theorem alongside_named_eq_nil (item : NamedItem) (name : α → String) (more : α → List Problem)
    (items : List α) :
    alongside (fun earlier x => nameReport item (earlier.map name) (name x) ++ more x) items = [] ↔
      NamedApart (items.map name) ∧ ∀ x ∈ items, more x = [] := by
  simp only [alongside_eq_nil, List.append_eq_nil_iff, nameReport_eq_nil]
  constructor
  · intro h
    refine ⟨⟨?_, ?_⟩, ?_⟩
    · rw [List.forall_mem_map]
      exact forall_mem_iff_forall_split.mpr fun earlier x later hsplit =>
        (h earlier x later hsplit).1.1
    · exact nodup_map_iff_forall_split.mpr fun earlier x later hsplit =>
        (h earlier x later hsplit).1.2
    · exact forall_mem_iff_forall_split.mpr fun earlier x later hsplit =>
        (h earlier x later hsplit).2
  · rintro ⟨hnames, hmore⟩ earlier x later hsplit
    have hx : x ∈ items := by simp [hsplit]
    exact ⟨⟨hnames.filled _ (List.mem_map_of_mem hx),
      nodup_map_iff_forall_split.mp hnames.nodup earlier x later hsplit⟩, hmore x hx⟩

end Named

theorem not_sorts {query? : Option String} : ¬ sorts query? = true ↔ Unsorted query? := by
  rw [sorts_eq_true, not_exists]
  simp only [not_and, Unsorted]

theorem isBlank?_eq_false {text? : Option String} :
    Text.isBlank? text? = false ↔ ∃ text, text? = some text ∧ Text.isBlank text = false := by
  cases text? <;> simp [Text.isBlank?]

theorem nodeReport_eq_nil {t : Target} : nodeReport t = [] ↔ SoundNode t := by
  simp only [nodeReport, List.append_eq_nil_iff, List.flatMap_eq_nil_iff, reported_eq_nil,
    Classical.not_not]
  constructor
  · rintro ⟨⟨hfragments, hlabel⟩, hkey⟩
    exact ⟨hfragments, hlabel, hkey⟩
  · intro h
    exact ⟨⟨h.fragments, h.label⟩, h.key⟩

theorem not_misfitsEndpoint {m : Mapping} : ¬ MisfitsEndpoint m ↔
    (m.fragment = .source ∨ m.fragment = .target → m.role = .key ∨ m.role = .label) := by
  simp only [MisfitsEndpoint, List.mem_cons, List.not_mem_nil, or_false, not_and,
    Classical.not_not]

theorem edgeReport_eq_nil {t : Target} : edgeReport t = [] ↔ SoundEdge t := by
  simp only [edgeReport, List.append_eq_nil_iff, List.flatMap_eq_nil_iff, reported_eq_nil,
    Classical.not_not, not_misfitsEndpoint]
  constructor
  · rintro ⟨⟨⟨⟨hmappings, hsource⟩, htarget⟩, htype⟩, hmodes⟩
    exact ⟨fun m hm => (hmappings m hm).1, fun m hm => (hmappings m hm).2, hsource, htarget, htype,
      hmodes⟩
  · intro h
    exact ⟨⟨⟨⟨fun m hm => ⟨h.fragments m hm, h.endpoints m hm⟩, h.sourceKey⟩, h.targetKey⟩,
      h.relType⟩, h.modes⟩

theorem queryReport_eq_nil {t : Target} : queryReport t = [] ↔ SoundQuery t := by
  simp only [queryReport, List.append_eq_nil_iff, reported_eq_nil, Bool.not_eq_true,
    isBlank?_eq_false, ne_eq, Classical.not_not]
  constructor
  · rintro ⟨⟨hquery, hmappings⟩, htransform⟩
    exact ⟨hquery, hmappings, htransform⟩
  · intro h
    exact ⟨⟨h.query, h.mappings⟩, h.transform⟩

theorem typeReport_eq_nil {t : Target}
    (hmodelled : t.type ∈ (Vocabulary.members : List TargetType)) :
    typeReport t = [] ↔ SoundType t := by
  unfold typeReport SoundType
  cases htype : t.type with
  | node => exact nodeReport_eq_nil
  | edge => exact edgeReport_eq_nil
  | customQuery => exact queryReport_eq_nil
  | unmodelled name => simp [htype, Vocabulary.members] at hmodelled

theorem aggregationReport_eq_nil {t : Target} :
    aggregationReport t = [] ↔ ∀ a ∈ t.transform.aggregations, t.Reads a.field := by
  simp only [aggregationReport, List.flatMap_eq_nil_iff, reported_eq_nil, Classical.not_not]

/-- Nothing is said of the properties of a target when none of them has a conflict. -/
theorem cardinalityReport_eq_nil {t : Target} : cardinalityReport t = [] ↔
    ∀ property, ¬ Conflict enteredField? (t.mappings.filter (feeds property)) ∧
      ¬ Conflict Mapping.type (t.mappings.filter (feeds property)) := by
  simp only [cardinalityReport, List.flatMap_eq_nil_iff, List.append_eq_nil_iff, reported_eq_nil,
    entriesOf, typesOf, ← conflict_iff]
  constructor
  · intro h property
    exact ⟨fun hfields => (h property hfields.mem_names).1 hfields,
      fun htypes => (h property htypes.mem_names).2 htypes⟩
  · exact fun h property _ => h property

/-- As names are apart, a name that is there at all is there once. -/
theorem count_eq_one_iff_mem {names : List String} (hnodup : names.Nodup) {name : String} :
    names.count name = 1 ↔ name ∈ names := by
  rw [hnodup.count]
  by_cases h : name ∈ names <;> simp [h]

theorem referenceReport_eq_nil {spec : JobSpec} {t : Target}
    (hnames : NamedApart (spec.sources.map Source.name)) : referenceReport spec t = [] ↔
      (Text.isBlank t.source = false ∧ (spec.sources.map Source.name).count t.source = 1) ∧
        Unsorted t.transform.sql := by
  rw [referenceReport, List.append_eq_nil_iff, List.append_eq_nil_iff, reported_eq_nil,
    reported_eq_nil, reported_eq_nil, Bool.not_eq_true, not_sorts,
    count_eq_one_iff_mem hnames.nodup]
  refine and_congr_left fun _ => and_congr_right fun hblank => ?_
  constructor
  · intro hdefined
    refine Classical.byContradiction fun hmissing => hdefined ⟨?_, hmissing⟩
    intro hempty
    rw [hempty, Text.isBlank_empty] at hblank
    exact Bool.noConfusion hblank
  · intro hdefined h
    exact h.2 hdefined

theorem dependencyReport_eq_nil {spec : JobSpec} {a : Action} :
    dependencyReport spec a = [] ↔
      ∀ kind, a.executeAfter = some kind → kind.namesSingleItem →
        ∃ name, a.executeAfterName = some name ∧ Text.isBlank name = false ∧
          Awaited spec kind name := by
  unfold dependencyReport
  cases hafter : a.executeAfter with
  | none => simp
  | some kind =>
    by_cases hitem : kind.namesSingleItem = true
    · cases hname : filled? a.executeAfterName with
      | none =>
        have hmissing (name : String) :
            ¬ (a.executeAfterName = some name ∧ Text.isBlank name = false) := by
          rw [← filled?_eq_some, hname]
          simp
        simp only [hitem, if_true, List.cons_ne_nil, Option.some.injEq, forall_eq', forall_const,
          false_iff, not_exists]
        exact fun name h => hmissing name ⟨h.1, h.2.1⟩
      | some name =>
        obtain ⟨hpresent, hfilled⟩ := filled?_eq_some.mp hname
        simp [hitem, reported_eq_nil, hpresent, hfilled]
    · simp [hitem]

theorem alongside_sourceReport_eq_nil {sources : List Source} :
    alongside sourceReport sources = [] ↔
      NamedApart (sources.map Source.name) ∧ ∀ s ∈ sources, Unsorted s.query := by
  have hsource : sourceReport = fun earlier s =>
      nameReport .source (earlier.map Source.name) s.name ++
        reported (sorts s.query) (.sortedSource s.name) := rfl
  rw [hsource, alongside_named_eq_nil]
  simp only [reported_eq_nil, not_sorts]

theorem alongside_targetReport_eq_nil {spec : JobSpec} {targets : List Target}
    (hnames : NamedApart (spec.sources.map Source.name))
    (hmodelled : ∀ t ∈ targets, t.type ∈ (Vocabulary.members : List TargetType)) :
    alongside (targetReport spec) targets = [] ↔
      NamedApart (targets.map Target.name) ∧ ∀ t ∈ targets, SoundTarget spec t := by
  have htarget : targetReport spec = fun earlier t =>
      nameReport .target (earlier.map Target.name) t.name ++ (referenceReport spec t ++
        (typeReport t ++ (aggregationReport t ++
          if t.type = .customQuery then [] else cardinalityReport t))) := by
    funext earlier t
    simp only [targetReport, List.append_assoc]
  have hcardinality (t : Target) :
      (if t.type = .customQuery then [] else cardinalityReport t) = [] ↔
        (t.type ≠ .customQuery → cardinalityReport t = []) := by
    by_cases h : t.type = .customQuery <;> simp [h]
  rw [htarget, alongside_named_eq_nil]
  refine and_congr_right fun _ => forall₂_congr fun t ht => ?_
  rw [List.append_eq_nil_iff, List.append_eq_nil_iff, List.append_eq_nil_iff,
    referenceReport_eq_nil hnames, typeReport_eq_nil (hmodelled t ht), aggregationReport_eq_nil,
    hcardinality, cardinalityReport_eq_nil]
  constructor
  · rintro ⟨⟨hsource, hsorted⟩, htype, haggregations, hproperties⟩
    exact ⟨hsource, hsorted, htype, haggregations, fun h property => (hproperties h property).1,
      fun h property => (hproperties h property).2⟩
  · intro h
    exact ⟨⟨h.source, h.unsorted⟩, h.ofType, h.aggregations,
      fun htype property => ⟨h.fields htype property, h.types htype property⟩⟩

theorem alongside_actionReport_eq_nil {actions : List Action} :
    alongside actionReport actions = [] ↔
      NamedApart (actions.map Action.name) ∧
        ∀ a ∈ actions, requiredOption a.type ∈ a.options.map Prod.fst := by
  have haction : actionReport = fun earlier a =>
      nameReport .action (earlier.map Action.name) a.name ++
        reported (requiredOption a.type ∉ a.options.map Prod.fst)
          (.missingOption a.type a.name) := rfl
  rw [haction, alongside_named_eq_nil]
  simp only [reported_eq_nil, Classical.not_not]

/-- The report on a job spec whose types are modelled is empty exactly when the job spec is
sound. -/
theorem report_eq_nil {spec : JobSpec} (hmodelled : spec.Modelled) :
    report spec = [] ↔ Sound spec := by
  have htypes : ∀ t ∈ spec.activeTargets, t.type ∈ (Vocabulary.members : List TargetType) :=
    fun t ht => hmodelled t (List.mem_filter.mp ht).1
  rw [report, List.append_eq_nil_iff, List.append_eq_nil_iff, List.append_eq_nil_iff,
    List.append_eq_nil_iff, alongside_sourceReport_eq_nil, reported_eq_nil,
    alongside_actionReport_eq_nil, List.flatMap_eq_nil_iff]
  constructor
  · rintro ⟨⟨⟨⟨⟨hnames, hsources⟩, htargets⟩, hactive⟩, hactionNames, hoptions⟩, hdependencies⟩
    obtain ⟨htargetNames, htargets⟩ := (alongside_targetReport_eq_nil hnames htypes).mp htargets
    exact {
      sourceNames := hnames
      sources := hsources
      active := hactive
      targetNames := htargetNames
      targets := htargets
      actionNames := hactionNames
      actions := fun a ha => ⟨hoptions a ha, dependencyReport_eq_nil.mp (hdependencies a ha)⟩ }
  · intro h
    refine ⟨⟨⟨⟨⟨h.sourceNames, h.sources⟩, ?_⟩, h.active⟩, h.actionNames, ?_⟩, ?_⟩
    · exact (alongside_targetReport_eq_nil h.sourceNames htypes).mpr ⟨h.targetNames, h.targets⟩
    · exact fun a ha => (h.actions a ha).option
    · exact fun a ha => dependencyReport_eq_nil.mpr (h.actions a ha).dependency

end GraphImport.Rules
