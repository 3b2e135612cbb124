import Mathlib.Data.List.Basic
import GraphImport.Proofs.Rules.Feeds
import GraphImport.Proofs.Spec.Lookup
import GraphImport.Proofs.Spec.Reading
import GraphImport.Rules.Examination

/-!
# The problems of a job spec, item by item

The walk of the rules carries along the names it has seen. Its outcome is described here without
them: each source, active target and action is looked at beside the items before it, and what is
said of them one after the other is all that the walk finds.
-/

namespace GraphImport.Rules

open Spec

/-- What is said of each item of a list beside the items before it. -/
def alongside {α β : Type} (say : List α → α → List β) (items : List α) : List β :=
  items.zipIdx.flatMap fun (item, index) => say (items.take index) item

/-- A problem that is reported under a condition. -/
def reported (condition : Prop) [Decidable condition] (p : Problem) : List Problem :=
  if condition then [p] else []

def nameReport (item : NamedItem) (earlier : List String) (name : String) : List Problem :=
  reported (Text.isBlank name) (.unnamed item) ++
    reported (name ∈ earlier) (.duplicateName item name)

def sourceReport (earlier : List Source) (s : Source) : List Problem :=
  nameReport .source (earlier.map Source.name) s.name ++
    reported (sorts s.query) (.sortedSource s.name)

def nodeReport (t : Target) : List Problem :=
  t.mappings.flatMap (fun m =>
    reported (m.fragment ≠ .node) (.nodeFragment m.fragment m.name)) ++
    reported (¬ t.Provides .node .label) (.noLabel t.name) ++
    reported (¬ t.Provides .node .key) (.noKey t.name)

/-- A role that a mapping for an endpoint of an edge cannot have. -/
def MisfitsEndpoint (m : Mapping) : Prop :=
  m.fragment ∈ [.source, .target] ∧ m.role ∉ [.key, .label]

instance (m : Mapping) : Decidable (MisfitsEndpoint m) :=
  inferInstanceAs (Decidable (_ ∧ _))

def edgeReport (t : Target) : List Problem :=
  t.mappings.flatMap (fun m =>
    reported (m.fragment = .node) (.edgeFragment m.fragment m.name) ++
      reported (MisfitsEndpoint m) (.endpointRole m.role m.fragment)) ++
    reported (¬ t.Provides .source .key) (.noEdgePart .sourceKey t.name) ++
    reported (¬ t.Provides .target .key) (.noEdgePart .targetKey t.name) ++
    reported (¬ t.Provides .rel .type) (.noEdgePart .relType t.name) ++
    reported (t.saveMode = .merge ∧ t.edgeNodesMatchMode = .create) (.incompatibleModes t.name)

def queryReport (t : Target) : List Problem :=
  reported (Text.isBlank? t.customQuery) (.noQuery t.name) ++
    reported (t.mappings ≠ []) (.queryWithMapping t.name) ++
    reported (t.transform ≠ {}) (.queryWithTransform t.name)

/-- What the rules for the type of a target say; no rules are known for other types. -/
def typeReport (t : Target) : List Problem :=
  match t.type with
  | .node => nodeReport t
  | .edge => edgeReport t
  | .customQuery => queryReport t
  | .unmodelled _ => []

def aggregationReport (t : Target) : List Problem :=
  t.transform.aggregations.flatMap fun a =>
    reported (¬ t.Reads a.field) (.unmappedAggregation a.field)

/-- What is said of the properties of a target, name by name in order of first occurrence. -/
def cardinalityReport (t : Target) : List Problem :=
  (t.mappings.map Mapping.name).eraseDups.flatMap fun property =>
    reported (1 < (entriesOf t.mappings property).length)
      (.tooManyFields property t.name (entriesOf t.mappings property)) ++
    reported (1 < (typesOf t.mappings property).length)
      (.tooManyTypes property t.name (typesOf t.mappings property))

/-- What is said of the reference to a source, whatever the type of the target. -/
def referenceReport (spec : JobSpec) (t : Target) : List Problem :=
  reported (Text.isBlank t.source) .noSource ++
    reported (t.source ≠ "" ∧ t.source ∉ spec.sources.map Source.name)
      (.undefinedSource t.source) ++
    reported (sorts t.transform.sql) (.sortedTarget t.name)

def targetReport (spec : JobSpec) (earlier : List Target) (t : Target) : List Problem :=
  nameReport .target (earlier.map Target.name) t.name ++ referenceReport spec t ++
    typeReport t ++ aggregationReport t ++
    if t.type = .customQuery then [] else cardinalityReport t

def actionReport (earlier : List Action) (a : Action) : List Problem :=
  nameReport .action (earlier.map Action.name) a.name ++
    reported (requiredOption a.type ∉ a.options.map Prod.fst) (.missingOption a.type a.name)

/-- Whether the item exists that a dependency names. Stages of a run always do. -/
def Awaited (spec : JobSpec) (kind : ActionExecuteAfter) (name : String) : Prop :=
  match kind with
  | .source => ∃ s ∈ spec.sources, s.name = name
  | .action => ∃ a ∈ spec.actions, a.name = name
  | .node => ∃ t ∈ spec.activeTargets, t.name = name ∧ t.type = .node
  | .edge => ∃ t ∈ spec.activeTargets, t.name = name ∧ t.type = .edge
  | .customQuery => ∃ t ∈ spec.activeTargets, t.name = name ∧ t.type = .customQuery
  | _ => True

theorem resolves_eq_true {spec : JobSpec} {kind : ActionExecuteAfter} {name : String} :
    resolves spec name kind = true ↔ Awaited spec kind name := by
  cases kind <;> simp [resolves, Awaited, hasActiveTarget, JobSpec.source?]

instance (spec : JobSpec) (kind : ActionExecuteAfter) (name : String) :
    Decidable (Awaited spec kind name) :=
  decidable_of_iff _ resolves_eq_true

def dependencyReport (spec : JobSpec) (a : Action) : List Problem :=
  match a.executeAfter with
  | none => []
  | some kind =>
    if kind.namesSingleItem then match filled? a.executeAfterName with
      | none => [.dependencyUnnamed a.name kind]
      | some name => reported (¬ Awaited spec kind name) (.dependencyUnknown a.name kind name)
    else []

/-- Everything the rules have to say about a job spec, in order. -/
def report (spec : JobSpec) : List Problem :=
  alongside sourceReport spec.sources ++
    alongside (targetReport spec) spec.activeTargets ++
    reported (spec.activeTargets = []) .noActiveTarget ++
    alongside actionReport spec.actions ++
    spec.actions.flatMap (dependencyReport spec)

section Alongside

variable {α β : Type}

@[simp] theorem alongside_nil (say : List α → α → List β) : alongside say [] = [] := rfl

theorem alongside_cons (say : List α → α → List β) (item : α) (rest : List α) :
    alongside say (item :: rest) =
      say [] item ++ alongside (fun earlier => say (item :: earlier)) rest := by
  simp only [alongside, List.zipIdx_cons', List.flatMap_cons, List.flatMap_map]
  rfl

theorem alongside_append (say : List α → α → List β) (items later : List α) :
    alongside say (items ++ later) =
      alongside say items ++ alongside (fun earlier => say (items ++ earlier)) later := by
  induction items generalizing say with
  | nil => rfl
  | cons item rest ih =>
    rw [List.cons_append, alongside_cons, ih, alongside_cons, List.append_assoc]
    rfl

theorem alongside_congr {say say' : List α → α → List β} {items : List α}
    (h : ∀ earlier, ∀ item ∈ items, say earlier item = say' earlier item) :
    alongside say items = alongside say' items := by
  apply List.flatMap_congr
  rintro ⟨item, index⟩ hitem
  exact h _ item (List.fst_mem_of_mem_zipIdx hitem)

theorem alongside_const (say : α → List β) (items : List α) :
    alongside (fun _ => say) items = items.flatMap say := by
  induction items with
  | nil => rfl
  | cons item rest ih => rw [alongside_cons, ih, List.flatMap_cons]

theorem map_alongside {γ : Type} (f : β → γ) (say : List α → α → List β) (items : List α) :
    (alongside say items).map f = alongside (fun earlier item => (say earlier item).map f) items :=
  List.map_flatMap

theorem alongside_map {γ : Type} (f : γ → α) (say : List α → α → List β) (items : List γ) :
    alongside say (items.map f) =
      alongside (fun earlier item => say (earlier.map f) (f item)) items := by
  simp only [alongside, List.zipIdx_map, List.flatMap_map, List.map_take]
  rfl

theorem mem_alongside {say : List α → α → List β} {items : List α} {b : β} :
    b ∈ alongside say items ↔
      ∃ earlier item later, items = earlier ++ item :: later ∧ b ∈ say earlier item := by
  induction items generalizing say with
  | nil => simp
  | cons first rest ih =>
    rw [alongside_cons, List.mem_append, ih]
    constructor
    · rintro (h | ⟨earlier, item, later, rfl, h⟩)
      · exact ⟨[], first, rest, rfl, h⟩
      · exact ⟨first :: earlier, item, later, rfl, h⟩
    · rintro ⟨earlier, item, later, hsplit, h⟩
      cases earlier with
      | nil =>
        obtain ⟨rfl, rfl⟩ := List.cons_eq_cons.mp hsplit
        exact Or.inl h
      | cons known earlier =>
        obtain ⟨rfl, rfl⟩ := List.cons_eq_cons.mp hsplit
        exact Or.inr ⟨earlier, item, later, rfl, h⟩

theorem forall_mem_alongside {say : List α → α → List β} {items : List α} {P : β → Prop}
    (h : ∀ earlier, ∀ item ∈ items, ∀ b ∈ say earlier item, P b) :
    ∀ b ∈ alongside say items, P b := by
  intro b hb
  obtain ⟨earlier, item, later, rfl, hitem⟩ := mem_alongside.mp hb
  exact h earlier item List.mem_append_cons_self b hitem

/-- What is said of an item whatever stands before it is said when the item is there. -/
theorem mem_alongside_of_own {say : List α → α → List β} {b : β} {Says : α → Prop}
    (h : ∀ earlier item, b ∈ say earlier item ↔ Says item) {items : List α} :
    b ∈ alongside say items ↔ ∃ item ∈ items, Says item := by
  simp only [mem_alongside, h]
  constructor
  · rintro ⟨earlier, item, later, rfl, hitem⟩
    exact ⟨item, by simp, hitem⟩
  · rintro ⟨item, hmem, hitem⟩
    obtain ⟨earlier, later, hsplit⟩ := List.append_of_mem hmem
    exact ⟨earlier, item, later, hsplit, hitem⟩

/-- When what is kept of each item is the same beside any items before it, it is kept item by
item. -/
theorem filter_alongside {say : List α → α → List β} {own : α → List β} {keep : β → Bool}
    (h : ∀ earlier item, (say earlier item).filter keep = own item) (items : List α) :
    (alongside say items).filter keep = items.flatMap own := by
  induction items generalizing say with
  | nil => rfl
  | cons item rest ih =>
    rw [alongside_cons, List.filter_append, h, ih fun earlier => h (item :: earlier),
      List.flatMap_cons]

end Alongside

theorem mem_reported {condition : Prop} [Decidable condition] {p q : Problem} :
    q ∈ reported condition p ↔ condition ∧ q = p := by
  by_cases h : condition <;> simp [reported, h]

theorem forall_mem_reported {condition : Prop} [Decidable condition] {p : Problem}
    {P : Problem → Prop} : (∀ q ∈ reported condition p, P q) ↔ (condition → P p) := by
  by_cases h : condition <;> simp [reported, h]

theorem reported_eq_nil {condition : Prop} [Decidable condition] {p : Problem} :
    reported condition p = [] ↔ ¬ condition := by
  by_cases h : condition <;> simp [reported, h]

theorem reported_congr {condition condition' : Prop} [Decidable condition]
    [Decidable condition'] (h : condition ↔ condition') (p : Problem) :
    reported condition p = reported condition' p := by
  by_cases hcondition : condition <;> simp [reported, hcondition, ← h]

theorem filter_reported (keep : Problem → Bool) (condition : Prop) [Decidable condition]
    (p : Problem) :
    (reported condition p).filter keep = if keep p then reported condition p else [] := by
  by_cases h : condition <;> by_cases hp : keep p <;> simp [reported, h, hp]

theorem lacks_eq_true {t : Target} {fragment : FragmentType} {role : RoleType} :
    lacks t fragment role = true ↔ ¬ t.Provides fragment role :=
  t.isBlank_firstCarried fragment role

theorem problemsIn_nameFindings (item : NamedItem) (earlier : List String) (name : String) :
    problemsIn (nameFindings item earlier.reverse name) = nameReport item earlier name := by
  simp [nameFindings, nameReport, reported]

theorem problemsIn_nodeFindings (t : Target) : problemsIn (nodeFindings t) = nodeReport t := by
  have hlabel : problemsIn (if lacks t .node .label then
      [.note (.invalidNodeTarget t), .problem (.noLabel t.name)] else []) =
      reported (¬ t.Provides .node .label) (.noLabel t.name) := by
    rw [reported]
    by_cases h : lacks t .node .label = true
    · rw [if_pos h, if_pos (lacks_eq_true.mp h)]
      rfl
    · rw [if_neg h, if_neg (mt lacks_eq_true.mpr h)]
      rfl
  rw [nodeFindings, nodeReport, problemsIn_append, problemsIn_append, hlabel]
  simp only [problemsIn_flatMap, problemsIn_found, lacks_eq_true, bne_iff_ne, reported]

theorem misfitsEndpoint_iff {m : Mapping} :
    (isEndpoint m.fragment && !fitsEndpoint m.role) = true ↔ MisfitsEndpoint m := by
  unfold MisfitsEndpoint
  cases m.fragment <;> cases m.role <;> decide

theorem problemsIn_edgeFindings (t : Target) : problemsIn (edgeFindings t) = edgeReport t := by
  have hmodes : (t.saveMode == .merge && t.edgeNodesMatchMode == .create) = true ↔
      t.saveMode = .merge ∧ t.edgeNodesMatchMode = .create := by
    rw [Bool.and_eq_true, beq_iff_eq, beq_iff_eq]
  simp only [edgeFindings, edgeReport, problemsIn_append, problemsIn_flatMap, problemsIn_found,
    lacks_eq_true, misfitsEndpoint_iff, hmodes, beq_iff_eq, reported]

theorem problemsIn_queryFindings (t : Target) : problemsIn (queryFindings t) = queryReport t := by
  simp [queryFindings, queryReport, Transform.isDefault, reported]

theorem problemsIn_aggregationFindings (t : Target) :
    problemsIn (aggregationFindings t) = aggregationReport t := by
  simp [aggregationFindings, aggregationReport, reported, ← Target.mapsField_eq_true]

theorem problemsIn_cardinalityFindings (t : Target) :
    problemsIn (cardinalityFindings t) = cardinalityReport t := by
  have hfeed (property : String) : (feedOf t.name t.mappings property).problems =
      reported (1 < (entriesOf t.mappings property).length)
        (.tooManyFields property t.name (entriesOf t.mappings property)) ++
      reported (1 < (typesOf t.mappings property).length)
        (.tooManyTypes property t.name (typesOf t.mappings property)) := by
    simp only [Feed.problems, Feed.fieldProblem?, Feed.typeProblem?, feedOf, reported, gt_iff_lt]
    split <;> split <;> rfl
  simp only [cardinalityFindings, cardinalityReport, feedsOf_eq, List.flatMap_map,
    problemsIn_flatMap, problemsIn_map_problem, hfeed]

theorem typeFindings?_eq_none {t : Target} :
    typeFindings? t = none ↔ t.type ∉ (Vocabulary.members : List TargetType) := by
  unfold typeFindings?
  cases htype : t.type <;> simp [Vocabulary.members]

/-- What the walk finds for the type of a target is what the rules say of its type, its
aggregations and the properties it feeds. -/
theorem problemsIn_typeFindings? {t : Target} {findings : List Finding}
    (h : typeFindings? t = some findings) :
    problemsIn findings = typeReport t ++ aggregationReport t ++
      if t.type = .customQuery then [] else cardinalityReport t := by
  unfold typeFindings? at h
  unfold typeReport
  cases htype : t.type with
  | node =>
    rw [htype] at h
    cases h
    simp [problemsIn_nodeFindings, problemsIn_aggregationFindings, problemsIn_cardinalityFindings]
  | edge =>
    rw [htype] at h
    cases h
    simp [problemsIn_edgeFindings, problemsIn_aggregationFindings, problemsIn_cardinalityFindings]
  | customQuery =>
    rw [htype] at h
    cases h
    simp [problemsIn_queryFindings, problemsIn_aggregationFindings]
  | unmodelled name => simp [htype] at h

theorem problemsIn_referenceFindings (spec : JobSpec) (t : Target) :
    problemsIn (referenceFindings spec t) = referenceReport spec t := by
  have hundefined : (t.source != "" && (spec.source? t.source).isNone) = true ↔
      t.source ≠ "" ∧ t.source ∉ spec.sources.map Source.name := by
    rw [Bool.and_eq_true, bne_iff_ne, JobSpec.source?_isNone]
  simp only [referenceFindings, referenceReport, problemsIn_append, problemsIn_found, hundefined,
    reported]

/-- The walk through the sources, with the names seen so far, says of each source what can be
said of it beside the earlier ones. -/
theorem problemsIn_sourceFindings (earlier rest : List Source) :
    problemsIn (sourceFindings (earlier.map Source.name).reverse rest) =
      alongside (fun more => sourceReport (earlier ++ more)) rest := by
  induction rest generalizing earlier with
  | nil => rfl
  | cons s rest ih =>
    have hseen : s.name :: (earlier.map Source.name).reverse =
        ((earlier ++ [s]).map Source.name).reverse := by simp
    have hnote : problemsIn (if Text.isBlank? s.query then [] else
        [.note (.checkingOrderBy s.name)]) = [] := by split <;> rfl
    rw [sourceFindings, hseen, problemsIn_append, problemsIn_append, problemsIn_append, ih,
      problemsIn_nameFindings, hnote, alongside_cons]
    simp [sourceReport, reported]

theorem lacksOption_eq_true {a : Action} :
    (!a.options.any fun (key, _) => key == requiredOption a.type) = true ↔
      requiredOption a.type ∉ a.options.map Prod.fst := by
  rw [Bool.not_eq_true', List.any_eq_false, List.mem_map]
  constructor
  · rintro h ⟨option, hoption, hkey⟩
    exact h option hoption (beq_iff_eq.mpr hkey)
  · intro h option hoption hkey
    exact h ⟨option, hoption, beq_iff_eq.mp hkey⟩

theorem problemsIn_actionFindings (earlier rest : List Action) :
    problemsIn (actionFindings (earlier.map Action.name).reverse rest) =
      alongside (fun more => actionReport (earlier ++ more)) rest := by
  induction rest generalizing earlier with
  | nil => rfl
  | cons a rest ih =>
    have hseen : a.name :: (earlier.map Action.name).reverse =
        ((earlier ++ [a]).map Action.name).reverse := by simp
    rw [actionFindings, hseen, problemsIn_append, problemsIn_append, ih, problemsIn_nameFindings,
      alongside_cons]
    simp only [problemsIn_found, lacksOption_eq_true, actionReport, reported, List.append_nil,
      List.append_assoc, List.cons_append, List.nil_append]

/-- As long as there are rules for the types of the active targets, the walk through the targets
goes to the end and says of each active one what can be said of it beside the earlier ones. -/
theorem targetFindings_eq (spec : JobSpec) (earlier rest : List Target)
    (hmodelled : ∀ t ∈ rest, t.type ∈ (Vocabulary.members : List TargetType)) :
    problemsIn (targetFindings spec (earlier.map Target.name).reverse rest).1 =
        alongside (fun more => targetReport spec (earlier ++ more)) (rest.filter Target.active) ∧
      (targetFindings spec (earlier.map Target.name).reverse rest).2 = none := by
  induction rest generalizing earlier with
  | nil => exact ⟨rfl, rfl⟩
  | cons t rest ih =>
    have hrest : ∀ u ∈ rest, u.type ∈ (Vocabulary.members : List TargetType) :=
      fun u hu => hmodelled u (List.mem_cons_of_mem t hu)
    cases hactive : t.active with
    | false =>
      rw [targetFindings, List.filter_cons]
      simpa only [hactive, Bool.false_eq_true, if_false] using ih earlier hrest
    | true =>
      have hseen : t.name :: (earlier.map Target.name).reverse =
          ((earlier ++ [t]).map Target.name).reverse := by simp
      have hsome : typeFindings? t ≠ none :=
        fun h => typeFindings?_eq_none.mp h (hmodelled t List.mem_cons_self)
      obtain ⟨ofType, hofType⟩ := Option.ne_none_iff_exists'.mp hsome
      have hlater := ih (earlier ++ [t]) hrest
      rw [targetFindings, List.filter_cons, hactive, if_pos rfl, if_pos rfl, hseen, hofType,
        alongside_cons]
      refine ⟨?_, hlater.2⟩
      simp only [problemsIn_append, hlater.1, problemsIn_nameFindings,
        problemsIn_referenceFindings, problemsIn_typeFindings? hofType, targetReport,
        List.append_assoc, List.cons_append, List.nil_append, List.append_nil]

theorem problemsIn_dependencyFindings (spec : JobSpec) (a : Action) :
    problemsIn (dependencyFindings spec a) = dependencyReport spec a := by
  unfold dependencyFindings dependencyReport
  cases a.executeAfter with
  | none => rfl
  | some kind =>
    cases hitem : kind.namesSingleItem with
    | false => simp [hitem]
    | true =>
      cases filled? a.executeAfterName with
      | none => simp [hitem]
      | some name => simp [hitem, reported, ← resolves_eq_true]

/-- The walk through a job spec whose types are all modelled ends with its report. -/
theorem problemsOf_eq_report {spec : JobSpec} (hmodelled : spec.Modelled) :
    problemsOf spec = .ok (report spec) := by
  obtain ⟨htargets, hstop⟩ := targetFindings_eq spec [] spec.targets hmodelled
  have hsources := problemsIn_sourceFindings [] spec.sources
  have hactions := problemsIn_actionFindings [] spec.actions
  have hactive : (!spec.targets.any fun t => t.active) = true ↔ spec.activeTargets = [] := by
    simp [JobSpec.activeTargets]
  simp only [List.map_nil, List.reverse_nil, List.nil_append] at htargets hstop hsources hactions
  cases hwalk : targetFindings spec [] spec.targets with
  | mk findings stop =>
    rw [hwalk] at htargets hstop
    cases hstop
    simp only [problemsOf, examine, hwalk, problemsIn_append, htargets, hsources, hactions,
      problemsIn_found, hactive, problemsIn_flatMap, problemsIn_dependencyFindings,
      problemsIn_note, problemsIn_nil, List.append_nil, report, reported, JobSpec.activeTargets]
    rfl

/-- The parts of a report. -/
inductive Part
  | sources
  | targets
  | activity
  | actions
  | dependencies
deriving DecidableEq, Repr

def NamedItem.part : NamedItem → Part
  | .source => .sources
  | .target => .targets
  | .action => .actions

/-- The part of a report a problem can stand in. -/
def Problem.part : Problem → Part
  | .unnamed item | .duplicateName item _ => item.part
  | .sortedSource _ => .sources
  | .noActiveTarget => .activity
  | .missingOption _ _ => .actions
  | .dependencyUnnamed _ _ | .dependencyUnknown _ _ _ => .dependencies
  | _ => .targets

theorem part_of_mem_reported {condition : Prop} [Decidable condition] {p q : Problem}
    (h : q ∈ reported condition p) : q.part = p.part := by
  rw [(mem_reported.mp h).2]

theorem part_of_mem_nameReport {item : NamedItem} {earlier : List String} {name : String}
    {q : Problem} (h : q ∈ nameReport item earlier name) : q.part = item.part := by
  rcases List.mem_append.mp h with h | h <;> exact part_of_mem_reported h

theorem part_of_mem_sources {spec : JobSpec} {q : Problem}
    (h : q ∈ alongside sourceReport spec.sources) : q.part = .sources := by
  obtain ⟨earlier, s, later, _, h⟩ := mem_alongside.mp h
  rcases List.mem_append.mp h with h | h
  · exact part_of_mem_nameReport h
  · exact part_of_mem_reported h

theorem part_of_mem_typeReport {t : Target} {q : Problem} (h : q ∈ typeReport t) :
    q.part = .targets := by
  unfold typeReport at h
  split at h
  · simp only [nodeReport, List.mem_append, List.mem_flatMap] at h
    rcases h with (⟨m, _, h⟩ | h) | h <;> exact part_of_mem_reported h
  · simp only [edgeReport, List.mem_append, List.mem_flatMap] at h
    rcases h with (((⟨m, _, h | h⟩ | h) | h) | h) | h <;> exact part_of_mem_reported h
  · simp only [queryReport, List.mem_append] at h
    rcases h with (h | h) | h <;> exact part_of_mem_reported h
  · simp at h

theorem part_of_mem_cardinalityReport {t : Target} {q : Problem} (h : q ∈ cardinalityReport t) :
    q.part = .targets := by
  simp only [cardinalityReport, List.mem_flatMap, List.mem_append] at h
  obtain ⟨name, _, h | h⟩ := h <;> exact part_of_mem_reported h

theorem part_of_mem_aggregationReport {t : Target} {q : Problem} (h : q ∈ aggregationReport t) :
    q.part = .targets := by
  obtain ⟨a, _, h⟩ := List.mem_flatMap.mp h
  exact part_of_mem_reported h

theorem part_of_mem_targets {spec : JobSpec} {q : Problem}
    (h : q ∈ alongside (targetReport spec) spec.activeTargets) : q.part = .targets := by
  obtain ⟨earlier, t, later, _, h⟩ := mem_alongside.mp h
  simp only [targetReport, referenceReport, List.mem_append] at h
  rcases h with (((h | (h | h) | h) | h) | h) | h
  · exact part_of_mem_nameReport h
  · exact part_of_mem_reported h
  · exact part_of_mem_reported h
  · exact part_of_mem_reported h
  · exact part_of_mem_typeReport h
  · exact part_of_mem_aggregationReport h
  · split at h
    · simp at h
    · exact part_of_mem_cardinalityReport h

theorem part_of_mem_actions {spec : JobSpec} {q : Problem}
    (h : q ∈ alongside actionReport spec.actions) : q.part = .actions := by
  obtain ⟨earlier, a, later, _, h⟩ := mem_alongside.mp h
  rcases List.mem_append.mp h with h | h
  · exact part_of_mem_nameReport h
  · exact part_of_mem_reported h

theorem part_of_mem_dependencies {spec : JobSpec} {q : Problem}
    (h : q ∈ spec.actions.flatMap (dependencyReport spec)) : q.part = .dependencies := by
  obtain ⟨a, _, h⟩ := List.mem_flatMap.mp h
  unfold dependencyReport at h
  split at h
  · simp at h
  · split at h
    · split at h
      · rw [List.mem_singleton.mp h]
        rfl
      · exact part_of_mem_reported h
    · simp at h

/-- Nothing is kept of a part when no problem that is kept can stand in it. -/
theorem filter_eq_nil_of_part {keep : Problem → Bool} {part : Part} {problems : List Problem}
    (hkeep : ∀ q, keep q = true → q.part ≠ part) (h : ∀ q ∈ problems, q.part = part) :
    problems.filter keep = [] := by
  rw [List.filter_eq_nil_iff]
  exact fun q hq hkept => hkeep q hkept (h q hq)

/-- When problems that are kept stand at sources and targets only, the rest of a report is left
out. -/
theorem filter_report {keep : Problem → Bool} (spec : JobSpec)
    (hkeep : ∀ q, keep q = true → q.part = .sources ∨ q.part = .targets) :
    (report spec).filter keep = (alongside sourceReport spec.sources).filter keep ++
      (alongside (targetReport spec) spec.activeTargets).filter keep := by
  have hnone (part : Part) (hsources : part ≠ .sources) (htargets : part ≠ .targets)
      {problems : List Problem} (h : ∀ q ∈ problems, q.part = part) :
      problems.filter keep = [] := by
    refine filter_eq_nil_of_part (fun q hkept hpart => ?_) h
    rcases hkeep q hkept with hq | hq
    · exact hsources (hpart.symm.trans hq)
    · exact htargets (hpart.symm.trans hq)
  have hactivity : (reported (spec.activeTargets = []) .noActiveTarget).filter keep = [] :=
    hnone .activity (by decide) (by decide) fun _ => part_of_mem_reported
  have hactions : (alongside actionReport spec.actions).filter keep = [] :=
    hnone .actions (by decide) (by decide) fun _ => part_of_mem_actions
  have hdependencies : (spec.actions.flatMap (dependencyReport spec)).filter keep = [] :=
    hnone .dependencies (by decide) (by decide) fun _ => part_of_mem_dependencies
  simp only [report, List.filter_append, hactivity, hactions, hdependencies, List.append_nil]

/-- A problem stands in a report exactly when it stands in its part. -/
theorem mem_report {spec : JobSpec} {q : Problem} : q ∈ report spec ↔
    match q.part with
    | .sources => q ∈ alongside sourceReport spec.sources
    | .targets => q ∈ alongside (targetReport spec) spec.activeTargets
    | .activity => q ∈ reported (spec.activeTargets = []) .noActiveTarget
    | .actions => q ∈ alongside actionReport spec.actions
    | .dependencies => q ∈ spec.actions.flatMap (dependencyReport spec) := by
  have hsources : q ∈ alongside sourceReport spec.sources → q.part = .sources :=
    part_of_mem_sources
  have htargets : q ∈ alongside (targetReport spec) spec.activeTargets → q.part = .targets :=
    part_of_mem_targets
  have hactivity : q ∈ reported (spec.activeTargets = []) .noActiveTarget → q.part = .activity :=
    part_of_mem_reported
  have hactions : q ∈ alongside actionReport spec.actions → q.part = .actions :=
    part_of_mem_actions
  have hdependencies : q ∈ spec.actions.flatMap (dependencyReport spec) → q.part = .dependencies :=
    part_of_mem_dependencies
  simp only [report, List.mem_append]
  cases hpart : q.part <;> simp_all [Problem.part]

end GraphImport.Rules
