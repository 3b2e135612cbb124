import Mathlib.Data.List.Perm.Basic
import Mathlib.Data.Multiset.MapFold
import GraphImport.Proofs.Rules.Report

/-!
# The order of declarations

Sources, targets and actions, and the mappings and aggregations of a target, can be declared in
any order: the same problems are found, the fields or types that a property has too many of
perhaps in another order. A name that stands several times is reported as often whichever of its
bearers come first.
-/

namespace GraphImport.Rules

open Document (Value)
open Spec

/-- The same target with its mappings and its aggregations in another order. -/
structure ReorderedTarget (t t' : Target) : Prop where
  mappings : t.mappings.Perm t'.mappings
  aggregations : t.transform.aggregations.Perm t'.transform.aggregations
  others : t' = { t with
    mappings := t'.mappings
    transform := { t.transform with aggregations := t'.transform.aggregations } }

/-- The same job spec with its parts, and the parts of its targets, in another order. -/
structure Reordered (spec spec' : JobSpec) : Prop where
  sources : spec.sources.Perm spec'.sources
  targets : ∃ ts, spec.targets.Perm ts ∧ List.Forall₂ ReorderedTarget ts spec'.targets
  actions : spec.actions.Perm spec'.actions

/-- The same problem, the fields or types it lists perhaps in another order. -/
inductive SameButOrder : Problem → Problem → Prop
  | same (p : Problem) : SameButOrder p p
  | fields (property target : String) {fields fields' : List String} (h : fields.Perm fields') :
    SameButOrder (.tooManyFields property target fields) (.tooManyFields property target fields')
  | types (property target : String) {types types' : List PropertyType} (h : types.Perm types') :
    SameButOrder (.tooManyTypes property target types) (.tooManyTypes property target types')

/-- The same message, the names it lists at its end perhaps in another order. -/
inductive SameButNames : String → String → Prop
  | same (message : String) : SameButNames message message
  | fields (property target : String) {fields fields' : List String} (h : fields.Perm fields') :
    SameButNames
      (s!"Property {property} of target {target} is mapped to too many source fields: " ++
        ", ".intercalate fields)
      (s!"Property {property} of target {target} is mapped to too many source fields: " ++
        ", ".intercalate fields')
  | types (property target : String) {types types' : List String} (h : types.Perm types') :
    SameButNames
      (s!"Property {property} of target {target} is mapped to too many types: " ++
        ", ".intercalate types)
      (s!"Property {property} of target {target} is mapped to too many types: " ++
        ", ".intercalate types')

theorem SameButOrder.message {p q : Problem} (h : SameButOrder p q) :
    SameButNames p.message q.message := by
  cases h with
  | same => exact .same _
  | fields property target h => exact .fields property target h
  | types property target h => exact .types property target (h.map _)

/-- A problem with the fields or types it lists put aside, without their order. -/
def content : Problem → Problem × Multiset String × Multiset PropertyType
  | .tooManyFields property target fields => (.tooManyFields property target [], fields, 0)
  | .tooManyTypes property target types => (.tooManyTypes property target [], 0, types)
  | p => (p, 0, 0)

theorem sameButOrder_of_content {p q : Problem} (h : content p = content q) : SameButOrder p q := by
  unfold content at h
  split at h <;> split at h <;>
    simp only [Prod.mk.injEq, Problem.tooManyFields.injEq, Problem.tooManyTypes.injEq,
      reduceCtorEq, false_and, Multiset.coe_eq_coe, and_true, true_and] at h
  next =>
    obtain ⟨⟨rfl, rfl⟩, hfields⟩ := h
    exact .fields _ _ hfields
  next hfields _ => exact absurd h.1.symm (hfields _ _ _)
  next =>
    obtain ⟨⟨rfl, rfl⟩, htypes⟩ := h
    exact .types _ _ htypes
  next _ htypes => exact absurd h.1.symm (htypes _ _ _)
  next hfields _ _ _ _ _ => exact absurd h.1 (hfields _ _ _)
  next htypes _ _ _ _ => exact absurd h.1 (htypes _ _ _)
  next =>
    subst h
    exact .same p

/-- Two lists of problems that are the same up to order. -/
def SameProblems (ps qs : List Problem) : Prop :=
  (ps.map content).Perm (qs.map content)

namespace SameProblems

variable {ps qs ps' qs' : List Problem}

theorem of_perm (h : ps.Perm qs) : SameProblems ps qs :=
  h.map content

theorem append (h : SameProblems ps qs) (h' : SameProblems ps' qs') :
    SameProblems (ps ++ ps') (qs ++ qs') := by
  unfold SameProblems
  rw [List.map_append, List.map_append]
  exact List.Perm.append h h'

theorem trans (h : SameProblems ps qs) (h' : SameProblems qs qs') : SameProblems ps qs' :=
  List.Perm.trans h h'

/-- Items that correspond to each other, each with the same problems. -/
theorem flatMap_forall₂ {α : Type} {r : α → α → Prop} {say say' : α → List Problem}
    {items items' : List α} (hr : List.Forall₂ r items items')
    (hsay : ∀ item item', r item item' → SameProblems (say item) (say' item')) :
    SameProblems (items.flatMap say) (items'.flatMap say') := by
  induction hr with
  | nil => exact of_perm (.refl _)
  | cons h _ ih => exact (hsay _ _ h).append ih

/-- The problems can be put in an order in which they correspond one by one. -/
theorem exists_aligned (h : SameProblems ps qs) :
    ∃ aligned, ps.Perm aligned ∧ List.Forall₂ SameButOrder aligned qs := by
  have hwords : List.Forall₂ (fun p c => content p = c) ps (ps.map content) := by
    rw [List.forall₂_map_right_iff, List.forall₂_same]
    exact fun _ _ => rfl
  have hcomp : Relation.Comp List.Perm (List.Forall₂ fun p c => content p = c) ps
      (qs.map content) := by
    rw [← List.forall₂_comp_perm_eq_perm_comp_forall₂]
    exact ⟨_, hwords, h⟩
  obtain ⟨aligned, hperm, haligned⟩ := hcomp
  rw [List.forall₂_map_right_iff] at haligned
  exact ⟨aligned, hperm, haligned.imp fun _ _ => sameButOrder_of_content⟩

end SameProblems

section Names

variable {α : Type}

theorem nameReport_congr {item : NamedItem} {earlier earlier' : List String}
    (h : ∀ s, s ∈ earlier ↔ s ∈ earlier') (name : String) :
    nameReport item earlier name = nameReport item earlier' name := by
  simp only [nameReport, h name]

/-- A name is reported as often in whatever order the names are declared, whichever stood before
them all. -/
theorem alongside_nameReport_perm (item : NamedItem) {names names' : List String}
    (h : names.Perm names') (before : List String) :
    (alongside (fun earlier => nameReport item (before ++ earlier)) names).Perm
      (alongside (fun earlier => nameReport item (before ++ earlier)) names') := by
  induction h generalizing before with
  | nil => exact .refl _
  | cons name _ ih =>
    rw [alongside_cons, alongside_cons]
    have hlater := ih (before ++ [name])
    simp only [List.append_assoc, List.singleton_append] at hlater
    exact hlater.append_left _
  | swap first second names =>
    simp only [alongside_cons, ← List.append_assoc]
    have hlater : (fun earlier => nameReport item (before ++ first :: second :: earlier)) =
        fun earlier => nameReport item (before ++ second :: first :: earlier) := by
      funext earlier name
      apply nameReport_congr
      intro s
      simp only [List.mem_append, List.mem_cons]
      tauto
    rw [hlater]
    apply List.Perm.append_right
    by_cases hname : first = second
    · subst hname
      exact .refl _
    · have hfirst : nameReport item (before ++ [second]) first =
          nameReport item (before ++ []) first := by
        simp [nameReport, hname]
      have hsecond : nameReport item (before ++ [first]) second =
          nameReport item (before ++ []) second := by
        simp [nameReport, Ne.symm hname]
      rw [hfirst, hsecond]
      exact List.perm_append_comm
  | trans _ _ ih ih' => exact (ih before).trans (ih' before)

/-- What is said of names beside the earlier ones, and what is said of each item by itself. -/
theorem alongside_named_perm (item : NamedItem) (name : α → String) (say : α → List Problem)
    (items : List α) (before : List String) :
    (alongside (fun earlier a =>
      nameReport item (before ++ earlier.map name) (name a) ++ say a) items).Perm
      (alongside (fun earlier => nameReport item (before ++ earlier)) (items.map name) ++
        items.flatMap say) := by
  induction items generalizing before with
  | nil => exact .refl _
  | cons a items ih =>
    have hlater := ih (before ++ [name a])
    simp only [List.append_assoc, List.singleton_append] at hlater
    simp only [alongside_cons, List.map_cons, List.map_nil, List.flatMap_cons, List.append_assoc]
    refine List.Perm.append_left _ ((hlater.append_left _).trans ?_)
    rw [← List.append_assoc, ← List.append_assoc]
    exact List.perm_append_comm.append_right _

/-- Items with the same names, each of which has the same problems by itself, have the same
problems beside each other. -/
theorem sameProblems_alongside {item : NamedItem} {name : α → String} {say say' : α → List Problem}
    {items items' : List α} (hnames : (items.map name).Perm (items'.map name))
    (hsay : SameProblems (items.flatMap say) (items'.flatMap say')) :
    SameProblems
      (alongside (fun earlier a => nameReport item (earlier.map name) (name a) ++ say a) items)
      (alongside (fun earlier a => nameReport item (earlier.map name) (name a) ++ say' a)
        items') := by
  have hsplit := alongside_named_perm item name say items []
  have hsplit' := alongside_named_perm item name say' items' []
  have hreports := alongside_nameReport_perm item hnames []
  simp only [List.nil_append] at hsplit hsplit' hreports
  exact (SameProblems.of_perm hsplit).trans
    (((SameProblems.of_perm hreports).append hsay).trans (SameProblems.of_perm hsplit'.symm))

end Names

section Targets

theorem perm_eraseDups {α : Type} [DecidableEq α] {l l' : List α} (h : l.Perm l') :
    l.eraseDups.Perm l'.eraseDups := by
  rw [List.perm_ext_iff_of_nodup (nodup_eraseDups l) (nodup_eraseDups l')]
  intro a
  rw [List.mem_eraseDups, List.mem_eraseDups, h.mem_iff]

variable {t t' : Target}

theorem ReorderedTarget.name (h : ReorderedTarget t t') : t'.name = t.name := by rw [h.others]

theorem ReorderedTarget.active (h : ReorderedTarget t t') : t'.active = t.active := by rw [h.others]

theorem ReorderedTarget.type (h : ReorderedTarget t t') : t'.type = t.type := by rw [h.others]

theorem ReorderedTarget.provides (h : ReorderedTarget t t') (fragment : FragmentType)
    (role : RoleType) : t'.Provides fragment role ↔ t.Provides fragment role := by
  simp only [Target.Provides, h.mappings.mem_iff]

theorem ReorderedTarget.reads (h : ReorderedTarget t t') (field : Option String) :
    t'.Reads field ↔ t.Reads field := by
  simp only [Target.Reads, h.mappings.mem_iff]

theorem ReorderedTarget.nodeReport (h : ReorderedTarget t t') :
    (nodeReport t).Perm (nodeReport t') := by
  simp only [Rules.nodeReport, h.provides, h.name]
  exact ((h.mappings.flatMap_right _).append_right _).append_right _

theorem ReorderedTarget.edgeReport (h : ReorderedTarget t t') :
    (edgeReport t).Perm (edgeReport t') := by
  have hmodes : t'.saveMode = t.saveMode ∧ t'.edgeNodesMatchMode = t.edgeNodesMatchMode := by
    rw [h.others]
    exact ⟨rfl, rfl⟩
  simp only [Rules.edgeReport, h.provides, h.name, hmodes]
  refine List.Perm.append_right _ (List.Perm.append_right _ (List.Perm.append_right _ ?_))
  exact (h.mappings.flatMap_right _).append_right _

theorem ReorderedTarget.queryReport (h : ReorderedTarget t t') :
    queryReport t = queryReport t' := by
  have hquery : t'.customQuery = t.customQuery := by rw [h.others]
  have hmappings : t'.mappings = [] ↔ t.mappings = [] :=
    ⟨fun hnil => (hnil ▸ h.mappings).eq_nil, fun hnil => (hnil ▸ h.mappings).nil_eq.symm⟩
  have haggregations : t'.transform.aggregations = [] ↔ t.transform.aggregations = [] :=
    ⟨fun hnil => (hnil ▸ h.aggregations).eq_nil, fun hnil => (hnil ▸ h.aggregations).nil_eq.symm⟩
  have htransform : t'.transform = {} ↔ t.transform = {} := by
    have hothers : t'.transform =
        { t.transform with aggregations := t'.transform.aggregations } := by
      conv_lhs => rw [h.others]
    rw [hothers]
    simp only [Transform.mk.injEq, haggregations]
    cases t.transform
    simp only [Transform.mk.injEq]
  simp only [Rules.queryReport, hquery, h.name, ne_eq, hmappings, htransform]

theorem ReorderedTarget.typeReport (h : ReorderedTarget t t') :
    (typeReport t).Perm (typeReport t') := by
  unfold Rules.typeReport
  rw [h.type]
  cases t.type with
  | node => exact h.nodeReport
  | edge => exact h.edgeReport
  | customQuery => exact .of_eq h.queryReport
  | unmodelled name => exact .refl _

theorem ReorderedTarget.aggregationReport (h : ReorderedTarget t t') :
    (aggregationReport t).Perm (aggregationReport t') := by
  simp only [Rules.aggregationReport, h.reads]
  exact h.aggregations.flatMap_right _

theorem content_tooManyFields_of_perm {property target : String} {fields fields' : List String}
    (h : fields.Perm fields') :
    SameProblems (reported (1 < fields.length) (.tooManyFields property target fields))
      (reported (1 < fields'.length) (.tooManyFields property target fields')) := by
  unfold SameProblems reported
  rw [h.length_eq]
  split
  · simp [content, Multiset.coe_eq_coe.mpr h]
  · exact .refl _

theorem content_tooManyTypes_of_perm {property target : String} {types types' : List PropertyType}
    (h : types.Perm types') :
    SameProblems (reported (1 < types.length) (.tooManyTypes property target types))
      (reported (1 < types'.length) (.tooManyTypes property target types')) := by
  unfold SameProblems reported
  rw [h.length_eq]
  split
  · simp [content, Multiset.coe_eq_coe.mpr h]
  · exact .refl _

theorem ReorderedTarget.cardinalityReport (h : ReorderedTarget t t') :
    SameProblems (cardinalityReport t) (cardinalityReport t') := by
  have hnames : (t.mappings.map Mapping.name).eraseDups.Perm
      (t'.mappings.map Mapping.name).eraseDups := perm_eraseDups (h.mappings.map _)
  have hentries (property : String) :
      (entriesOf t.mappings property).Perm (entriesOf t'.mappings property) :=
    perm_eraseDups ((h.mappings.filter _).filterMap _)
  have htypes (property : String) :
      (typesOf t.mappings property).Perm (typesOf t'.mappings property) :=
    perm_eraseDups ((h.mappings.filter _).filterMap _)
  simp only [Rules.cardinalityReport, h.name]
  refine (SameProblems.of_perm (hnames.flatMap_right _)).trans
    (SameProblems.flatMap_forall₂ (r := Eq) (List.forall₂_refl _) ?_)
  rintro property _ rfl
  exact (content_tooManyFields_of_perm (hentries property)).append
    (content_tooManyTypes_of_perm (htypes property))

/-- What is said of a target by itself. -/
def ownReport (spec : JobSpec) (t : Target) : List Problem :=
  referenceReport spec t ++ (typeReport t ++ (aggregationReport t ++
    if t.type = .customQuery then [] else cardinalityReport t))

theorem targetReport_eq (spec : JobSpec) (earlier : List Target) (t : Target) :
    targetReport spec earlier t =
      nameReport .target (earlier.map Target.name) t.name ++ ownReport spec t := by
  simp only [targetReport, ownReport, List.append_assoc]

theorem ReorderedTarget.ownReport {spec spec' : JobSpec} (h : ReorderedTarget t t')
    (hsources : spec.sources.Perm spec'.sources) :
    SameProblems (ownReport spec t) (ownReport spec' t') := by
  have hnames (name : String) :
      name ∈ spec'.sources.map Source.name ↔ name ∈ spec.sources.map Source.name :=
    (hsources.map Source.name).mem_iff.symm
  have hreference : referenceReport spec t = referenceReport spec' t' := by
    have hsource : t'.source = t.source ∧ t'.transform.sql = t.transform.sql := by
      rw [h.others]
      exact ⟨rfl, rfl⟩
    simp only [referenceReport, hsource, hnames, h.name]
  unfold Rules.ownReport
  rw [hreference, h.type]
  refine SameProblems.append (.of_perm (.refl _)) (SameProblems.append (.of_perm h.typeReport)
    (SameProblems.append (.of_perm h.aggregationReport) ?_))
  split
  · exact .of_perm (.refl _)
  · exact h.cardinalityReport

end Targets

section Specs

variable {spec spec' : JobSpec}

theorem map_eq_of_forall₂ {α β : Type} {r : α → α → Prop} {items items' : List α}
    (h : List.Forall₂ r items items') (f : α → β) (hf : ∀ a a', r a a' → f a = f a') :
    items.map f = items'.map f := by
  rw [← List.forall₂_eq_eq_eq, List.forall₂_map_left_iff, List.forall₂_map_right_iff]
  exact h.imp hf

/-- The active targets correspond to each other. -/
theorem Reordered.activeTargets (h : Reordered spec spec') :
    ∃ ts, spec.activeTargets.Perm ts ∧ List.Forall₂ ReorderedTarget ts spec'.activeTargets := by
  obtain ⟨ts, hperm, hts⟩ := h.targets
  refine ⟨ts.filter Target.active, hperm.filter _, ?_⟩
  exact List.rel_filter (fun {t t'} ht => by simp only [ht.active]) hts

theorem Reordered.activeTargets_eq_nil (h : Reordered spec spec') :
    spec'.activeTargets = [] ↔ spec.activeTargets = [] := by
  obtain ⟨ts, hperm, hts⟩ := h.activeTargets
  rw [← List.length_eq_zero_iff, ← List.length_eq_zero_iff, hperm.length_eq, hts.length_eq]

theorem Reordered.hasTarget (h : Reordered spec spec') (name : String) (type : TargetType) :
    (∃ t ∈ spec'.activeTargets, t.name = name ∧ t.type = type) ↔
      ∃ t ∈ spec.activeTargets, t.name = name ∧ t.type = type := by
  obtain ⟨ts, hperm, hts⟩ := h.activeTargets
  have hkeys : ts.map (fun t => (t.name, t.type)) =
      spec'.activeTargets.map fun t => (t.name, t.type) :=
    map_eq_of_forall₂ hts _ fun t t' ht => by rw [ht.name, ht.type]
  have hmem (items : List Target) : (∃ t ∈ items, t.name = name ∧ t.type = type) ↔
      (name, type) ∈ items.map fun t => (t.name, t.type) := by
    simp only [List.mem_map, Prod.mk.injEq]
  rw [hmem, hmem, ← hkeys, (hperm.map _).mem_iff]

theorem Reordered.awaited (h : Reordered spec spec') (kind : ActionExecuteAfter) (name : String) :
    Awaited spec' kind name ↔ Awaited spec kind name := by
  cases kind <;> simp only [Awaited, h.hasTarget, h.sources.mem_iff, h.actions.mem_iff]

theorem Reordered.modelled (h : Reordered spec spec') (hspec : spec.Modelled) :
    spec'.Modelled := by
  obtain ⟨ts, hperm, hts⟩ := h.targets
  have htypes : ts.map Target.type = spec'.targets.map Target.type :=
    map_eq_of_forall₂ hts _ fun t t' ht => ht.type.symm
  intro t' ht'
  have hmem : t'.type ∈ spec.targets.map Target.type := by
    rw [(hperm.map Target.type).mem_iff, htypes]
    exact List.mem_map_of_mem ht'
  obtain ⟨t, ht, htype⟩ := List.mem_map.mp hmem
  exact htype ▸ hspec t ht

/-- A job spec in another order has the same report up to order. -/
theorem Reordered.report (h : Reordered spec spec') :
    SameProblems (report spec) (report spec') := by
  have hsources : SameProblems (alongside sourceReport spec.sources)
      (alongside sourceReport spec'.sources) :=
    sameProblems_alongside (h.sources.map _) (.of_perm (h.sources.flatMap_right _))
  have htargets : SameProblems (alongside (targetReport spec) spec.activeTargets)
      (alongside (targetReport spec') spec'.activeTargets) := by
    obtain ⟨ts, hperm, hts⟩ := h.activeTargets
    have hnames : ts.map Target.name = spec'.activeTargets.map Target.name :=
      map_eq_of_forall₂ hts _ fun t t' ht => ht.name.symm
    have hown (spec : JobSpec) : targetReport spec = fun earlier t =>
        nameReport .target (earlier.map Target.name) t.name ++ ownReport spec t :=
      funext fun earlier => funext (targetReport_eq spec earlier)
    rw [hown, hown]
    apply sameProblems_alongside
    · exact hnames ▸ hperm.map _
    · exact (SameProblems.of_perm (hperm.flatMap_right _)).trans
        (SameProblems.flatMap_forall₂ hts fun t t' ht => ht.ownReport h.sources)
  have hactions : SameProblems (alongside actionReport spec.actions)
      (alongside actionReport spec'.actions) :=
    sameProblems_alongside (h.actions.map _) (.of_perm (h.actions.flatMap_right _))
  have hdependencies : dependencyReport spec = dependencyReport spec' := by
    funext a
    simp only [dependencyReport, h.awaited]
  have hdependency : SameProblems (spec.actions.flatMap (dependencyReport spec))
      (spec'.actions.flatMap (dependencyReport spec')) := by
    rw [hdependencies]
    exact .of_perm (h.actions.flatMap_right _)
  unfold Rules.report
  simp only [h.activeTargets_eq_nil]
  exact (((hsources.append htargets).append (.of_perm (.refl _))).append hactions).append
    hdependency

end Specs

/-- However the parts of a job spec that was read are put in order, the same problems are found:
their messages correspond one by one, and there are none in one order exactly when there are none
in another. -/
theorem problemsOf_reordered (origin : String) (raw : Value) (spec spec' : JobSpec)
    (h : JobSpec.ofDocument origin raw = .ok spec) (hreordered : Reordered spec spec') :
    ∃ problems problems', problemsOf spec = .ok problems ∧ problemsOf spec' = .ok problems' ∧
      (∃ messages, (problems.map Problem.message).Perm messages ∧
        List.Forall₂ SameButNames messages (problems'.map Problem.message)) ∧
      problems.length = problems'.length ∧ (problems = [] ↔ problems' = []) := by
  have hmodelled := JobSpec.ofDocument_modelled h
  obtain ⟨aligned, hperm, haligned⟩ := hreordered.report.exists_aligned
  have hlength : (report spec).length = (report spec').length :=
    hperm.length_eq.trans haligned.length_eq
  refine ⟨report spec, report spec', problemsOf_eq_report hmodelled,
    problemsOf_eq_report (hreordered.modelled hmodelled),
    ⟨aligned.map Problem.message, hperm.map _, ?_⟩, hlength, ?_⟩
  · rw [List.forall₂_map_left_iff, List.forall₂_map_right_iff]
    exact haligned.imp fun _ _ hsame => hsame.message
  · rw [← List.length_eq_zero_iff, ← List.length_eq_zero_iff, hlength]

/-- Two sources of one name, and a node whose age comes from two fields of two types. -/
def agesDocument : Value := .record [
  ("sources", .list [
    .record [("name", .text "rows"), ("query", .text "SELECT 1 ORDER BY 1")],
    .record [("name", .text "rows")]]),
  ("targets", .list [.record [
    ("name", .text "Person"), ("type", .text "node"), ("source", .text "rows"),
    ("mappings", .list [
      .record [("name", .text "age"), ("field", .text "years"), ("fragment_type", .text "node"),
        ("type", .text "integer")],
      .record [("name", .text "age"), ("field", .text "days"), ("fragment_type", .text "rel"),
        ("type", .text "float")]])]])]

def yearsMapping : Mapping :=
  { name := "age", field := "years", fragment := .node, type := some .integer }

def daysMapping : Mapping :=
  { name := "age", field := "days", fragment := .rel, type := some .float }

def aged (mappings : List Mapping) : Target where
  name := "Person"
  type := .node
  source := "rows"
  mappings

def ages : JobSpec where
  sources := [{ name := "rows", query := "SELECT 1 ORDER BY 1" }, { name := "rows" }]
  targets := [aged [yearsMapping, daysMapping]]

/-- The same sources and mappings, the later ones first. -/
def agesReversed : JobSpec where
  sources := [{ name := "rows" }, { name := "rows", query := "SELECT 1 ORDER BY 1" }]
  targets := [aged [daysMapping, yearsMapping]]

theorem ages_reordered :
    JobSpec.ofDocument unnamedOrigin agesDocument = .ok ages ∧ Reordered ages agesReversed ∧
      ∃ problems', problemsOf agesReversed = .ok problems' ∧ problems'.length = 7 ∧
        .tooManyFields "age" "Person" ["days", "years"] ∈ problems' := by
  have hread : JobSpec.ofDocument unnamedOrigin agesDocument = .ok ages := rfl
  have hreordered : Reordered ages agesReversed := {
    sources := .swap _ _ _
    targets := ⟨_, .refl _, .cons ⟨.swap _ _ _, .refl _, rfl⟩ .nil⟩
    actions := .refl _ }
  obtain ⟨problems, problems', hproblems, hproblems', _, hlength, _⟩ :=
    problemsOf_reordered _ _ _ _ hread hreordered
  have hfound : problemsOf ages = .ok [.sortedSource "rows", .duplicateName .source "rows",
      .nodeFragment .rel "age", .noLabel "Person", .noKey "Person",
      .tooManyFields "age" "Person" ["years", "days"],
      .tooManyTypes "age" "Person" [.integer, .float]] := by decide +kernel
  have hfound' : problemsOf agesReversed = .ok [.duplicateName .source "rows",
      .sortedSource "rows", .nodeFragment .rel "age", .noLabel "Person", .noKey "Person",
      .tooManyFields "age" "Person" ["days", "years"],
      .tooManyTypes "age" "Person" [.float, .integer]] := by decide +kernel
  refine ⟨hread, hreordered, problems', hproblems', ?_, ?_⟩
  · rw [← hlength, Except.ok.inj (hproblems.symm.trans hfound)]
    rfl
  · rw [Except.ok.inj (hproblems'.symm.trans hfound')]
    decide

end GraphImport.Rules
