import GraphImport.Proofs.Rules.Completion
import Mathlib.Data.List.TakeWhile

/-!
# What a walk notes

A walk makes a note of each source with a query, of each node it comes to that has no label, and of
its own result if it gets to one. Nodes without a label are the ones that a missing label is
reported of, and the result is told by numbers: those of the items, whether they are active or not,
and that of the problems.
-/

namespace GraphImport.Rules

open Spec

section NotesIn

@[simp] theorem notesIn_nil : notesIn [] = [] := rfl

@[simp] theorem notesIn_problem (p : Problem) (rest : List Finding) :
    notesIn (.problem p :: rest) = notesIn rest := rfl

@[simp] theorem notesIn_note (n : Note) (rest : List Finding) :
    notesIn (.note n :: rest) = n :: notesIn rest := rfl

@[simp] theorem notesIn_append (a b : List Finding) :
    notesIn (a ++ b) = notesIn a ++ notesIn b :=
  List.filterMap_append

@[simp] theorem notesIn_found (condition : Bool) (p : Problem) :
    notesIn (found condition p) = [] := by
  cases condition <;> rfl

@[simp] theorem notesIn_flatMap {α : Type} (items : List α) (say : α → List Finding) :
    notesIn (items.flatMap say) = items.flatMap fun item => notesIn (say item) := by
  induction items with
  | nil => rfl
  | cons item rest ih => simp only [List.flatMap_cons, notesIn_append, ih]

@[simp] theorem notesIn_map_problem (problems : List Problem) :
    notesIn (problems.map .problem) = [] := by
  induction problems with
  | nil => rfl
  | cons p rest ih => rw [List.map_cons, notesIn_problem, ih]

@[simp] theorem notesIn_nameFindings (item : NamedItem) (seen : List String) (name : String) :
    notesIn (nameFindings item seen name) = [] := by
  simp [nameFindings]

theorem notesIn_actionFindings (seen : List String) (actions : List Action) :
    notesIn (actionFindings seen actions) = [] := by
  induction actions generalizing seen with
  | nil => rfl
  | cons a rest ih => simp [actionFindings, ih]

theorem notesIn_dependencyFindings (spec : JobSpec) (a : Action) :
    notesIn (dependencyFindings spec a) = [] := by
  unfold dependencyFindings
  cases a.executeAfter with
  | none => rfl
  | some kind =>
    cases hitem : kind.namesSingleItem with
    | false => simp [hitem]
    | true => cases filled? a.executeAfterName <;> simp [hitem]

end NotesIn

/-- The sources of a job spec that have a query. -/
def queriedSources (spec : JobSpec) : List Source :=
  spec.sources.filter fun s => !Text.isBlank? s.query

/-- Whether a target is a node without a label that resolves. -/
def Unlabelled (t : Target) : Prop :=
  t.type = .node ∧ ¬ t.Provides .node .label

instance (t : Target) : Decidable (Unlabelled t) :=
  inferInstanceAs (Decidable (_ ∧ _))

/-- The active targets whose own parts a walk looks at: those before the first of a type without
rules. -/
def walkedTargets (spec : JobSpec) : List Target :=
  spec.activeTargets.takeWhile fun t => t.type ∈ (Vocabulary.members : List TargetType)

/-- The nodes without a label that a walk comes to. -/
def unlabelledTargets (spec : JobSpec) : List Target :=
  (walkedTargets spec).filter fun t => Unlabelled t

/-- Whether a problem is a missing label. -/
def Problem.isNoLabel : Problem → Bool
  | .noLabel _ => true
  | _ => false

theorem notesIn_sourceFindings (seen : List String) (sources : List Source) :
    notesIn (sourceFindings seen sources) =
      (sources.filter fun s => !Text.isBlank? s.query).map fun s => .checkingOrderBy s.name := by
  induction sources generalizing seen with
  | nil => rfl
  | cons s rest ih =>
    rw [sourceFindings, notesIn_append, notesIn_append, notesIn_append, ih, notesIn_nameFindings,
      notesIn_found, List.filter_cons]
    cases Text.isBlank? s.query <;> rfl

/-- What is kept of a walk through the targets, when nothing is kept of their names and references
and one thing of the parts of some, is kept of those up to where the walk ends. -/
theorem targetFindings_kept {β : Type} (spec : JobSpec) (keep : List Finding → List β)
    {Counts : Target → Prop} [DecidablePred Counts] {tell : Target → β}
    (hnil : keep [] = []) (happend : ∀ a b, keep (a ++ b) = keep a ++ keep b)
    (hname : ∀ seen name, keep (nameFindings .target seen name) = [])
    (hreference : ∀ t, keep (referenceFindings spec t) = [])
    (hparts : ∀ t ofType, typeFindings? t = some ofType →
      keep ofType = if Counts t then [tell t] else [])
    (seen : List String) (targets : List Target) :
    keep (targetFindings spec seen targets).1 =
      (((targets.filter Target.active).takeWhile fun t =>
        t.type ∈ (Vocabulary.members : List TargetType)).filter fun t => Counts t).map tell := by
  induction targets generalizing seen with
  | nil => exact hnil
  | cons t rest ih =>
    rw [targetFindings, List.filter_cons]
    cases hactive : t.active with
    | false =>
      rw [if_neg Bool.false_ne_true, if_neg Bool.false_ne_true]
      exact ih seen
    | true =>
      rw [if_pos rfl, if_pos rfl, List.takeWhile_cons]
      cases hrules : typeFindings? t with
      | none =>
        rw [decide_eq_false (typeFindings?_eq_none.mp hrules), if_neg Bool.false_ne_true]
        dsimp only
        rw [happend, hname, hreference]
        rfl
      | some ofType =>
        have hruled : t.type ∈ (Vocabulary.members : List TargetType) := by
          refine Decidable.byContradiction fun hunknown => ?_
          rw [typeFindings?_eq_none.mpr hunknown] at hrules
          cases hrules
        rw [decide_eq_true hruled, if_pos rfl, List.filter_cons]
        dsimp only
        rw [happend, happend, happend, hname, hreference, hparts t ofType hrules, ih]
        by_cases hcounts : Counts t <;> simp [hcounts]

theorem notesIn_nodeFindings (t : Target) : notesIn (nodeFindings t) =
    if ¬ t.Provides .node .label then [.invalidNodeTarget t] else [] := by
  have hfragments : notesIn (t.mappings.flatMap fun m =>
      found (m.fragment != .node) (.nodeFragment m.fragment m.name)) = [] := by simp
  rw [nodeFindings, notesIn_append, notesIn_append, hfragments, notesIn_found, List.append_nil,
    List.nil_append]
  by_cases hlacks : lacks t .node .label = true
  · rw [if_pos hlacks, if_pos (lacks_eq_true.mp hlacks)]
    rfl
  · rw [if_neg hlacks, if_neg (mt lacks_eq_true.mpr hlacks)]
    rfl

theorem notesIn_typeFindings? {t : Target} {ofType : List Finding}
    (h : typeFindings? t = some ofType) :
    notesIn ofType = if Unlabelled t then [.invalidNodeTarget t] else [] := by
  have hedge : notesIn (edgeFindings t) = [] := by simp [edgeFindings]
  have hquery : notesIn (queryFindings t) = [] := by simp [queryFindings]
  have haggregations : notesIn (aggregationFindings t) = [] := by simp [aggregationFindings]
  have hproperties : notesIn (cardinalityFindings t) = [] := by simp [cardinalityFindings]
  unfold typeFindings? at h
  cases htype : t.type with
  | node =>
    rw [htype] at h
    cases h
    simp [Unlabelled, htype, notesIn_nodeFindings, haggregations, hproperties]
  | edge =>
    rw [htype] at h
    cases h
    simp [Unlabelled, htype, hedge, haggregations, hproperties]
  | customQuery =>
    rw [htype] at h
    cases h
    simp [Unlabelled, htype, hquery, haggregations]
  | unmodelled name => simp [htype] at h

/-- Of the targets a walk notes the nodes without a label. -/
theorem notesIn_targetFindings (spec : JobSpec) :
    notesIn (targetFindings spec [] spec.targets).1 =
      (unlabelledTargets spec).map .invalidNodeTarget := by
  refine targetFindings_kept spec notesIn notesIn_nil notesIn_append (notesIn_nameFindings .target)
    (fun t => ?_) (fun _ _ => notesIn_typeFindings?) [] spec.targets
  simp [referenceFindings]

theorem filter_isNoLabel_typeReport (t : Target) :
    (typeReport t).filter Problem.isNoLabel = reported (Unlabelled t) (.noLabel t.name) := by
  have hnode : (nodeReport t).filter Problem.isNoLabel =
      reported (¬ t.Provides .node .label) (.noLabel t.name) := by
    simp [nodeReport, List.filter_flatMap, filter_reported, Problem.isNoLabel]
  unfold typeReport
  cases htype : t.type with
  | node =>
    rw [hnode]
    exact reported_congr (by simp [Unlabelled, htype]) _
  | _ =>
    have hnot : reported (Unlabelled t) (.noLabel t.name) = [] :=
      reported_eq_nil.mpr (by simp [Unlabelled, htype])
    simp [hnot, edgeReport, queryReport, List.filter_flatMap, filter_reported, Problem.isNoLabel]

/-- Of the same targets it finds that they lack a label. -/
theorem filter_isNoLabel_targetFindings (spec : JobSpec) :
    (problemsIn (targetFindings spec [] spec.targets).1).filter Problem.isNoLabel =
      (unlabelledTargets spec).map fun t => .noLabel t.name := by
  apply targetFindings_kept spec fun findings => (problemsIn findings).filter Problem.isNoLabel
  · rfl
  · intro a b
    rw [problemsIn_append, List.filter_append]
  · intro seen name
    simp [nameFindings, Problem.isNoLabel]
  · intro t
    simp [problemsIn_referenceFindings, referenceReport, filter_reported, Problem.isNoLabel]
  · intro t ofType h
    have haggregations : (aggregationReport t).filter Problem.isNoLabel = [] := by
      simp [aggregationReport, List.filter_flatMap, filter_reported, Problem.isNoLabel]
    have hproperties : (if t.type = .customQuery then [] else cardinalityReport t).filter
        Problem.isNoLabel = [] := by
      split <;> simp [cardinalityReport, List.filter_flatMap, filter_reported, Problem.isNoLabel]
    rw [problemsIn_typeFindings? h, List.filter_append, List.filter_append,
      filter_isNoLabel_typeReport, haggregations, hproperties, List.append_nil, List.append_nil]
    rfl

/-- The notes of a walk: on sources, on targets, and on its result when it gets to one. -/
theorem notesOf_eq (spec : JobSpec) :
    notesOf spec = (queriedSources spec).map (fun s => .checkingOrderBy s.name) ++
      (unlabelledTargets spec).map .invalidNodeTarget ++
      (problemsOf spec).toOption.toList.map fun problems =>
        .validated spec.sources.length spec.targets.length spec.actions.length problems.length := by
  have htargets := notesIn_targetFindings spec
  cases hwalk : targetFindings spec [] spec.targets with
  | mk findings stop =>
    rw [hwalk] at htargets
    dsimp only at htargets
    cases stop with
    | some type =>
      have herror : problemsOf spec = .error { type } := by simp only [problemsOf, examine, hwalk]
      rw [herror]
      simp only [notesOf, examine, hwalk, notesIn_append, notesIn_sourceFindings, htargets]
      exact (List.append_nil _).symm
    | none =>
      have hok : problemsOf spec = .ok (problemsIn (sourceFindings [] spec.sources ++ findings ++
          found (!spec.targets.any fun t => t.active) .noActiveTarget ++
          actionFindings [] spec.actions ++ spec.actions.flatMap (dependencyFindings spec))) := by
        simp only [problemsOf, examine, hwalk, problemsIn_append, problemsIn_note, problemsIn_nil,
          List.append_nil]
      have hdependencies : notesIn (spec.actions.flatMap (dependencyFindings spec)) = [] := by
        simp [notesIn_dependencyFindings]
      rw [hok]
      simp only [notesOf, examine, hwalk, notesIn_append, notesIn_sourceFindings, htargets,
        notesIn_found, notesIn_actionFindings, hdependencies, notesIn_note, notesIn_nil,
        List.append_nil]
      rfl

/-- Whether a walk gets to its end or not, the labels it finds missing are those of the nodes it
notes. -/
theorem filter_isNoLabel_examine (spec : JobSpec) :
    (problemsIn (examine spec).findings).filter Problem.isNoLabel =
      (unlabelledTargets spec).map fun t => .noLabel t.name := by
  have hnone (part : Part) (hpart : part ≠ .targets) {problems : List Problem}
      (h : ∀ q ∈ problems, q.part = part) : problems.filter Problem.isNoLabel = [] := by
    refine filter_eq_nil_of_part (fun q hq hsame => hpart ?_) h
    cases q <;> cases hq
    exact hsame.symm
  have htargets := filter_isNoLabel_targetFindings spec
  have hsources : (problemsIn (sourceFindings [] spec.sources)).filter Problem.isNoLabel = [] := by
    have hreport := problemsIn_sourceFindings [] spec.sources
    simp only [List.map_nil, List.reverse_nil, List.nil_append] at hreport
    rw [hreport]
    exact hnone .sources (by decide) fun _ => part_of_mem_sources
  have hactivity : (problemsIn (found (!spec.targets.any fun t => t.active)
      .noActiveTarget)).filter Problem.isNoLabel = [] := by
    simp [Problem.isNoLabel]
  have hactions : (problemsIn (actionFindings [] spec.actions)).filter Problem.isNoLabel = [] := by
    have hreport := problemsIn_actionFindings [] spec.actions
    simp only [List.map_nil, List.reverse_nil, List.nil_append] at hreport
    rw [hreport]
    exact hnone .actions (by decide) fun _ => part_of_mem_actions
  have hdependencies : (problemsIn (spec.actions.flatMap (dependencyFindings spec))).filter
      Problem.isNoLabel = [] := by
    simp only [problemsIn_flatMap, problemsIn_dependencyFindings]
    exact hnone .dependencies (by decide) fun _ => part_of_mem_dependencies
  cases hwalk : targetFindings spec [] spec.targets with
  | mk findings stop =>
    rw [hwalk] at htargets
    cases stop with
    | some type =>
      simp only [examine, hwalk, problemsIn_append, List.filter_append, hsources, htargets,
        List.nil_append]
    | none =>
      simp only [examine, hwalk, problemsIn_append, List.filter_append, hsources, htargets,
        hactivity, hactions, hdependencies, problemsIn_note, problemsIn_nil, List.nil_append,
        List.append_nil]

/-- The problems that are returned are those found on the walk. -/
theorem problemsIn_examine_of_ok {spec : JobSpec} {problems : List Problem}
    (h : problemsOf spec = .ok problems) : problemsIn (examine spec).findings = problems := by
  rw [problemsOf] at h
  cases hstop : (examine spec).stoppedAt with
  | some type =>
    simp only [hstop] at h
    cases h
  | none =>
    simp only [hstop] at h
    exact Except.ok.inj h

/-- A walk that gets to its end has looked at all active targets. -/
theorem walkedTargets_of_ok {spec : JobSpec} {problems : List Problem}
    (h : problemsOf spec = .ok problems) : walkedTargets spec = spec.activeTargets := by
  rw [walkedTargets, List.takeWhile_eq_self_iff]
  intro t ht
  refine Classical.byContradiction fun hunknown => ?_
  cases hstop : (spec.activeTargets.map Target.type).find? fun type =>
      type ∉ (Vocabulary.members : List TargetType) with
  | some type => cases h.symm.trans (problemsOf_eq_error (e := { type }).mpr hstop)
  | none =>
    have hruled := List.find?_eq_none.mp hstop t.type (List.mem_map_of_mem ht)
    simp only [decide_eq_true_eq, Classical.not_not] at hruled hunknown
    exact hunknown hruled

end GraphImport.Rules
