import Mathlib.Data.List.Perm.Subperm
import GraphImport.Proofs.Rules.Reordering

/-!
# Job specs put together

Two job specs without common names of sources, active targets or actions can be put together and
make no problem that neither of them has. All names are told as before. What can go are references
that find nothing on their own, as each job spec may name the other's parts, and the lack of an
active target. No other problem is settled.
-/

namespace GraphImport.Rules

open Document (Value)
open Spec

/-- Two job specs put together, the parts of the first before those of the second. -/
def merged (spec other : JobSpec) : JobSpec where
  sources := spec.sources ++ other.sources
  targets := spec.targets ++ other.targets
  actions := spec.actions ++ other.actions

/-- Job specs without common names of sources, active targets or actions. -/
structure ApartByName (spec other : JobSpec) : Prop where
  sources : ∀ name ∈ spec.sources.map Source.name, name ∉ other.sources.map Source.name
  targets : ∀ name ∈ spec.activeTargets.map Target.name,
    name ∉ other.activeTargets.map Target.name
  actions : ∀ name ∈ spec.actions.map Action.name, name ∉ other.actions.map Action.name

/-- A problem about something missing that another job spec can have. -/
def Problem.isLack : Problem → Bool
  | .undefinedSource _ | .dependencyUnknown _ _ _ | .noActiveTarget => true
  | _ => false

/-- The problems of before, less some of those about something missing. -/
structure Settled (problems before : List Problem) : Prop where
  sublist : problems.Sublist before
  kept : problems.filter (fun p => !p.isLack) = before.filter fun p => !p.isLack

namespace Settled

variable {ps qs ps' qs' : List Problem}

theorem refl (ps : List Problem) : Settled ps ps :=
  ⟨.refl ps, rfl⟩

theorem append (h : Settled ps qs) (h' : Settled ps' qs') : Settled (ps ++ ps') (qs ++ qs') where
  sublist := h.sublist.append h'.sublist
  kept := by rw [List.filter_append, List.filter_append, h.kept, h'.kept]

/-- What is no longer missing. -/
theorem supplied {condition : Prop} [Decidable condition] {p : Problem} (hp : p.isLack = true) :
    Settled [] (reported condition p) where
  sublist := List.nil_sublist _
  kept := by simp [filter_reported, hp]

/-- What is missing in fewer cases. -/
theorem reported {condition condition' : Prop} [Decidable condition] [Decidable condition']
    {p : Problem} (hp : p.isLack = true) (h : condition → condition') :
    Settled (reported condition p) (reported condition' p) := by
  by_cases hcondition : condition
  · simpa [Rules.reported, hcondition, h hcondition] using refl _
  · simpa [Rules.reported, hcondition] using supplied hp

theorem flatMap {α : Type} {say say' : α → List Problem}
    (h : ∀ item, Settled (say item) (say' item)) (items : List α) :
    Settled (items.flatMap say) (items.flatMap say') := by
  induction items with
  | nil => exact refl _
  | cons item rest ih =>
    rw [List.flatMap_cons, List.flatMap_cons]
    exact (h item).append ih

theorem alongside {α : Type} {say say' : List α → α → List Problem}
    (h : ∀ earlier item, Settled (say earlier item) (say' earlier item)) (items : List α) :
    Settled (alongside say items) (alongside say' items) :=
  flatMap (fun _ => h _ _) _

end Settled

section Context

variable {spec larger : JobSpec}

/-- A job spec all of whose parts another one has as well. -/
structure PartOf (spec larger : JobSpec) : Prop where
  sources : spec.sources ⊆ larger.sources
  targets : spec.activeTargets ⊆ larger.activeTargets
  actions : spec.actions ⊆ larger.actions

theorem PartOf.awaited (h : PartOf spec larger) {kind : ActionExecuteAfter} {name : String}
    (hawaited : Awaited spec kind name) : Awaited larger kind name := by
  have htarget (type : TargetType) :
      (∃ t ∈ spec.activeTargets, t.name = name ∧ t.type = type) →
        ∃ t ∈ larger.activeTargets, t.name = name ∧ t.type = type :=
    fun ⟨t, ht, hfound⟩ => ⟨t, h.targets ht, hfound⟩
  cases kind with
  | source =>
    obtain ⟨s, hs, hname⟩ := hawaited
    exact ⟨s, h.sources hs, hname⟩
  | action =>
    obtain ⟨a, ha, hname⟩ := hawaited
    exact ⟨a, h.actions ha, hname⟩
  | node | edge | customQuery => exact htarget _ hawaited
  | _ => trivial

/-- Beside more sources, fewer references of a target find none. -/
theorem PartOf.ownReport (h : PartOf spec larger) (t : Target) :
    Settled (ownReport larger t) (ownReport spec t) := by
  have hnames : t.source ≠ "" ∧ t.source ∉ larger.sources.map Source.name →
      t.source ≠ "" ∧ t.source ∉ spec.sources.map Source.name :=
    And.imp_right (mt fun hname => List.map_subset _ h.sources hname)
  have hreference : Settled (referenceReport larger t) (referenceReport spec t) :=
    ((Settled.refl _).append (.reported rfl hnames)).append (.refl _)
  exact hreference.append (.refl _)

theorem PartOf.targetReport (h : PartOf spec larger) (earlier : List Target) (t : Target) :
    Settled (targetReport larger earlier t) (targetReport spec earlier t) := by
  rw [targetReport_eq, targetReport_eq]
  exact (Settled.refl _).append (h.ownReport t)

/-- Beside more parts, fewer actions wait for something that is not there. -/
theorem PartOf.dependencyReport (h : PartOf spec larger) (a : Action) :
    Settled (dependencyReport larger a) (dependencyReport spec a) := by
  unfold Rules.dependencyReport
  cases a.executeAfter with
  | none => exact .refl _
  | some kind =>
    by_cases hitem : kind.namesSingleItem = true
    · cases filled? a.executeAfterName with
      | none => exact .refl _
      | some name =>
        simp only [hitem, if_true]
        exact .reported rfl (mt h.awaited)
    · simpa [hitem] using Settled.refl []

end Context

/-- Items whose names are not among those before them are told as if they stood alone. -/
theorem alongside_named_append {α : Type} (item : NamedItem) (name : α → String)
    (say : α → List Problem) {items later : List α}
    (h : ∀ s ∈ items.map name, s ∉ later.map name) :
    alongside (fun earlier a => nameReport item (earlier.map name) (name a) ++ say a)
      (items ++ later) =
      alongside (fun earlier a => nameReport item (earlier.map name) (name a) ++ say a) items ++
        alongside (fun earlier a => nameReport item (earlier.map name) (name a) ++ say a)
          later := by
  rw [alongside_append]
  congr 1
  apply alongside_congr
  intro earlier a ha
  have hnew : name a ∉ items.map name := fun hmem => h _ hmem (List.mem_map_of_mem ha)
  simp only [nameReport, List.map_append, List.mem_append, hnew, false_or]

/-- Two lists joined to two others, each to its own. -/
theorem perm_interleave {α : Type} {ps a b : List α} (h : ps.Perm (a ++ b)) (c d : List α) :
    (ps ++ (c ++ d)).Perm (a ++ c ++ (b ++ d)) := by
  have hpair : (a ++ b ++ (c ++ d)).Perm (a ++ c ++ (b ++ d)) := by
    simp only [List.append_assoc]
    exact (List.perm_append_comm_assoc b c d).append_left a
  exact (h.append_right (c ++ d)).trans hpair

section Merged

variable {spec other : JobSpec}

theorem activeTargets_merged (spec other : JobSpec) :
    (merged spec other).activeTargets = spec.activeTargets ++ other.activeTargets :=
  List.filter_append ..

theorem partOf_merged_left (spec other : JobSpec) : PartOf spec (merged spec other) where
  sources := List.subset_append_left _ _
  targets := activeTargets_merged spec other ▸ List.subset_append_left _ _
  actions := List.subset_append_left _ _

theorem partOf_merged_right (spec other : JobSpec) : PartOf other (merged spec other) where
  sources := List.subset_append_right _ _
  targets := activeTargets_merged spec other ▸ List.subset_append_right _ _
  actions := List.subset_append_right _ _

theorem modelled_merged (h : spec.Modelled) (h' : other.Modelled) :
    (merged spec other).Modelled :=
  fun t ht => (List.mem_append.mp ht).elim (h t) (h' t)

/-- What is told of the targets of both: their names as before, and fewer references. -/
theorem ApartByName.targets_settled (h : ApartByName spec other) :
    Settled (alongside (targetReport (merged spec other)) (merged spec other).activeTargets)
      (alongside (targetReport spec) spec.activeTargets ++
        alongside (targetReport other) other.activeTargets) := by
  have hreport : targetReport (merged spec other) = fun earlier t =>
      nameReport .target (earlier.map Target.name) t.name ++ ownReport (merged spec other) t :=
    funext fun earlier => funext (targetReport_eq _ earlier)
  have hsplit : alongside (targetReport (merged spec other)) (merged spec other).activeTargets =
      alongside (targetReport (merged spec other)) spec.activeTargets ++
        alongside (targetReport (merged spec other)) other.activeTargets := by
    rw [activeTargets_merged, hreport]
    exact alongside_named_append .target Target.name _ h.targets
  rw [hsplit]
  exact (Settled.alongside (partOf_merged_left spec other).targetReport _).append
    (Settled.alongside (partOf_merged_right spec other).targetReport _)

theorem activity_settled (spec other : JobSpec) :
    Settled (reported ((merged spec other).activeTargets = []) .noActiveTarget)
      (reported (spec.activeTargets = []) .noActiveTarget ++
        reported (other.activeTargets = []) .noActiveTarget) := by
  have hnone : (merged spec other).activeTargets = [] → spec.activeTargets = [] := by
    intro hnil
    rw [activeTargets_merged] at hnil
    exact (List.append_eq_nil_iff.mp hnil).1
  have hother : Settled [] (reported (other.activeTargets = []) .noActiveTarget) :=
    .supplied rfl
  simpa using (Settled.reported rfl hnone).append hother

theorem dependencies_settled (spec other : JobSpec) :
    Settled ((merged spec other).actions.flatMap (dependencyReport (merged spec other)))
      (spec.actions.flatMap (dependencyReport spec) ++
        other.actions.flatMap (dependencyReport other)) := by
  rw [merged, List.flatMap_append]
  exact (Settled.flatMap (partOf_merged_left spec other).dependencyReport _).append
    (Settled.flatMap (partOf_merged_right spec other).dependencyReport _)

/-- What is told of two job specs put together is what is told of each, up to order and less some
of what is missing. -/
theorem ApartByName.report_settled (h : ApartByName spec other) :
    ∃ before, Settled (report (merged spec other)) before ∧
      before.Perm (report spec ++ report other) := by
  have hsources : alongside sourceReport (merged spec other).sources =
      alongside sourceReport spec.sources ++ alongside sourceReport other.sources :=
    alongside_named_append .source Source.name _ h.sources
  have hactions : alongside actionReport (merged spec other).actions =
      alongside actionReport spec.actions ++ alongside actionReport other.actions :=
    alongside_named_append .action Action.name _ h.actions
  have hsettled := ((((Settled.refl (alongside sourceReport (merged spec other).sources)).append
    h.targets_settled).append (activity_settled spec other)).append
    (Settled.refl (alongside actionReport (merged spec other).actions))).append
    (dependencies_settled spec other)
  refine ⟨_, hsettled, ?_⟩
  rw [hsources, hactions]
  exact perm_interleave (perm_interleave (perm_interleave (perm_interleave (.refl _) _ _) _ _) _ _)
    _ _

end Merged

/-- Job specs that were read and have no names in common make, put together, no message that they
do not make on their own, and none more often. All problems that are not about something missing
are there as before. So two job specs without problems have none together. -/
theorem problemsOf_merged (origin origin' : String) (raw raw' : Value) (spec other : JobSpec)
    (h : JobSpec.ofDocument origin raw = .ok spec)
    (h' : JobSpec.ofDocument origin' raw' = .ok other) (hapart : ApartByName spec other) :
    ∃ problems own others, problemsOf (merged spec other) = .ok problems ∧
      problemsOf spec = .ok own ∧ problemsOf other = .ok others ∧
      (problems.map Problem.message).Subperm
        (own.map Problem.message ++ others.map Problem.message) ∧
      (problems.filter fun p => !p.isLack).Perm ((own ++ others).filter fun p => !p.isLack) ∧
      (own = [] → others = [] → problems = []) := by
  have hmodelled := JobSpec.ofDocument_modelled h
  have hmodelled' := JobSpec.ofDocument_modelled h'
  obtain ⟨before, hsettled, hperm⟩ := hapart.report_settled
  have hmessages : ((report (merged spec other)).map Problem.message).Subperm
      ((report spec).map Problem.message ++ (report other).map Problem.message) := by
    rw [← List.map_append]
    exact (hsettled.sublist.map _).subperm.trans (hperm.map _).subperm
  refine ⟨_, _, _, problemsOf_eq_report (modelled_merged hmodelled hmodelled'),
    problemsOf_eq_report hmodelled, problemsOf_eq_report hmodelled', hmessages, ?_, ?_⟩
  · rw [hsettled.kept]
    exact hperm.filter _
  · intro hown hothers
    rw [hown, hothers] at hmessages
    exact List.map_eq_nil_iff.mp (List.subperm_nil.mp hmessages)

/-- A query of its own that reads a source of another job spec, and an action that waits for it. -/
def talliesDocument : Value := .record [
  ("targets", .list [
    .record [("name", .text "tally"), ("type", .text "custom_query"), ("source", .text "visits"),
      ("custom_query", .text "RETURN 1")]]),
  ("actions", .list [
    .record [("name", .text "count"), ("type", .text "cypher"), ("execute_after", .text "source"),
      ("execute_after_name", .text "visits"), ("options", .record [("cypher", .null)])]])]

def tallies : JobSpec where
  targets := [
    { name := "tally", type := .customQuery, source := "visits", customQuery := "RETURN 1" }]
  actions := [
    { name := "count", type := .cypher, options := [("cypher", .null)],
      executeAfter := some .source, executeAfterName := "visits" }]

/-- Two sources of one name and nothing that reads them. -/
def visitsDocument : Value := .record [
  ("sources", .list [.record [("name", .text "visits")], .record [("name", .text "visits")]])]

def visits : JobSpec where
  sources := [{ name := "visits" }, { name := "visits" }]

theorem tallies_visits_merged :
    JobSpec.ofDocument unnamedOrigin talliesDocument = .ok tallies ∧
      JobSpec.ofDocument unnamedOrigin visitsDocument = .ok visits ∧
      ApartByName tallies visits ∧
      problemsOf tallies =
        .ok [.undefinedSource "visits", .dependencyUnknown "count" .source "visits"] ∧
      problemsOf visits = .ok [.duplicateName .source "visits", .noActiveTarget] ∧
      ∃ problems, problemsOf (merged tallies visits) = .ok problems ∧
        (problems.filter fun p => !p.isLack) = [.duplicateName .source "visits"] := by
  have htallies : JobSpec.ofDocument unnamedOrigin talliesDocument = .ok tallies := rfl
  have hvisits : JobSpec.ofDocument unnamedOrigin visitsDocument = .ok visits := rfl
  have hapart : ApartByName tallies visits := ⟨by decide, by decide, by decide⟩
  have hown : problemsOf tallies =
      .ok [.undefinedSource "visits", .dependencyUnknown "count" .source "visits"] := rfl
  have hothers : problemsOf visits =
      .ok [.duplicateName .source "visits", .noActiveTarget] := rfl
  obtain ⟨problems, own, others, hproblems, hown', hothers', _, hkept, _⟩ :=
    problemsOf_merged _ _ _ _ _ _ htallies hvisits hapart
  rw [← Except.ok.inj (hown.symm.trans hown'), ← Except.ok.inj (hothers.symm.trans hothers')]
    at hkept
  exact ⟨htallies, hvisits, hapart, hown, hothers, problems, hproblems,
    List.perm_singleton.mp hkept⟩

end GraphImport.Rules
