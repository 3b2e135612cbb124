import GraphImport.Proofs.Rules.ActiveTargets
import GraphImport.Proofs.Rules.Report

/-!
# Where a walk ends

A walk ends before its time at the first active target of a type without rules and nowhere else,
whatever problems it has met before. Everything else that is looked up on the way is there: the
option an action of each type needs, and the type of target for each kind of item that an action
waits for.
-/

namespace GraphImport.Rules

open Document (Value)
open Spec

/-- The words of the target types that have rules. -/
def ruledWords : List String :=
  ["node", "edge", "custom_query"]

/-- The words that the active targets of a job spec get as their types, when its targets get one
word each. -/
def activeWords (spec : JobSpec) (types : List String) : List String :=
  ((spec.targets.zip types).filter fun (t, _) => t.active).map Prod.snd

theorem word_named (name : String) : word (TargetType.named name) = name := by
  unfold TargetType.named
  cases hfound : (ofWord? name : Option TargetType) with
  | none => rfl
  | some type =>
    unfold ofWord? at hfound
    have hword := List.find?_some hfound
    exact beq_iff_eq.mp hword

theorem message_named (name : String) :
    UnknownTargetType.message { type := .named name } = s!"Unknown target type: {name}" :=
  congrArg (fun shown => s!"Unknown target type: {shown}") (word_named name)

theorem named_mem_members {name : String} :
    TargetType.named name ∈ (Vocabulary.members : List TargetType) ↔ name ∈ ruledWords := by
  constructor
  · intro h
    have hword : word (TargetType.named name) ∈
        (Vocabulary.members : List TargetType).map word := List.mem_map_of_mem h
    rwa [word_named] at hword
  · intro h
    simp only [ruledWords, List.mem_cons, List.not_mem_nil, or_false] at h
    rcases h with rfl | rfl | rfl <;> decide

theorem activeTargets_retyped (spec : JobSpec) (types : List String) :
    (spec.retyped types).activeTargets.map Target.type =
      (activeWords spec types).map TargetType.named := by
  simp only [JobSpec.retyped, JobSpec.activeTargets, activeWords]
  generalize spec.targets = targets
  induction targets generalizing types with
  | nil => rfl
  | cons t rest ih =>
    cases types with
    | nil => rfl
    | cons name types =>
      rw [List.zipWith_cons_cons, List.zip_cons_cons, List.filter_cons, List.filter_cons]
      cases hactive : t.active with
      | false => simpa [hactive] using ih types
      | true => simpa [hactive] using ih types

/-- The type that ends a walk is the first of an active target that has no rules. -/
theorem targetFindings_stop (spec : JobSpec) (seen : List String) (targets : List Target) :
    (targetFindings spec seen targets).2 =
      ((targets.filter Target.active).map Target.type).find? fun type =>
        type ∉ (Vocabulary.members : List TargetType) := by
  induction targets generalizing seen with
  | nil => rfl
  | cons t rest ih =>
    rw [targetFindings, List.filter_cons]
    cases hactive : t.active with
    | false => simpa [hactive] using ih seen
    | true =>
      rw [if_pos rfl, if_pos rfl, List.map_cons, List.find?_cons]
      cases hrules : typeFindings? t with
      | none =>
        have hunknown := typeFindings?_eq_none.mp hrules
        simp [hunknown]
      | some findings =>
        have hknown : t.type ∈ (Vocabulary.members : List TargetType) := by
          by_contra hunknown
          rw [typeFindings?_eq_none.mpr hunknown] at hrules
          cases hrules
        simpa [hknown] using ih (t.name :: seen)

/-- A job spec has no list of problems exactly when some active target has a type without rules,
and then the first such type is named. -/
theorem problemsOf_eq_error {spec : JobSpec} {e : UnknownTargetType} :
    problemsOf spec = .error e ↔
      (spec.activeTargets.map Target.type).find? (fun type =>
        type ∉ (Vocabulary.members : List TargetType)) = some e.type := by
  have hstop := targetFindings_stop spec [] spec.targets
  rw [← JobSpec.activeTargets] at hstop
  rw [← hstop]
  cases hwalk : targetFindings spec [] spec.targets with
  | mk findings stop =>
    cases stop with
    | none => simp [problemsOf, examine, hwalk]
    | some type =>
      simp only [problemsOf, examine, hwalk, Except.error.injEq, Option.some.injEq]
      constructor
      · rintro rfl
        rfl
      · rintro rfl
        rfl

theorem problemsOf_retyped_eq_error {spec : JobSpec} {types : List String}
    {e : UnknownTargetType} :
    problemsOf (spec.retyped types) = .error e ↔
      ∃ name, (activeWords spec types).find? (fun name => name ∉ ruledWords) = some name ∧
        TargetType.named name = e.type := by
  have hunknown : (fun type => decide (type ∉ (Vocabulary.members : List TargetType))) ∘
      TargetType.named = fun name => decide (name ∉ ruledWords) := by
    funext name
    simp only [Function.comp_apply, named_mem_members]
  rw [problemsOf_eq_error, activeTargets_retyped, List.find?_map, hunknown,
    Option.map_eq_some_iff]

/-- What an action needs, by its type: an option, and how messages speak of the type. -/
def optionTable : List (ActionType × String × String) :=
  [(.cypher, "cypher", "cypher-style"), (.httpGet, "url", "http-style"),
    (.httpPost, "url", "http-style"), (.bigquery, "sql", "query-style")]

/-- The type of the target an action waits for, by the kind of item. -/
def awaitedTable : List (ActionExecuteAfter × TargetType) :=
  [(.node, .node), (.edge, .edge), (.customQuery, .customQuery)]

/-- What a walk can fail to find when it looks up its rules. -/
inductive Gap
  | target (type : TargetType)
  | option (type : ActionType)
  | awaited (kind : ActionExecuteAfter)

def lookUp {α β : Type} [BEq α] (table : List (α × β)) (key : α) (gap : Gap) : Except Gap β :=
  (table.lookup key).elim (.error gap) .ok

def actionFindingsByTable (seen : List String) : List Action → Except Gap (List Finding)
  | [] => .ok []
  | a :: rest => do
    let (option, _) ← lookUp optionTable a.type (.option a.type)
    let later ← actionFindingsByTable (a.name :: seen) rest
    return nameFindings .action seen a.name ++
      found (!a.options.any fun (key, _) => key == option) (.missingOption a.type a.name) ++ later

def resolvesByTable (spec : JobSpec) (name : String) : ActionExecuteAfter → Except Gap Bool
  | .source => .ok (spec.source? name).isSome
  | .action => .ok (spec.actions.any fun a => a.name == name)
  | kind => do
    let type ← lookUp awaitedTable kind (.awaited kind)
    return hasActiveTarget spec type name

def dependencyFindingsByTable (spec : JobSpec) (a : Action) : Except Gap (List Finding) :=
  match a.executeAfter with
  | none => .ok []
  | some kind =>
    if !kind.namesSingleItem then .ok []
    else match Spec.filled? a.executeAfterName with
      | none => .ok [.problem (.dependencyUnnamed a.name kind)]
      | some name => do
        let resolved ← resolvesByTable spec name kind
        return found (!resolved) (.dependencyUnknown a.name kind name)

/-- The problems of a job spec, found by a walk that looks its rules up in tables and fails where
one of them has no entry. -/
def problemsByTable (spec : JobSpec) : Except Gap (List Problem) :=
  match targetFindings spec [] spec.targets with
  | (_, some type) => .error (.target type)
  | (targets, none) => do
    let actions ← actionFindingsByTable [] spec.actions
    let dependencies ← spec.actions.mapM (dependencyFindingsByTable spec)
    return problemsIn (sourceFindings [] spec.sources ++ targets ++
      found (!spec.targets.any fun t => t.active) .noActiveTarget ++ actions ++
      dependencies.flatten)

/-- Every action type has an entry, and it is what the walk takes. -/
theorem lookUp_optionTable (type : ActionType) (gap : Gap) :
    lookUp optionTable type gap = .ok (requiredOption type, actionStyle type) := by
  cases type <;> rfl

theorem actionFindingsByTable_eq (seen : List String) (actions : List Action) :
    actionFindingsByTable seen actions = .ok (actionFindings seen actions) := by
  induction actions generalizing seen with
  | nil => rfl
  | cons a rest ih =>
    rw [actionFindingsByTable, actionFindings, lookUp_optionTable, ih]
    rfl

/-- Every kind of item whose target is looked up has an entry, and it is what the walk takes. -/
theorem resolvesByTable_eq (spec : JobSpec) (name : String) {kind : ActionExecuteAfter}
    (h : kind.namesSingleItem = true) :
    resolvesByTable spec name kind = .ok (resolves spec name kind) := by
  cases kind with
  | source | node | edge | customQuery | action => rfl
  | start | preloads | sources | nodes | edges | customQueries | loads => cases h

theorem dependencyFindingsByTable_eq (spec : JobSpec) (a : Action) :
    dependencyFindingsByTable spec a = .ok (dependencyFindings spec a) := by
  unfold dependencyFindingsByTable dependencyFindings
  cases a.executeAfter with
  | none => rfl
  | some kind =>
    cases hitem : kind.namesSingleItem with
    | false => simp [hitem]
    | true =>
      cases filled? a.executeAfterName with
      | none => simp [hitem]
      | some name =>
        simp only [hitem, Bool.not_true, Bool.false_eq_true, if_false,
          resolvesByTable_eq spec name hitem]
        rfl

/-- A walk that gets to its end finds the same by tables, none of which has a gap on its way. -/
theorem problemsByTable_of_ok {spec : JobSpec} {problems : List Problem}
    (h : problemsOf spec = .ok problems) : problemsByTable spec = .ok problems := by
  have hdependencies : spec.actions.mapM (dependencyFindingsByTable spec) =
      .ok (spec.actions.map (dependencyFindings spec)) := by
    rw [funext (dependencyFindingsByTable_eq spec)]
    exact List.mapM_pure
  cases hwalk : targetFindings spec [] spec.targets with
  | mk findings stop =>
    cases stop with
    | some type => simp [problemsOf, examine, hwalk] at h
    | none =>
      have hfound := h
      simp only [problemsOf, examine, hwalk] at hfound
      simp only [problemsByTable, hwalk, actionFindingsByTable_eq, hdependencies]
      rw [← Except.ok.inj hfound, problemsIn_append _ [_], problemsIn_note, problemsIn_nil,
        List.append_nil, List.flatMap_def]
      rfl

/-- With any words for the types of its targets, a job spec has no list of problems exactly when an
active target gets a word that names no type with rules, and what is told is the first such word.
The words of inactive targets change nothing. The walk through a job spec that was read always
gets to its end, and so does the one that looks its rules up in tables. -/
theorem walk_ends_at_first_unknown (spec : JobSpec) (types : List String) :
    ((∃ e, problemsOf (spec.retyped types) = .error e) ↔
      ∃ name ∈ activeWords spec types, name ∉ ruledWords) ∧
    (∀ name, (activeWords spec types).find? (fun name => name ∉ ruledWords) = some name →
      ∃ e, problemsOf (spec.retyped types) = .error e ∧
        e.message = s!"Unknown target type: {name}") ∧
    (∀ others, (spec.retyped others).activeTargets = (spec.retyped types).activeTargets →
      problemsOf (spec.retyped others) = problemsOf (spec.retyped types)) ∧
    ∀ origin raw, JobSpec.ofDocument origin raw = .ok spec →
      ∃ problems, problemsOf spec = .ok problems ∧ problemsByTable spec = .ok problems := by
  refine ⟨?_, ?_, ?_, ?_⟩
  · constructor
    · rintro ⟨e, he⟩
      obtain ⟨name, hname, _⟩ := problemsOf_retyped_eq_error.mp he
      exact ⟨name, List.mem_of_find?_eq_some hname, by simpa using List.find?_some hname⟩
    · rintro ⟨name, hname, hunknown⟩
      have hsome : ((activeWords spec types).find? fun name => name ∉ ruledWords).isSome := by
        rw [List.find?_isSome]
        exact ⟨name, hname, by simpa using hunknown⟩
      obtain ⟨first, hfirst⟩ := Option.isSome_iff_exists.mp hsome
      exact ⟨⟨.named first⟩, problemsOf_retyped_eq_error.mpr ⟨first, hfirst, rfl⟩⟩
  · intro name hname
    exact ⟨⟨.named name⟩, problemsOf_retyped_eq_error.mpr ⟨name, hname, rfl⟩, message_named name⟩
  · intro others hactive
    exact problemsOf_congr rfl hactive rfl
  · intro origin raw hread
    have hproblems := problemsOf_eq_report (JobSpec.ofDocument_modelled hread)
    exact ⟨report spec, hproblems, problemsByTable_of_ok hproblems⟩

/-- Three active targets and an inactive one, with an action that waits for an edge. -/
def tripsDocument : Value := .record [
  ("targets", .list [
    .record [("name", .text "Stop"), ("type", .text "node"), ("active", .bool false)],
    .record [("name", .text "Stop"), ("type", .text "node")],
    .record [("name", .text "TRIP"), ("type", .text "edge")],
    .record [("name", .text "TRIP"), ("type", .text "custom_query")]]),
  ("actions", .list [.record [("name", .text "tell"), ("type", .text "http_post"),
    ("execute_after", .text "edge"), ("execute_after_name", .text "TRIP")]])]

def trips : JobSpec where
  targets := [
    { name := "Stop", type := .node, active := false },
    { name := "Stop", type := .node },
    { name := "TRIP", type := .edge },
    { name := "TRIP", type := .customQuery }]
  actions := [
    { name := "tell", type := .httpPost, executeAfter := some .edge, executeAfterName := "TRIP" }]

theorem trips_end_at_first_unknown :
    (∃ e, problemsOf (trips.retyped ["mesh", "node", "Edge", "query"]) = .error e ∧
      e.message = "Unknown target type: Edge") ∧
    problemsOf (trips.retyped ["node", "node", "Edge", "query"]) =
      problemsOf (trips.retyped ["mesh", "node", "Edge", "query"]) ∧
    JobSpec.ofDocument unnamedOrigin tripsDocument = .ok trips ∧
    ∃ problems, problemsOf trips = .ok problems ∧ problemsByTable trips = .ok problems := by
  obtain ⟨_, hfirst, hothers, hread⟩ :=
    walk_ends_at_first_unknown trips ["mesh", "node", "Edge", "query"]
  have hdocument : JobSpec.ofDocument unnamedOrigin tripsDocument = .ok trips := rfl
  exact ⟨hfirst "Edge" (by decide), hothers _ rfl, hdocument, hread _ _ hdocument⟩

end GraphImport.Rules
