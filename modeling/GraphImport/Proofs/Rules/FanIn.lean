import GraphImport.Proofs.Rules.Report

/-!
# Fan-in

Properties are told apart by target and name, not by the part of an edge they belong to. A
property has too many fields, or types, exactly when two key or property mappings of its name
differ in what they enter, wherever the mappings point.
-/

namespace GraphImport.Rules

open Document (Value)
open Spec

/-- Whether two mappings enter different things. -/
def Conflict {β : Type} (entry : Mapping → Option β) (ms : List Mapping) : Prop :=
  ∃ m ∈ ms, ∃ other ∈ ms, (entry m).isSome ∧ (entry other).isSome ∧ entry m ≠ entry other

instance {β : Type} [DecidableEq β] (entry : Mapping → Option β) (ms : List Mapping) :
    Decidable (Conflict entry ms) :=
  inferInstanceAs (Decidable (∃ m ∈ ms, ∃ other ∈ ms, _))

theorem one_lt_length_eraseDups {α : Type} [BEq α] [LawfulBEq α] {l : List α} :
    1 < l.eraseDups.length ↔ ∃ a ∈ l, ∃ b ∈ l, a ≠ b := by
  cases l with
  | nil => simp
  | cons first rest =>
    rw [List.eraseDups_cons, List.length_cons, Nat.lt_add_left_iff_pos, List.length_pos_iff]
    constructor
    · intro h
      obtain ⟨b, hb⟩ := List.exists_mem_of_ne_nil _ h
      have hfilter := List.mem_filter.mp (List.mem_eraseDups.mp hb)
      have hne : b ≠ first := by simpa using hfilter.2
      exact ⟨first, List.mem_cons_self, b, List.mem_cons_of_mem _ hfilter.1, hne.symm⟩
    · rintro ⟨a, ha, b, hb, hab⟩
      have hother : ∃ c ∈ rest, c ≠ first := by
        rcases List.mem_cons.mp ha with rfl | ha
        · rcases List.mem_cons.mp hb with rfl | hb
          · exact absurd rfl hab
          · exact ⟨b, hb, hab.symm⟩
        · by_cases hfirst : a = first
          · rcases List.mem_cons.mp hb with rfl | hb
            · exact absurd hfirst hab
            · exact ⟨b, hb, fun h => hab (hfirst.trans h.symm)⟩
          · exact ⟨a, ha, hfirst⟩
      obtain ⟨c, hc, hne⟩ := hother
      apply List.ne_nil_of_mem (a := c)
      rw [List.mem_eraseDups, List.mem_filter]
      exact ⟨hc, by simpa using hne⟩

theorem conflict_iff {β : Type} [BEq β] [LawfulBEq β] {entry : Mapping → Option β}
    {ms : List Mapping} : Conflict entry ms ↔ 1 < (ms.filterMap entry).eraseDups.length := by
  rw [one_lt_length_eraseDups]
  constructor
  · rintro ⟨m, hm, other, hother, ha, hb, hne⟩
    obtain ⟨a, ha⟩ := Option.isSome_iff_exists.mp ha
    obtain ⟨b, hb⟩ := Option.isSome_iff_exists.mp hb
    refine ⟨a, List.mem_filterMap.mpr ⟨m, hm, ha⟩,
      b, List.mem_filterMap.mpr ⟨other, hother, hb⟩, ?_⟩
    rintro rfl
    exact hne (ha.trans hb.symm)
  · rintro ⟨a, ha, b, hb, hne⟩
    obtain ⟨m, hm, ha⟩ := List.mem_filterMap.mp ha
    obtain ⟨other, hother, hb⟩ := List.mem_filterMap.mp hb
    refine ⟨m, hm, other, hother, by simp [ha], by simp [hb], ?_⟩
    rw [ha, hb]
    exact fun h => hne (Option.some.inj h)

/-- A conflict under a name needs a mapping of that name. -/
theorem Conflict.mem_names {β : Type} {entry : Mapping → Option β} {ms : List Mapping}
    {property : String} (h : Conflict entry (ms.filter (feeds property))) :
    property ∈ (ms.map Mapping.name).eraseDups := by
  obtain ⟨m, hm, _⟩ := h
  have hfeeds := List.mem_filter.mp hm
  have hname : m.name = property := by
    have hboth := hfeeds.2
    rw [feeds, Bool.and_eq_true, beq_iff_eq] at hboth
    exact hboth.1
  rw [List.mem_eraseDups, List.mem_map]
  exact ⟨m, hfeeds.1, hname⟩

theorem tooManyFields_mem_cardinalityReport {t : Target} {property target : String}
    {fields : List String} :
    .tooManyFields property target fields ∈ cardinalityReport t ↔
      target = t.name ∧ fields = entriesOf t.mappings property ∧
        Conflict enteredField? (t.mappings.filter (feeds property)) := by
  simp only [cardinalityReport, List.mem_flatMap, List.mem_append, mem_reported,
    Problem.tooManyFields.injEq, reduceCtorEq, and_false, or_false]
  constructor
  · rintro ⟨name, _, hmany, rfl, rfl, rfl⟩
    exact ⟨rfl, rfl, conflict_iff.mpr hmany⟩
  · rintro ⟨rfl, rfl, hconflict⟩
    exact ⟨property, hconflict.mem_names, conflict_iff.mp hconflict, rfl, rfl, rfl⟩

theorem tooManyTypes_mem_cardinalityReport {t : Target} {property target : String}
    {types : List PropertyType} :
    .tooManyTypes property target types ∈ cardinalityReport t ↔
      target = t.name ∧ types = typesOf t.mappings property ∧
        Conflict Mapping.type (t.mappings.filter (feeds property)) := by
  simp only [cardinalityReport, List.mem_flatMap, List.mem_append, mem_reported,
    Problem.tooManyTypes.injEq, reduceCtorEq, and_false, false_or]
  constructor
  · rintro ⟨name, _, hmany, rfl, rfl, rfl⟩
    exact ⟨rfl, rfl, conflict_iff.mpr hmany⟩
  · rintro ⟨rfl, rfl, hconflict⟩
    exact ⟨property, hconflict.mem_names, conflict_iff.mp hconflict, rfl, rfl, rfl⟩

/-- A problem of the cardinality of a property. -/
def Problem.IsFanIn : Problem → Prop
  | .tooManyFields _ _ _ | .tooManyTypes _ _ _ => True
  | _ => False

theorem fanIn_mem_targetReport {spec : JobSpec} {earlier : List Target} {t : Target} {q : Problem}
    (hq : q.IsFanIn) : q ∈ targetReport spec earlier t ↔
      t.type ≠ .customQuery ∧ q ∈ cardinalityReport t := by
  have htype : q ∉ typeReport t := by
    unfold typeReport
    cases q <;> cases hq <;>
      cases t.type <;> simp [nodeReport, edgeReport, queryReport, mem_reported]
  have hcardinality : q ∈ (if t.type = .customQuery then [] else cardinalityReport t) ↔
      t.type ≠ .customQuery ∧ q ∈ cardinalityReport t := by
    by_cases h : t.type = .customQuery <;> simp [h]
  rw [← hcardinality, targetReport, referenceReport]
  cases q <;> cases hq <;>
    simp only [List.mem_append, nameReport, mem_reported, aggregationReport, List.mem_flatMap,
      reduceCtorEq, and_false, or_false, false_or, htype, exists_const]

/-- The cardinality of properties is judged target by target. -/
theorem fanIn_mem_report {spec : JobSpec} {q : Problem} (hq : q.IsFanIn) :
    q ∈ report spec ↔
      ∃ t ∈ spec.activeTargets, t.type ≠ .customQuery ∧ q ∈ cardinalityReport t := by
  have hpart : q.part = .targets := by cases q <;> cases hq <;> rfl
  have hown (earlier : List Target) (t : Target) : q ∈ targetReport spec earlier t ↔
      t.type ≠ .customQuery ∧ q ∈ cardinalityReport t := fanIn_mem_targetReport hq
  rw [mem_report, hpart]
  exact mem_alongside_of_own hown

/-- The key and property mappings of a name that point to a part of the graph. -/
def feedsWithin (fragment : FragmentType) (property : String) (m : Mapping) : Bool :=
  m.fragment == fragment && feeds property m

/-- Two friends, both found by a key of the name `id`, each in a field of its own. -/
def friendsDocument : Value := .record [
  ("sources", .list [.record [("name", .text "friendships")]]),
  ("targets", .list [.record [
    ("name", .text "KNOWS"), ("type", .text "edge"), ("source", .text "friendships"),
    ("mappings", .list [
      .record [("name", .text "id"), ("field", .text "person"), ("fragment_type", .text "source"),
        ("role", .text "key")],
      .record [("name", .text "id"), ("field", .text "friend"), ("fragment_type", .text "target"),
        ("role", .text "key")],
      .record [("name", .text "KNOWS"), ("constant", .text "KNOWS"),
        ("fragment_type", .text "rel"), ("role", .text "type")]])]])]

def friendship : Target where
  name := "KNOWS"
  type := .edge
  source := "friendships"
  mappings := [
    { name := "id", field := "person", fragment := .source, role := .key },
    { name := "id", field := "friend", fragment := .target, role := .key },
    { name := "KNOWS", constant := "KNOWS", fragment := .rel, role := .type }]

def friends : JobSpec where
  sources := [{ name := "friendships" }]
  targets := [friendship]

/-- An edge that is well formed in all else can have a property with too many fields although no
two mappings of the name conflict within one of its parts. -/
theorem fanIn_not_judged_by_fragment :
    ¬ ∀ (origin : String) (raw : Value) (spec : JobSpec) (problems : List Problem),
      JobSpec.ofDocument origin raw = .ok spec → problemsOf spec = .ok problems →
      ∀ t ∈ spec.activeTargets, t.type = .edge → edgeReport t = [] →
      ∀ (property : String) (fields : List String),
        .tooManyFields property t.name fields ∈ problems →
        ∃ fragment, Conflict enteredField? (t.mappings.filter (feedsWithin fragment property)) := by
  intro claim
  have hread : JobSpec.ofDocument unnamedOrigin friendsDocument = .ok friends := rfl
  have hproblems : problemsOf friends = .ok [.tooManyFields "id" "KNOWS" ["person", "friend"]] :=
    rfl
  have hwithin : ∀ fragment,
      ¬ Conflict enteredField? (friendship.mappings.filter (feedsWithin fragment "id")) := by
    intro fragment
    cases fragment <;> decide
  obtain ⟨fragment, hconflict⟩ := claim _ _ _ _ hread hproblems friendship
    List.mem_cons_self rfl (by decide +kernel) "id" ["person", "friend"] List.mem_cons_self
  exact hwithin fragment hconflict

/-- A property of an active target has too many fields, or types, exactly when two key or property
mappings of its name differ in them, whichever parts of an edge they point to. In particular an
edge whose ends are found by keys of one name in different fields has too many fields for it. -/
theorem fanIn_judged_by_name (origin : String) (raw : Value) (spec : JobSpec)
    (h : JobSpec.ofDocument origin raw = .ok spec) :
    ∃ problems, problemsOf spec = .ok problems ∧
      (∀ property target fields, .tooManyFields property target fields ∈ problems ↔
        ∃ t ∈ spec.activeTargets, t.type ≠ .customQuery ∧ target = t.name ∧
          fields = entriesOf t.mappings property ∧
          Conflict enteredField? (t.mappings.filter (feeds property))) ∧
      (∀ property target types, .tooManyTypes property target types ∈ problems ↔
        ∃ t ∈ spec.activeTargets, t.type ≠ .customQuery ∧ target = t.name ∧
          types = typesOf t.mappings property ∧
          Conflict Mapping.type (t.mappings.filter (feeds property))) ∧
      ∀ t ∈ spec.activeTargets, t.type = .edge →
        ∀ m ∈ t.mappings, ∀ other ∈ t.mappings,
          m.fragment = .source → other.fragment = .target → m.role = .key → other.role = .key →
          m.name = other.name → ∀ field otherField, m.field = some field →
          other.field = some otherField → field ≠ otherField →
          .tooManyFields m.name t.name (entriesOf t.mappings m.name) ∈ problems := by
  have hfields (property target : String) (fields : List String) :
      .tooManyFields property target fields ∈ report spec ↔
        ∃ t ∈ spec.activeTargets, t.type ≠ .customQuery ∧ target = t.name ∧
          fields = entriesOf t.mappings property ∧
          Conflict enteredField? (t.mappings.filter (feeds property)) := by
    rw [fanIn_mem_report (q := .tooManyFields property target fields) trivial]
    simp only [tooManyFields_mem_cardinalityReport]
  refine ⟨report spec, problemsOf_eq_report (JobSpec.ofDocument_modelled h), hfields, ?_, ?_⟩
  · intro property target types
    rw [fanIn_mem_report (q := .tooManyTypes property target types) trivial]
    simp only [tooManyTypes_mem_cardinalityReport]
  · intro t ht hedge m hm other hother _ _ hkey hotherKey hname field otherField hfield
      hotherField hne
    have hcustom : t.type ≠ .customQuery := by rw [hedge]; decide
    have hfeeds : m ∈ t.mappings.filter (feeds m.name) := by
      rw [List.mem_filter, feeds_self, hkey]
      exact ⟨hm, rfl⟩
    have hotherFeeds : other ∈ t.mappings.filter (feeds m.name) := by
      rw [List.mem_filter, hname, feeds_self, hotherKey]
      exact ⟨hother, rfl⟩
    have hentry : enteredField? m = some field := by simp [enteredField?, hfield]
    have hotherEntry : enteredField? other = some otherField := by
      simp [enteredField?, hotherField]
    refine (hfields m.name t.name _).mpr ⟨t, ht, hcustom, rfl, rfl, m, hfeeds, other,
      hotherFeeds, by simp [hentry], by simp [hotherEntry], ?_⟩
    rw [hentry, hotherEntry]
    exact fun heq => hne (Option.some.inj heq)

theorem friends_fanIn :
    JobSpec.ofDocument unnamedOrigin friendsDocument = .ok friends ∧
      ∃ problems, problemsOf friends = .ok problems ∧
        .tooManyFields "id" "KNOWS" ["person", "friend"] ∈ problems ∧
        ∀ types, .tooManyTypes "id" "KNOWS" types ∉ problems := by
  have hread : JobSpec.ofDocument unnamedOrigin friendsDocument = .ok friends := rfl
  obtain ⟨problems, hproblems, _, htypes, hends⟩ := fanIn_judged_by_name _ _ _ hread
  refine ⟨hread, problems, hproblems, ?_, ?_⟩
  · exact hends friendship List.mem_cons_self rfl _ List.mem_cons_self _
      (List.mem_cons_of_mem _ List.mem_cons_self) rfl rfl rfl rfl rfl "person" "friend" rfl rfl
      (by decide)
  · intro types hmem
    obtain ⟨t, ht, _, _, _, hconflict⟩ := (htypes _ _ _).mp hmem
    rw [List.mem_singleton.mp ht] at hconflict
    exact absurd hconflict (by decide)

end GraphImport.Rules
