import Mathlib.Data.List.Induction
import Mathlib.Data.List.Nodup
import GraphImport.Rules.Cardinality

/-!
# Feeds by name

The feeds of a target are collected mapping by mapping. Here each is described on its own: the
feed of a name holds the distinct entries and types of the key and property mappings of that
name, and the feeds follow the names in order of first occurrence among all mappings.
-/

namespace GraphImport.Rules

open Spec

/-- A key or property mapping of a name. -/
def feeds (property : String) (m : Mapping) : Bool :=
  m.name == property && feedsProperty m.role

/-- The distinct fields and quoted constants that mappings enter under a name. -/
def entriesOf (ms : List Mapping) (property : String) : List String :=
  ((ms.filter (feeds property)).filterMap enteredField?).eraseDups

/-- The distinct types that mappings declare under a name. -/
def typesOf (ms : List Mapping) (property : String) : List PropertyType :=
  ((ms.filter (feeds property)).filterMap Mapping.type).eraseDups

/-- The feed of a name among mappings. -/
def feedOf (target : String) (ms : List Mapping) (property : String) : Feed where
  target
  property
  fields := entriesOf ms property
  types := typesOf ms property

/-- The feed that mappings collect, whatever their names. -/
def collected (target property : String) (ms : List Mapping) : Feed where
  target
  property
  fields := ((ms.filter fun m => feedsProperty m.role).filterMap enteredField?).eraseDups
  types := ((ms.filter fun m => feedsProperty m.role).filterMap Mapping.type).eraseDups

theorem insertNew_eraseDups {α : Type} [BEq α] [LawfulBEq α] (entries : List α) (entry : α) :
    insertNew entries.eraseDups entry = (entries ++ [entry]).eraseDups := by
  have htail : ([entry].removeAll entries).eraseDups =
      if entry ∈ entries then [] else [entry] := by
    by_cases h : entry ∈ entries
    · simp [List.removeAll, h]
    · simp [List.removeAll, h, List.eraseDups_cons]
  rw [List.eraseDups_append, htail]
  by_cases h : entry ∈ entries
  · simp [insertNew, h]
  · simp [insertNew, h]

theorem elim_insertNew {α : Type} [BEq α] [LawfulBEq α] (entries : List α) (added? : Option α) :
    added?.elim entries.eraseDups (insertNew entries.eraseDups) =
      (entries ++ added?.toList).eraseDups := by
  cases added? with
  | none => simp
  | some added => exact insertNew_eraseDups entries added

theorem nodup_eraseDups {α : Type} [DecidableEq α] (l : List α) : l.eraseDups.Nodup := by
  induction l using List.reverseRecOn with
  | nil => exact List.nodup_nil
  | append_singleton entries entry ih =>
    rw [← insertNew_eraseDups, insertNew]
    split
    · exact ih
    next hnew =>
      rw [← List.concat_eq_append]
      exact ih.concat (by simpa using hnew)

/-- One mapping more is added to what the others have collected. -/
theorem collected_append (target property : String) (ms : List Mapping) (m : Mapping) :
    collected target property (ms ++ [m]) = (collected target property ms).add m := by
  cases hrole : feedsProperty m.role with
  | false => simp [collected, Feed.add, List.filter_append, hrole]
  | true =>
    simp only [collected, Feed.add, List.filter_append, List.filter_cons, List.filter_nil, hrole,
      if_true, List.filterMap_append, elim_insertNew]
    cases hfield : enteredField? m <;> cases htype : m.type <;> simp [hfield, htype]

theorem feeds_self (m : Mapping) : feeds m.name m = feedsProperty m.role := by
  simp [feeds]

theorem feeds_of_ne {property : String} {m : Mapping} (h : m.name ≠ property) :
    feeds property m = false := by
  simp [feeds, h]

theorem feedOf_property (target : String) (ms : List Mapping) (property : String) :
    (feedOf target ms property).property = property := rfl

/-- The feed of a name is what its own mappings collect. -/
theorem feedOf_eq_collected (target : String) (ms : List Mapping) (property : String) :
    feedOf target ms property =
      collected target property (ms.filter fun m => m.name == property) := by
  have hfeeds : ms.filter (feeds property) =
      (ms.filter fun m => m.name == property).filter fun m => feedsProperty m.role := by
    rw [List.filter_filter]
    congr 1
    funext m
    exact Bool.and_comm _ _
  rw [feedOf, entriesOf, typesOf, hfeeds, collected]

theorem feedOf_append_self (target : String) (ms : List Mapping) (m : Mapping) :
    feedOf target (ms ++ [m]) m.name = (feedOf target ms m.name).add m := by
  simp only [feedOf_eq_collected, List.filter_append, List.filter_cons, beq_self_eq_true, if_true,
    List.filter_nil, collected_append]

theorem feedOf_append_of_ne (target : String) (ms : List Mapping) (m : Mapping)
    {property : String} (h : m.name ≠ property) :
    feedOf target (ms ++ [m]) property = feedOf target ms property := by
  simp [feedOf, entriesOf, typesOf, List.filter_append, feeds_of_ne h]

/-- A name no mapping has, has an empty feed. -/
theorem feedOf_of_notMem (target : String) (ms : List Mapping) (property : String)
    (h : property ∉ ms.map Mapping.name) :
    feedOf target ms property = { target, property } := by
  have hnone : ms.filter (feeds property) = [] := by
    rw [List.filter_eq_nil_iff]
    intro m hm hfeeds
    have hne : m.name ≠ property := by
      intro heq
      exact h (heq ▸ List.mem_map_of_mem hm)
    rw [feeds_of_ne hne] at hfeeds
    exact Bool.false_ne_true hfeeds
  simp [feedOf, entriesOf, typesOf, hnone]

/-- Adding a mapping to feeds that are those of some mappings gives those of one mapping more. -/
theorem addToFeeds_feedOf (target : String) (ms : List Mapping) (m : Mapping) :
    addToFeeds target ((ms.map Mapping.name).eraseDups.map (feedOf target ms)) m =
      ((ms ++ [m]).map Mapping.name).eraseDups.map (feedOf target (ms ++ [m])) := by
  let names := (ms.map Mapping.name).eraseDups
  have hnames : ((ms ++ [m]).map Mapping.name).eraseDups = insertNew names m.name := by
    rw [List.map_append, List.map_singleton, insertNew_eraseDups]
  have hmem : names.contains m.name = decide (m.name ∈ ms.map Mapping.name) := by
    rw [List.contains_eq_mem, decide_eq_decide]
    exact List.mem_eraseDups
  have hany : (names.map (feedOf target ms)).any (fun feed => feed.property == m.name) =
      names.contains m.name := by
    rw [List.any_map, List.contains_eq_any_beq]
    congr 1
    funext name
    exact Bool.beq_comm
  rw [hnames, addToFeeds, hany]
  by_cases hknown : m.name ∈ ms.map Mapping.name
  · simp only [insertNew, hmem, hknown, decide_true, if_true, List.map_map]
    apply List.map_congr_left
    intro name _
    by_cases heq : name = m.name
    · subst heq
      simp [feedOf_property, feedOf_append_self]
    · simp [feedOf_property, heq, feedOf_append_of_ne target ms m (Ne.symm heq)]
  · simp only [insertNew, hmem, hknown, decide_false, Bool.false_eq_true, if_false,
      List.map_append, List.map_singleton]
    congr 1
    · apply List.map_congr_left
      intro name hname
      have hne : m.name ≠ name := by
        intro heq
        exact hknown (heq ▸ List.mem_eraseDups.mp hname)
      rw [feedOf_append_of_ne target ms m hne]
    · rw [feedOf_append_self, feedOf_of_notMem target ms m.name hknown]

/-- The feeds of a target, each described by its name alone. -/
theorem feedsOf_eq (t : Target) :
    feedsOf t = (t.mappings.map Mapping.name).eraseDups.map (feedOf t.name t.mappings) := by
  unfold feedsOf
  induction t.mappings using List.reverseRecOn with
  | nil => rfl
  | append_singleton ms m ih =>
    rw [List.foldl_append, ih]
    exact addToFeeds_feedOf t.name ms m

end GraphImport.Rules
