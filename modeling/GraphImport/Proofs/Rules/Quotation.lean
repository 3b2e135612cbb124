import Mathlib.Data.List.Basic
import GraphImport.Rules.Cardinality

/-!
# Constants beside fields

What was entered into a feed stays there, and each key or property mapping that was added has its
field or its quoted constant among the entries. A field and a constant are two entries, whatever
else was added, unless the field itself is the constant between two quotes. Then they are one, and
the second of them adds nothing.
-/

namespace GraphImport.Rules

open Spec

/-- A feed after some mappings were added one by one. -/
def Feed.addAll (feed : Feed) (ms : List Mapping) : Feed :=
  ms.foldl Feed.add feed

/-- Whether a field is written as a constant is entered, its text between two quotes. -/
def IsQuoted (name text : String) : Prop :=
  name.toList = '\x27' :: (text.toList ++ ['\x27'])

instance (name text : String) : Decidable (IsQuoted name text) :=
  inferInstanceAs (Decidable (_ = _))

theorem eq_quoted_iff {name text : String} : name = s!"'{text}'" ↔ IsQuoted name text := by
  rw [IsQuoted, ← String.toList_inj]
  simp [toString]

section Entries

variable {α : Type} [BEq α] [LawfulBEq α]

theorem insertNew_of_mem {entries : List α} {entry : α} (h : entry ∈ entries) :
    insertNew entries entry = entries := by
  simp [insertNew, h]

theorem mem_insertNew {entries : List α} {entry other : α} :
    other ∈ insertNew entries entry ↔ other ∈ entries ∨ other = entry := by
  by_cases h : entry ∈ entries
  · rw [insertNew_of_mem h]
    constructor
    · exact Or.inl
    · rintro (hother | rfl)
      · exact hother
      · exact h
  · simp [insertNew, h]

end Entries

theorem one_lt_length_of_mem {α : Type} {entries : List α} {a b : α} (ha : a ∈ entries)
    (hb : b ∈ entries) (hne : a ≠ b) : 1 < entries.length := by
  match entries with
  | [] => cases ha
  | [entry] => exact absurd ((List.mem_singleton.mp ha).trans (List.mem_singleton.mp hb).symm) hne
  | _ :: _ :: _ => simp

theorem enteredField?_field {m : Mapping} {name : String} (h : m.field = some name) :
    enteredField? m = some name := by
  simp [enteredField?, h]

theorem enteredField?_constant {m : Mapping} {text : String} (hfield : m.field = none)
    (hconstant : m.constant = some text) : enteredField? m = some s!"'{text}'" := by
  simp [enteredField?, hfield, hconstant]

namespace Feed

/-- A mapping that feeds properties adds its own entry and keeps all others. -/
theorem mem_fields_add {feed : Feed} {m : Mapping} {entry : String} :
    entry ∈ (feed.add m).fields ↔
      entry ∈ feed.fields ∨ feedsProperty m.role = true ∧ enteredField? m = some entry := by
  unfold add
  cases hrole : feedsProperty m.role with
  | false => simp
  | true =>
    cases hentered : enteredField? m with
    | none => simp
    | some entered =>
      simp only [if_true, Option.elim_some, mem_insertNew, true_and, Option.some.injEq,
        eq_comm (a := entry)]

/-- An entry that is there already is not added again. -/
theorem fields_add_of_mem {feed : Feed} {m : Mapping} {entry : String}
    (hentered : enteredField? m = some entry) (hmem : entry ∈ feed.fields) :
    (feed.add m).fields = feed.fields := by
  unfold add
  cases feedsProperty m.role with
  | false => rfl
  | true => simp only [if_true, hentered, Option.elim_some, insertNew_of_mem hmem]

theorem add_names (feed : Feed) (m : Mapping) :
    (feed.add m).property = feed.property ∧ (feed.add m).target = feed.target := by
  unfold add
  split <;> exact ⟨rfl, rfl⟩

/-- The entries after some mappings were added are those of before and those of the mappings. -/
theorem mem_fields_addAll {feed : Feed} {ms : List Mapping} {entry : String} :
    entry ∈ (feed.addAll ms).fields ↔
      entry ∈ feed.fields ∨
        ∃ m ∈ ms, feedsProperty m.role = true ∧ enteredField? m = some entry := by
  induction ms generalizing feed with
  | nil => simp [addAll]
  | cons m rest ih =>
    have hstep : feed.addAll (m :: rest) = (feed.add m).addAll rest := rfl
    rw [hstep, ih, mem_fields_add, List.exists_mem_cons_iff, or_assoc]

theorem addAll_names (feed : Feed) (ms : List Mapping) :
    (feed.addAll ms).property = feed.property ∧ (feed.addAll ms).target = feed.target := by
  induction ms generalizing feed with
  | nil => exact ⟨rfl, rfl⟩
  | cons m rest ih =>
    obtain ⟨hproperty, htarget⟩ := ih (feed.add m)
    obtain ⟨hfirst, hfirstTarget⟩ := feed.add_names m
    exact ⟨hproperty.trans hfirst, htarget.trans hfirstTarget⟩

theorem problems_of_many {feed : Feed} (h : 1 < feed.fields.length) :
    feed.problems.head? = some (.tooManyFields feed.property feed.target feed.fields) := by
  simp [problems, fieldProblem?, h]

end Feed

/-- Of two key or property mappings that were added to a feed, among any others, one with a field
and one with a constant and no field, both entries stand in the feed. They are one entry exactly
when the field is written as the constant in quotes; the second to come then adds nothing to what
the feed has. Otherwise there are at least two fields, and the first problem of the feed is that
there are too many. -/
theorem field_apart_from_constant (feed : Feed) (ms : List Mapping) (m other : Mapping)
    (name text : String) (hm : m ∈ ms) (hother : other ∈ ms)
    (hrole : feedsProperty m.role = true) (hotherRole : feedsProperty other.role = true)
    (hfield : m.field = some name) (hnone : other.field = none)
    (hconstant : other.constant = some text) :
    (∃ entry ∈ (feed.addAll ms).fields, ∃ otherEntry ∈ (feed.addAll ms).fields,
      enteredField? m = some entry ∧ enteredField? other = some otherEntry ∧
        (entry = otherEntry ↔ IsQuoted name text)) ∧
    (¬ IsQuoted name text →
      2 ≤ (feed.addAll ms).fields.length ∧
        (feed.addAll ms).problems.head? =
          some (.tooManyFields feed.property feed.target (feed.addAll ms).fields)) ∧
    (IsQuoted name text → ∀ before : Feed,
      ((before.add m).add other).fields = (before.add m).fields ∧
        ((before.add other).add m).fields = (before.add other).fields) := by
  have hentry := enteredField?_field hfield
  have hotherEntry := enteredField?_constant hnone hconstant
  have hmem : name ∈ (feed.addAll ms).fields :=
    Feed.mem_fields_addAll.mpr (Or.inr ⟨m, hm, hrole, hentry⟩)
  have hotherMem : s!"'{text}'" ∈ (feed.addAll ms).fields :=
    Feed.mem_fields_addAll.mpr (Or.inr ⟨other, hother, hotherRole, hotherEntry⟩)
  refine ⟨⟨name, hmem, _, hotherMem, hentry, hotherEntry, eq_quoted_iff⟩, ?_, ?_⟩
  · intro hapart
    have hlength := one_lt_length_of_mem hmem hotherMem (mt eq_quoted_iff.mp hapart)
    obtain ⟨hproperty, htarget⟩ := feed.addAll_names ms
    refine ⟨hlength, ?_⟩
    rw [Feed.problems_of_many hlength, hproperty, htarget]
  · intro hquoted before
    -- The two entries are the same text, and the first mapping has left it in the feed.
    have hsame := eq_quoted_iff.mpr hquoted
    constructor
    · exact Feed.fields_add_of_mem hotherEntry
        (Feed.mem_fields_add.mpr (Or.inr ⟨hrole, hsame ▸ hentry⟩))
    · exact Feed.fields_add_of_mem hentry
        (Feed.mem_fields_add.mpr (Or.inr ⟨hotherRole, hsame ▸ hotherEntry⟩))

/-- A field with a quote before it only, and the constant that has the rest for its text. -/
def halfQuoted : List Mapping := [
  { name := "kind", field := "'Person", fragment := .node },
  { name := "kind", field := "kind", fragment := .node, role := .label },
  { name := "kind", constant := "Person", fragment := .node, role := .key }]

theorem halfQuoted_apart :
    ¬ IsQuoted "'Person" "Person" ∧
      (({ target := "Person", property := "kind" } : Feed).addAll halfQuoted).problems.head? =
        some (.tooManyFields "kind" "Person" ["'Person", "'Person'"]) := by
  have hapart : ¬ IsQuoted "'Person" "Person" := by decide
  obtain ⟨_, hmany, _⟩ := field_apart_from_constant { target := "Person", property := "kind" }
    halfQuoted _ _ "'Person" "Person" List.mem_cons_self
    (List.mem_cons_of_mem _ (List.mem_cons_of_mem _ List.mem_cons_self)) rfl rfl rfl rfl rfl
  exact ⟨hapart, (hmany hapart).2⟩

/-- A field and a constant are not always two entries: the field can be the constant in quotes. -/
theorem constant_entered_as_field :
    ¬ ∀ (feed : Feed) (m other : Mapping) (name text : String),
      feedsProperty m.role = true → feedsProperty other.role = true →
      m.field = some name → other.field = none → other.constant = some text →
      2 ≤ ((feed.add m).add other).fields.length ∧
        ((feed.add m).add other).fieldProblem? ≠ none := by
  intro claim
  have hboth := claim { target := "Person", property := "kind" }
    { name := "kind", field := "'Person'", fragment := .node }
    { name := "kind", constant := "Person", fragment := .node }
    "'Person'" "Person" rfl rfl rfl rfl rfl
  exact absurd hboth.1 (by decide)

end GraphImport.Rules
