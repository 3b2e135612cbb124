import GraphImport.Proofs.Spec.Reading
import GraphImport.Rules.Examination
import GraphImport.Spec.Dump

/-!
# Reading a dump

Each part of a job spec is read back from its document form. Only a target whose type no word
names is not, and no document gives one, so reading, dumping and reading again gives the same spec.
-/

namespace GraphImport.Spec

open Document (Value)

/-- Every member of the vocabulary is found by its word. -/
class Legible (α : Type) [Vocabulary α] : Prop where
  ofWord?_word : ∀ member : α, ofWord? (word member) = some member

instance : Legible FragmentType := ⟨by intro m; cases m <;> rfl⟩

instance : Legible RoleType := ⟨by intro m; cases m <;> rfl⟩

instance : Legible PropertyType := ⟨by intro m; cases m <;> rfl⟩

instance : Legible SaveMode := ⟨by intro m; cases m <;> rfl⟩

instance : Legible EdgeNodesMatchMode := ⟨by intro m; cases m <;> rfl⟩

instance : Legible ActionType := ⟨by intro m; cases m <;> rfl⟩

instance : Legible ActionExecuteAfter := ⟨by intro m; cases m <;> rfl⟩

/-- Different members have different words. -/
theorem word_injective {α : Type} [Vocabulary α] [Legible α] :
    Function.Injective (word : α → String) := by
  intro a b h
  have hfound := Legible.ofWord?_word a
  rw [h, Legible.ofWord?_word] at hfound
  exact (Option.some.inj hfound).symm

theorem TargetType.ofWord?_word :
    ∀ type ∈ (Vocabulary.members : List TargetType), ofWord? (word type) = some type := by
  decide

namespace Checked

variable {α β : Type}

theorem map_ok {c : Checked α} {a : α} (f : α → β) (h : c = .ok a) : f <$> c = .ok (f a) :=
  map_eq_ok.mpr ⟨a, h, rfl⟩

theorem seq_ok {c : Checked (α → β)} {d : Checked α} {f : α → β} {a : α} (hc : c = .ok f)
    (hd : d = .ok a) : c <*> d = .ok (f a) :=
  seq_eq_ok.mpr ⟨f, a, hc, hd, rfl⟩

end Checked

namespace Reader

open Checked

variable {α : Type} {reader : Reader α}

theorem nullable_ofText? (s : Option String) : nullable text (.ofText? s) = .ok s := by
  cases s <;> rfl

theorem member_word [Vocabulary α] [Legible α] (a : α) : member (.text (word a)) = .ok a :=
  member_of_ofWord? (Legible.ofWord?_word a)

theorem nullable_wordOrNull [Vocabulary α] [Legible α] (a : Option α) :
    nullable member (wordOrNull a) = .ok a := by
  cases a with
  | none => rfl
  | some a => exact map_ok some (member_word a)

/-- A list is read back when its items are, wherever it begins. -/
theorem itemsFrom_map {write : α → Value} {as : List α} (h : ∀ a ∈ as, reader (write a) = .ok a)
    (index : Nat) : itemsFrom reader index (as.map write) = .ok as := by
  induction as generalizing index with
  | nil => rfl
  | cons a rest ih =>
    obtain ⟨ha, hrest⟩ := List.forall_mem_cons.mp h
    exact seq_ok (map_ok List.cons (under_eq_ok.mpr ha)) (ih hrest (index + 1))

theorem items_map {write : α → Value} {as : List α} (h : ∀ a ∈ as, reader (write a) = .ok a) :
    items reader (.list (as.map write)) = .ok as :=
  itemsFrom_map h 0

theorem optionMap_record (options : List (String × Value)) :
    optionMap (.record options) = .ok options := by
  change entries (options.map _) = _
  induction options with
  | nil => rfl
  | cons option rest ih => exact seq_ok rfl ih

variable {name : String} {fields : List (Value × Value)} {v : Value} {a : α}

theorem required_ok (hfind : Value.find? name fields = some v) (h : reader v = .ok a) :
    required name reader fields = .ok a := by
  rw [required, hfind]
  exact under_eq_ok.mpr h

theorem withDefault_ok {default : α} (hfind : Value.find? name fields = some v)
    (h : reader v = .ok a) : withDefault name reader default fields = .ok a := by
  rw [withDefault, hfind]
  exact under_eq_ok.mpr h

end Reader

open Checked Reader

theorem Source.read_toDocument (s : Source) : Source.read s.toDocument = .ok s :=
  seq_ok (map_ok Source.mk (withDefault_ok rfl rfl)) (withDefault_ok rfl (nullable_ofText? _))

theorem Mapping.read_toDocument (m : Mapping) : Mapping.read m.toDocument = .ok m := by
  refine seq_ok (seq_ok (seq_ok (seq_ok (seq_ok (seq_ok (seq_ok (seq_ok (map_ok Mapping.mk
    ?name) ?field) ?constant) ?fragment) ?role) ?type) ?indexed) ?unique) ?mandatory
  case name => exact required_ok rfl rfl
  case fragment => exact required_ok rfl (member_word _)
  case role => exact withDefault_ok rfl (member_word _)
  case type => exact withDefault_ok rfl (nullable_wordOrNull _)
  case field | constant => exact withDefault_ok rfl (nullable_ofText? _)
  case indexed | unique | mandatory => exact withDefault_ok rfl rfl

theorem Aggregation.read_toDocument (a : Aggregation) : Aggregation.read a.toDocument = .ok a :=
  seq_ok (map_ok Aggregation.mk (withDefault_ok rfl (nullable_ofText? _))) (withDefault_ok rfl rfl)

theorem Transform.read_toDocument (t : Transform) : Transform.read t.toDocument = .ok t := by
  refine seq_ok (seq_ok (seq_ok (seq_ok (seq_ok (map_ok Transform.mk
    ?sql) ?group) ?aggregations) ?orderBy) ?filter) ?limit
  case aggregations => exact withDefault_ok rfl (items_map fun a _ => a.read_toDocument)
  case sql | orderBy | filter => exact withDefault_ok rfl (nullable_ofText? _)
  case group | limit => exact withDefault_ok rfl rfl

theorem Target.read_toDocument {t : Target}
    (htype : t.type ∈ (Vocabulary.members : List TargetType)) :
    Target.read t.toDocument = .ok t := by
  refine seq_ok (seq_ok (seq_ok (seq_ok (seq_ok (seq_ok (seq_ok (seq_ok (map_ok Target.mk
    ?name) ?active) ?type) ?source) ?customQuery) ?mappings) ?transform) ?saveMode) ?matchMode
  case type => exact required_ok rfl (member_of_ofWord? (TargetType.ofWord?_word _ htype))
  case mappings => exact withDefault_ok rfl (items_map fun m _ => m.read_toDocument)
  case transform => exact withDefault_ok rfl t.transform.read_toDocument
  case customQuery => exact withDefault_ok rfl (nullable_ofText? _)
  case saveMode | matchMode => exact withDefault_ok rfl (member_word _)
  case name | active | source => exact withDefault_ok rfl rfl

theorem Action.read_toDocument (a : Action) : Action.read a.toDocument = .ok a := by
  refine seq_ok (seq_ok (seq_ok (seq_ok (map_ok Action.mk
    ?name) ?type) ?options) ?executeAfter) ?executeAfterName
  case name => exact withDefault_ok rfl rfl
  case type => exact required_ok rfl (member_word _)
  case options => exact withDefault_ok rfl (optionMap_record _)
  case executeAfter => exact withDefault_ok rfl (nullable_wordOrNull _)
  case executeAfterName => exact withDefault_ok rfl (nullable_ofText? _)

theorem JobSpec.read_toDocument {spec : JobSpec} (h : spec.Modelled) :
    JobSpec.read spec.toDocument = .ok spec := by
  refine seq_ok (seq_ok (map_ok JobSpec.mk ?sources) ?targets) ?actions
  case sources => exact withDefault_ok rfl (items_map fun s _ => s.read_toDocument)
  case targets => exact withDefault_ok rfl (items_map fun t ht => Target.read_toDocument (h t ht))
  case actions => exact withDefault_ok rfl (items_map fun a _ => a.read_toDocument)

theorem JobSpec.ofDocument_toDocument {spec : JobSpec} (h : spec.Modelled) (origin : String) :
    JobSpec.ofDocument origin spec.toDocument = .ok spec :=
  JobSpec.ofDocument_map (JobSpec.read_toDocument h) origin

/-- A job spec is read back from its dump when the types of its targets are known, as they are in
what was read. A document and the dump of what it holds then get the same messages. -/
theorem toDocument_round_trip (origin : String) :
    (∀ spec : JobSpec, JobSpec.ofDocument origin spec.toDocument = .ok spec ↔ spec.Modelled) ∧
    ∀ first raw spec, JobSpec.ofDocument first raw = .ok spec →
      JobSpec.ofDocument origin spec.toDocument = .ok spec ∧
      (JobSpec.ofDocument origin spec.toDocument).map Rules.problemsOf =
        (JobSpec.ofDocument first raw).map Rules.problemsOf := by
  constructor
  · intro spec
    exact ⟨JobSpec.ofDocument_modelled, fun h => JobSpec.ofDocument_toDocument h origin⟩
  · intro first raw spec h
    have hagain := JobSpec.ofDocument_toDocument (JobSpec.ofDocument_modelled h) origin
    exact ⟨hagain, by rw [hagain, h]⟩

/-- A document in which a flag is written as a number and a limit as a text. -/
def loose : Value :=
  .record [("targets", .list [.record [("type", .text "node"), ("active", .int 0),
    ("transform", .record [("limit", .text "1_0")])]])]

theorem loose_round_trip : ∃ spec, JobSpec.ofDocument "job.json" loose = .ok spec ∧
    JobSpec.ofDocument "dump.json" spec.toDocument = .ok spec ∧
    (JobSpec.ofDocument "dump.json" spec.toDocument).map Rules.problemsOf =
      (JobSpec.ofDocument "job.json" loose).map Rules.problemsOf := by
  let target : Target := { type := .node, active := false, transform := { limit := 10 } }
  have hread : JobSpec.ofDocument "job.json" loose = .ok { targets := [target] } := rfl
  exact ⟨_, hread, (toDocument_round_trip "dump.json").2 "job.json" loose _ hread⟩

end GraphImport.Spec
