import Mathlib.Logic.Relation
import GraphImport.Proofs.Spec.Structure
import GraphImport.Rules.Examination
import GraphImport.Spec.Dump

/-!
# Rewording a document

A document can be reworded at any of its models: the entries put in another order, entries added
under keys that are no fields, and fields that hold their defaults added or left out. All wordings
of a document are read alike, with the same spec or with the same flaws in the same order, since a
reader looks up one declared field after the other.
-/

namespace GraphImport.Spec

open Document (Value)

/-- The defaults of the fields of a model that are not required, as documents hold them. -/
def Model.defaults : Model → List (String × Value)
  | .jobSpec => [("sources", .list []), ("targets", .list []), ("actions", .list [])]
  | .source => [("name", .text ""), ("query", .null)]
  | .target => [("name", .text ""), ("active", .bool true), ("source", .text ""),
    ("custom_query", .null), ("mappings", .list []), ("transform", ({} : Transform).toDocument),
    ("save_mode", .text "append"), ("edge_nodes_match_mode", .text "match")]
  | .mapping => [("field", .null), ("constant", .null), ("role", .text "property"),
    ("type", .null), ("indexed", .bool false), ("unique", .bool false),
    ("mandatory", .bool false)]
  | .transform => [("sql", .null), ("group", .bool false), ("aggregations", .list []),
    ("order_by", .null), ("where", .null), ("limit", .int (-1))]
  | .aggregation => [("field", .null), ("expression", .text "")]
  | .action => [("name", .text ""), ("options", .map []), ("execute_after", .null),
    ("execute_after_name", .null)]

def Model.default? (m : Model) (name : String) : Option Value :=
  m.defaults.lookup name

/-- One change of wording at a place of a form. Only entries whose keys stand once can be put in
another order, since of equal keys the last counts; nothing changes inside the options of an
action, which are no model. -/
inductive Rewording : Form → Value → Value → Prop
  | reordered {m : Model} {entries entries' : List (Value × Value)}
      (hkeys : (entries.map Prod.fst).Nodup) (h : entries.Perm entries') :
      Rewording (.model m) (.map entries) (.map entries')
  | unknown {m : Model} {before after : List (Value × Value)} {key v : Value}
      (h : ∀ f ∈ m.fields, key ≠ .text f.name) :
      Rewording (.model m) (.map (before ++ after)) (.map (before ++ (key, v) :: after))
  | defaulted {m : Model} {before after : List (Value × Value)} {name : String} {default : Value}
      (habsent : .text name ∉ (before ++ after).map Prod.fst)
      (h : m.default? name = some default) :
      Rewording (.model m) (.map (before ++ after))
        (.map (before ++ (.text name, default) :: after))
  | inField {m : Model} {f : Field} {before after : List (Value × Value)} {v w : Value}
      (hf : f ∈ m.fields) (h : Rewording f.form v w) :
      Rewording (.model m) (.map (before ++ (.text f.name, v) :: after))
        (.map (before ++ (.text f.name, w) :: after))
  | inItem {m : Model} {before after : List Value} {v w : Value}
      (h : Rewording (.model m) v w) :
      Rewording (.items m) (.list (before ++ v :: after)) (.list (before ++ w :: after))

section Lookup

theorem find?_append (name : String) (before after : List (Value × Value)) :
    Value.find? name (before ++ after) =
      (Value.find? name after).or (Value.find? name before) := by
  rw [Value.find?, List.reverse_append, List.find?_append, Option.map_or]
  rfl

theorem find?_cons (name : String) (key v : Value) (rest : List (Value × Value)) :
    Value.find? name ((key, v) :: rest) =
      (Value.find? name rest).or (Value.find? name [(key, v)]) :=
  find?_append name [(key, v)] rest

theorem find?_singleton_self (name : String) (v : Value) :
    Value.find? name [(.text name, v)] = some v := by
  simp [Value.find?]

theorem find?_singleton_of_ne {name : String} {key : Value} (h : key ≠ .text name) (v : Value) :
    Value.find? name [(key, v)] = none := by
  cases key with
  | text s =>
    have hne : s ≠ name := fun heq => h (congrArg Value.text heq)
    simp [Value.find?, hne]
  | _ => rfl

theorem find?_eq_none {name : String} {entries : List (Value × Value)}
    (h : .text name ∉ entries.map Prod.fst) : Value.find? name entries = none := by
  induction entries with
  | nil => rfl
  | cons e rest ih =>
    rw [List.map_cons, List.mem_cons, not_or] at h
    rw [find?_cons, ih h.2, find?_singleton_of_ne (Ne.symm h.1)]
    rfl

/-- Where keys stand once, a key is found with the value beside it. -/
theorem find?_eq_some_iff {name : String} {entries : List (Value × Value)}
    (hkeys : (entries.map Prod.fst).Nodup) {v : Value} :
    Value.find? name entries = some v ↔ (.text name, v) ∈ entries := by
  induction entries with
  | nil => simp [Value.find?]
  | cons e rest ih =>
    obtain ⟨key, w⟩ := e
    rw [List.map_cons, List.nodup_cons] at hkeys
    rw [find?_cons, List.mem_cons, Prod.mk.injEq]
    by_cases hkey : key = .text name
    · subst hkey
      have hnone : Value.find? name rest = none := find?_eq_none hkeys.1
      have hnot : (.text name, v) ∉ rest :=
        fun hmem => hkeys.1 (List.mem_map.mpr ⟨_, hmem, rfl⟩)
      rw [hnone, Option.none_or, find?_singleton_self, Option.some.injEq]
      simp only [hnot, or_false, true_and]
      exact eq_comm
    · rw [find?_singleton_of_ne hkey, Option.or_none, ih hkeys.2]
      have hne : Value.text name ≠ key := Ne.symm hkey
      simp only [hne, false_and, false_or]

theorem find?_perm {entries entries' : List (Value × Value)}
    (hkeys : (entries.map Prod.fst).Nodup) (h : entries.Perm entries') (name : String) :
    Value.find? name entries = Value.find? name entries' := by
  have hkeys' : (entries'.map Prod.fst).Nodup := (h.map Prod.fst).nodup_iff.mp hkeys
  apply Option.ext
  intro v
  rw [find?_eq_some_iff hkeys, find?_eq_some_iff hkeys', h.mem_iff]

/-- An entry under another key is passed over. -/
theorem find?_insert_of_ne {name : String} {key : Value} (h : key ≠ .text name) (v : Value)
    (before after : List (Value × Value)) :
    Value.find? name (before ++ (key, v) :: after) = Value.find? name (before ++ after) := by
  rw [find?_append, find?_cons, find?_singleton_of_ne h, Option.or_none, find?_append]

/-- An entry under a key hides those before it, unless one after it does. -/
theorem find?_insert_self (name : String) (v : Value) (before after : List (Value × Value)) :
    Value.find? name (before ++ (.text name, v) :: after) =
      (Value.find? name after).or (some v) := by
  rw [find?_append, find?_cons, find?_singleton_self, Option.or_assoc, Option.some_or]

end Lookup

section Readers

/-- What a model is read as. -/
def Model.Part : Model → Type
  | .jobSpec => JobSpec
  | .source => Source
  | .target => Target
  | .mapping => Mapping
  | .transform => Transform
  | .aggregation => Aggregation
  | .action => Action

def Model.read : (m : Model) → Reader m.Part
  | .jobSpec => JobSpec.read
  | .source => Source.read
  | .target => Target.read
  | .mapping => Mapping.read
  | .transform => Transform.read
  | .aggregation => Aggregation.read
  | .action => Action.read

/-- Whether two values are read alike at a place of a form. Where no model is prescribed below it,
only the same value is. -/
def Form.ReadAlike : Form → Value → Value → Prop
  | .model m, v, w => m.read v = m.read w
  | .items m, v, w => Reader.items m.read v = Reader.items m.read w
  | _, v, w => v = w

theorem Form.readAlike_refl (form : Form) (v : Value) : form.ReadAlike v v := by
  cases form <;> rfl

/-- Whether two values of a field, or its absence and a value, are read alike. -/
inductive Field.Alike (m : Model) (f : Field) : Option Value → Option Value → Prop
  | absent : Alike m f none none
  | filled {v w : Value} (h : f.form.ReadAlike v w) : Alike m f (some v) (some w)
  | defaulted {default : Value} (h : m.default? f.name = some default) :
      Alike m f none (some default)

theorem Field.alike_refl (m : Model) (f : Field) (v? : Option Value) : f.Alike m v? v? := by
  cases v? with
  | none => exact .absent
  | some v => exact .filled (f.form.readAlike_refl v)

variable {α β : Type} {m : Model}

/-- A reader that does not tell apart what is read alike at places of a form. -/
def Reader.Respects (reader : Reader α) (form : Form) : Prop :=
  ∀ v w, form.ReadAlike v w → reader v = reader w

/-- What is made of some fields of a model depends on what is read there. -/
def RespectsFields (m : Model) (fields : List Field)
    (c : List (Value × Value) → Checked α) : Prop :=
  ∀ entries entries', (∀ f ∈ fields,
    f.Alike m (Value.find? f.name entries) (Value.find? f.name entries')) →
    c entries = c entries'

theorem RespectsFields.map {fields : List Field} {c : List (Value × Value) → Checked α}
    (h : RespectsFields m fields c) (g : α → β) :
    RespectsFields m fields fun entries => g <$> c entries :=
  fun entries entries' halike => congrArg (g <$> ·) (h entries entries' halike)

theorem RespectsFields.seq {fields more : List Field}
    {c : List (Value × Value) → Checked (α → β)} {d : List (Value × Value) → Checked α}
    (hc : RespectsFields m fields c) (hd : RespectsFields m more d) :
    RespectsFields m (fields ++ more) fun entries => c entries <*> d entries := by
  intro entries entries' halike
  rw [List.forall_mem_append] at halike
  dsimp only
  rw [hc entries entries' halike.1, hd entries entries' halike.2]

open Reader

theorem required_respects {reader : Reader α} {form : Form} (h : reader.Respects form)
    (name : String) (hrequired : m.default? name = none) :
    RespectsFields m [{ name, form, required := true }] (required name reader) := by
  intro entries entries' halike
  have hfield := halike _ (List.mem_singleton_self _)
  dsimp only at hfield
  unfold required
  generalize Value.find? name entries = v?, Value.find? name entries' = w? at hfield
  cases hfield with
  | absent => rfl
  | filled hread => exact congrArg (Checked.under _) (h _ _ hread)
  | defaulted hdefault => exact absurd (hrequired.symm.trans hdefault) nofun

/-- A default that is written out is read as what stands for its absence. -/
theorem withDefault_respects {reader : Reader α} {form : Form} (h : reader.Respects form)
    (name : String) {written : Value} (hwritten : m.default? name = some written) {default : α}
    (hdefault : reader written = .ok default) :
    RespectsFields m [{ name, form }] (withDefault name reader default) := by
  intro entries entries' halike
  have hfield := halike _ (List.mem_singleton_self _)
  dsimp only at hfield
  unfold withDefault
  generalize Value.find? name entries = v?, Value.find? name entries' = w? at hfield
  cases hfield with
  | absent => rfl
  | filled hread => exact congrArg (Checked.under _) (h _ _ hread)
  | defaulted hfound =>
    cases hwritten.symm.trans hfound
    exact (Checked.under_eq_ok.mpr hdefault).symm

theorem text_respects : Respects text .text :=
  fun _ _ => congrArg text

theorem flag_respects : Respects flag .flag :=
  fun _ _ => congrArg flag

theorem integer_respects : Respects integer .integer :=
  fun _ _ => congrArg integer

theorem member_respects [Vocabulary α] : Respects (member : Reader α) (.word (wordsOf α)) :=
  fun _ _ => congrArg member

theorem optionMap_respects : Respects optionMap .options :=
  fun _ _ => congrArg optionMap

theorem nullable_text_respects : Respects (nullable text) (.nullable .text) :=
  fun _ _ => congrArg (nullable text)

theorem nullable_member_respects [Vocabulary α] :
    Respects (nullable (member : Reader α)) (.nullable (.word (wordsOf α))) :=
  fun _ _ => congrArg (nullable member)

theorem Model.read_respects (m : Model) : Respects m.read (.model m) :=
  fun _ _ h => h

theorem Model.items_respects (m : Model) : Respects (items m.read) (.items m) :=
  fun _ _ h => h

/-- Whether a model is read alike from mappings that have its fields alike. -/
def Model.ReadByFields (m : Model) : Prop :=
  RespectsFields m m.fields fun entries => m.read (.map entries)

theorem Source.readByFields : Model.source.ReadByFields :=
  ((withDefault_respects text_respects "name" rfl rfl).map Source.mk).seq
    (withDefault_respects nullable_text_respects "query" rfl rfl)

theorem Mapping.readByFields : Model.mapping.ReadByFields := by
  -- Matching the parts with the fields of the model at once would unfold the reader many times.
  have hfields := (((((((((required_respects (m := .mapping) text_respects "name" rfl).map
    Mapping.mk).seq
    (withDefault_respects nullable_text_respects "field" rfl rfl)).seq
    (withDefault_respects nullable_text_respects "constant" rfl rfl)).seq
    (required_respects member_respects "fragment_type" rfl)).seq
    (withDefault_respects member_respects "role" rfl rfl)).seq
    (withDefault_respects nullable_member_respects "type" rfl rfl)).seq
    (withDefault_respects flag_respects "indexed" rfl rfl)).seq
    (withDefault_respects flag_respects "unique" rfl rfl)).seq
    (withDefault_respects flag_respects "mandatory" rfl rfl)
  exact hfields

theorem Aggregation.readByFields : Model.aggregation.ReadByFields :=
  ((withDefault_respects nullable_text_respects "field" rfl rfl).map Aggregation.mk).seq
    (withDefault_respects text_respects "expression" rfl rfl)

theorem Transform.readByFields : Model.transform.ReadByFields :=
  ((((((withDefault_respects nullable_text_respects "sql" rfl rfl).map Transform.mk).seq
    (withDefault_respects flag_respects "group" rfl rfl)).seq
    (withDefault_respects (Model.items_respects .aggregation) "aggregations" rfl rfl)).seq
    (withDefault_respects nullable_text_respects "order_by" rfl rfl)).seq
    (withDefault_respects nullable_text_respects "where" rfl rfl)).seq
    (withDefault_respects integer_respects "limit" rfl rfl)

theorem Target.readByFields : Model.target.ReadByFields := by
  have hfields := (((((((((withDefault_respects (m := .target) text_respects "name" rfl rfl).map
    Target.mk).seq
    (withDefault_respects flag_respects "active" rfl rfl)).seq
    (required_respects member_respects "type" rfl)).seq
    (withDefault_respects text_respects "source" rfl rfl)).seq
    (withDefault_respects nullable_text_respects "custom_query" rfl rfl)).seq
    (withDefault_respects (Model.items_respects .mapping) "mappings" rfl rfl)).seq
    (withDefault_respects (Model.read_respects .transform) "transform" rfl rfl)).seq
    (withDefault_respects member_respects "save_mode" rfl rfl)).seq
    (withDefault_respects member_respects "edge_nodes_match_mode" rfl rfl)
  exact hfields

theorem Action.readByFields : Model.action.ReadByFields :=
  (((((withDefault_respects text_respects "name" rfl rfl).map Action.mk).seq
    (required_respects member_respects "type" rfl)).seq
    (withDefault_respects optionMap_respects "options" rfl rfl)).seq
    (withDefault_respects nullable_member_respects "execute_after" rfl rfl)).seq
    (withDefault_respects nullable_text_respects "execute_after_name" rfl rfl)

theorem JobSpec.readByFields : Model.jobSpec.ReadByFields :=
  (((withDefault_respects (Model.items_respects .source) "sources" rfl rfl).map
    JobSpec.mk).seq
    (withDefault_respects (Model.items_respects .target) "targets" rfl rfl)).seq
    (withDefault_respects (Model.items_respects .action) "actions" rfl rfl)

theorem Model.readByFields (m : Model) : m.ReadByFields := by
  cases m with
  | jobSpec => exact JobSpec.readByFields
  | source => exact Source.readByFields
  | target => exact Target.readByFields
  | mapping => exact Mapping.readByFields
  | transform => exact Transform.readByFields
  | aggregation => exact Aggregation.readByFields
  | action => exact Action.readByFields

/-- A list is read alike when one of its items is. -/
theorem itemsFrom_append_cons {reader : Reader α} {v w : Value} (h : reader v = reader w)
    (index : Nat) (before after : List Value) :
    itemsFrom reader index (before ++ v :: after) =
      itemsFrom reader index (before ++ w :: after) := by
  induction before generalizing index with
  | nil => rw [List.nil_append, List.nil_append, itemsFrom, itemsFrom, h]
  | cons u rest ih => rw [List.cons_append, List.cons_append, itemsFrom, itemsFrom, ih]

end Readers

section Fields

variable {m : Model} {before after : List (Value × Value)}

/-- A field that is added with its default is like an absent one, and no other field is affected. -/
theorem alike_defaulted {name : String} {default : Value}
    (habsent : .text name ∉ (before ++ after).map Prod.fst)
    (h : m.default? name = some default) (f : Field) :
    f.Alike m (Value.find? f.name (before ++ after))
      (Value.find? f.name (before ++ (.text name, default) :: after)) := by
  by_cases hname : f.name = name
  · obtain rfl := hname
    have hnone : (Value.find? f.name after).or (Value.find? f.name before) = none :=
      (find?_append f.name before after).symm.trans (find?_eq_none habsent)
    rw [find?_insert_self, find?_append, hnone, (Option.or_eq_none_iff.mp hnone).1]
    exact .defaulted h
  · rw [find?_insert_of_ne fun hkey => hname (Value.text.inj hkey).symm]
    exact f.alike_refl m _

theorem alike_inField {f : Field} {v w : Value} (h : f.form.ReadAlike v w) (g : Field)
    (hfields : f.name = g.name → f = g) :
    g.Alike m (Value.find? g.name (before ++ (.text f.name, v) :: after))
      (Value.find? g.name (before ++ (.text f.name, w) :: after)) := by
  by_cases hname : f.name = g.name
  · obtain rfl := hfields hname
    rw [find?_insert_self, find?_insert_self]
    -- An entry of the same name further on hides both values.
    cases Value.find? f.name after with
    | none => exact .filled h
    | some u => exact f.alike_refl m (some u)
  · have hne : Value.text f.name ≠ .text g.name := fun hkey => hname (Value.text.inj hkey)
    rw [find?_insert_of_ne hne, find?_insert_of_ne hne]
    exact g.alike_refl m _

end Fields

/-- A place is read alike in another wording. -/
theorem Rewording.readAlike {form : Form} {v w : Value} (h : Rewording form v w) :
    form.ReadAlike v w := by
  induction h with
  | @reordered m entries entries' hkeys hperm =>
    apply m.readByFields
    intro f _
    rw [find?_perm hkeys hperm]
    exact f.alike_refl m _
  | @unknown m before after key v hunknown =>
    apply m.readByFields
    intro f hf
    rw [find?_insert_of_ne (hunknown f hf)]
    exact f.alike_refl m _
  | @defaulted m before after name default habsent hdefault =>
    apply m.readByFields
    exact fun f _ => alike_defaulted habsent hdefault f
  | @inField m f before after v w hf _ ih =>
    apply m.readByFields
    exact fun g hg => alike_inField ih g (Model.field_ext hf hg)
  | inItem _ ih => exact itemsFrom_append_cons ih 0 _ _

theorem JobSpec.ofDocument_congr {entries entries' : List (Value × Value)}
    (h : JobSpec.read (.map entries) = JobSpec.read (.map entries')) (origin : String) :
    JobSpec.ofDocument origin (.map entries) = JobSpec.ofDocument origin (.map entries') := by
  cases hread : JobSpec.read (.map entries) with
  | ok spec => rw [JobSpec.ofDocument_map hread, JobSpec.ofDocument_map (h.symm.trans hread)]
  | flawed flaws =>
    rw [JobSpec.ofDocument_flawed hread, JobSpec.ofDocument_flawed (h.symm.trans hread)]

theorem Rewording.ofDocument_eq {raw raw' : Value} (h : Rewording (.model .jobSpec) raw raw')
    (origin : String) : JobSpec.ofDocument origin raw = JobSpec.ofDocument origin raw' := by
  have hread : JobSpec.read raw = JobSpec.read raw' := h.readAlike
  cases h <;> exact JobSpec.ofDocument_congr hread origin

/-- All wordings of a document yield the same: one spec with one list of problems, or one list of
flaws. -/
theorem ofDocument_reworded {raw raw' : Value}
    (h : Relation.EqvGen (Rewording (.model .jobSpec)) raw raw') (origin : String) :
    JobSpec.ofDocument origin raw = JobSpec.ofDocument origin raw' ∧
      (JobSpec.ofDocument origin raw).map Rules.problemsOf =
        (JobSpec.ofDocument origin raw').map Rules.problemsOf := by
  have hsame : JobSpec.ofDocument origin raw = JobSpec.ofDocument origin raw' := by
    induction h with
    | rel _ _ hchange => exact hchange.ofDocument_eq origin
    | refl => rfl
    | symm _ _ _ ih => exact ih.symm
    | trans _ _ _ _ _ first second => exact first.trans second
  exact ⟨hsame, congrArg _ hsame⟩

/-- A job spec without sources and with a target whose name and type are wrong. -/
def strayTarget : Value := .record [
  ("sources", .list []),
  ("targets", .list [.record [("type", .text "hyperedge"), ("name", .int 5)]])]

/-- The same with a note, saying that the target is active and nothing of sources. -/
def notedTarget : Value := .record [
  ("note", .bool true),
  ("targets", .list [
    .record [("name", .int 5), ("active", .bool true), ("type", .text "hyperedge")]])]

/-- A rewording of the only target of a document rewords the document. -/
theorem reworded_onlyTarget {t u : Value} (h : Rewording (.model .target) t u) :
    Rewording (.model .jobSpec) (.record [("targets", .list [t])])
      (.record [("targets", .list [u])]) :=
  @Rewording.inField .jobSpec { name := "targets", form := .items .target } [] [] _ _
    (by simp [Model.fields]) (@Rewording.inItem .target [] [] _ _ h)

theorem strayTarget_wordings :
    Relation.EqvGen (Rewording (.model .jobSpec)) strayTarget notedTarget := by
  have hsources : Rewording (.model .jobSpec)
      (.record [("targets", .list [.record [("type", .text "hyperedge"), ("name", .int 5)]])])
      strayTarget :=
    @Rewording.defaulted .jobSpec [] _ "sources" _ (by simp) rfl
  have hreordered : Rewording (.model .target)
      (.record [("type", .text "hyperedge"), ("name", .int 5)])
      (.record [("name", .int 5), ("type", .text "hyperedge")]) :=
    .reordered (by simp) (List.Perm.swap ..)
  have hactive : Rewording (.model .target)
      (.record [("name", .int 5), ("type", .text "hyperedge")])
      (.record [("name", .int 5), ("active", .bool true), ("type", .text "hyperedge")]) :=
    @Rewording.defaulted .target [(.text "name", .int 5)] _ "active" _ (by simp) rfl
  have hnote : Rewording (.model .jobSpec)
      (.record [("targets", .list [
        .record [("name", .int 5), ("active", .bool true), ("type", .text "hyperedge")]])])
      notedTarget :=
    @Rewording.unknown .jobSpec [] _ (.text "note") _ (by simp [Model.fields])
  exact .trans _ _ _ (.symm _ _ (.rel _ _ hsources))
    (.trans _ _ _ (.rel _ _ (reworded_onlyTarget hreordered))
      (.trans _ _ _ (.rel _ _ (reworded_onlyTarget hactive)) (.rel _ _ hnote)))

theorem strayTarget_reworded :
    Relation.EqvGen (Rewording (.model .jobSpec)) strayTarget notedTarget ∧
      ∃ flaws, JobSpec.ofDocument unnamedOrigin strayTarget = .error (.flawed flaws) ∧
        JobSpec.ofDocument unnamedOrigin notedTarget = .error (.flawed flaws) ∧
        flaws.map Flaw.line = ["targets.0.name: Input should be a valid string",
          "targets.0.type: Input should be 'node', 'edge' or 'custom_query'"] := by
  obtain ⟨hsame, -⟩ := ofDocument_reworded strayTarget_wordings unnamedOrigin
  have hread : JobSpec.ofDocument unnamedOrigin strayTarget =
      .error (.flawed (JobSpec.read strayTarget).flaws) := rfl
  exact ⟨strayTarget_wordings, _, hread, hsame.symm.trans hread, by decide +kernel⟩

end GraphImport.Spec
