import GraphImport.Proofs.Spec.Scalars

/-!
# The schema of a job spec

A job spec is made of models, each with its fields in order, and a field asks for a form. The
schema prescribes places in a document: the document as a whole, the fields of what has to be a
model and the items of what has to be a list of models. A reader follows a form when it finds a
flaw at exactly the prescribed places that do not conform, in the order of the schema.
-/

namespace GraphImport.Spec

open Document (Value)

/-- The models that make up a job spec. -/
inductive Model
  | jobSpec
  | source
  | target
  | mapping
  | transform
  | aggregation
  | action

/-- What a place asks of the value there. -/
inductive Form
  | text
  | flag
  | integer
  | word (words : List String)
  | options
  | nullable (form : Form)
  | items (m : Model)
  | model (m : Model)

/-- A field of a model. One that is not required has a default. -/
structure Field where
  name : String
  form : Form
  required : Bool := false

/-- The fields of a model, in the order in which they are declared. -/
def Model.fields : Model → List Field
  | .jobSpec => [
    { name := "sources", form := .items .source },
    { name := "targets", form := .items .target },
    { name := "actions", form := .items .action }]
  | .source => [
    { name := "name", form := .text },
    { name := "query", form := .nullable .text }]
  | .target => [
    { name := "name", form := .text },
    { name := "active", form := .flag },
    { name := "type", form := .word (wordsOf TargetType), required := true },
    { name := "source", form := .text },
    { name := "custom_query", form := .nullable .text },
    { name := "mappings", form := .items .mapping },
    { name := "transform", form := .model .transform },
    { name := "save_mode", form := .word (wordsOf SaveMode) },
    { name := "edge_nodes_match_mode", form := .word (wordsOf EdgeNodesMatchMode) }]
  | .mapping => [
    { name := "name", form := .text, required := true },
    { name := "field", form := .nullable .text },
    { name := "constant", form := .nullable .text },
    { name := "fragment_type", form := .word (wordsOf FragmentType), required := true },
    { name := "role", form := .word (wordsOf RoleType) },
    { name := "type", form := .nullable (.word (wordsOf PropertyType)) },
    { name := "indexed", form := .flag },
    { name := "unique", form := .flag },
    { name := "mandatory", form := .flag }]
  | .transform => [
    { name := "sql", form := .nullable .text },
    { name := "group", form := .flag },
    { name := "aggregations", form := .items .aggregation },
    { name := "order_by", form := .nullable .text },
    { name := "where", form := .nullable .text },
    { name := "limit", form := .integer }]
  | .aggregation => [
    { name := "field", form := .nullable .text },
    { name := "expression", form := .text }]
  | .action => [
    { name := "name", form := .text },
    { name := "type", form := .word (wordsOf ActionType), required := true },
    { name := "options", form := .options },
    { name := "execute_after", form := .nullable (.word (wordsOf ActionExecuteAfter)) },
    { name := "execute_after_name", form := .nullable .text }]

/-- Whether a value has a form, whatever the values inside it are. -/
def Form.Fits : Form → Value → Prop
  | .text, v => ∃ s, v = .text s
  | .flag, v => IsFlag v
  | .integer, v => IsInteger v
  | .word words, v => ∃ s ∈ words, v = .text s
  | .options, v => ∃ entries, v = .map entries
  | .nullable form, v => v = .null ∨ form.Fits v
  | .items _, v => ∃ items, v = .list items
  | .model _, v => ∃ entries, v = .map entries

/-- What stands at a place: a value that should have a form, or nothing, where there is a default
and where there is none. -/
inductive Slot
  | filled (form : Form) (v : Value)
  | defaulted
  | missing

def Slot.Conforms : Slot → Prop
  | .filled form v => form.Fits v
  | .defaulted => True
  | .missing => False

def Field.slot (f : Field) (entries : List (Value × Value)) : Slot :=
  match Value.find? f.name entries with
  | some v => .filled f.form v
  | none => if f.required then .missing else .defaulted

/-- The places that are prescribed below a place, by the path from there. -/
inductive Slot.Leads : Slot → List Step → Slot → Prop
  | here (s : Slot) : s.Leads [] s
  | field {m : Model} {entries : List (Value × Value)} {f : Field} {path : List Step} {t : Slot}
      (hf : f ∈ m.fields) (h : (f.slot entries).Leads path t) :
      (filled (.model m) (.map entries)).Leads (.field f.name :: path) t
  | item {m : Model} {values : List Value} {i : Nat} {v : Value} {path : List Step} {t : Slot}
      (hv : values[i]? = some v) (h : (filled (.model m) v).Leads path t) :
      (filled (.items m) (.list values)).Leads (.item i :: path) t

/-- Whether one path comes before another below a place of a form: fields stand in the order in
which they are declared and items in that of their list. -/
inductive Before : Form → List Step → List Step → Prop
  | fields {m : Model} {f g : Field} (h : [f, g].Sublist m.fields) (p q : List Step) :
      Before (.model m) (.field f.name :: p) (.field g.name :: q)
  | inField {m : Model} {f : Field} {p q : List Step} (hf : f ∈ m.fields)
      (h : Before f.form p q) : Before (.model m) (.field f.name :: p) (.field f.name :: q)
  | items {m : Model} {i j : Nat} (h : i < j) (p q : List Step) :
      Before (.items m) (.item i :: p) (.item j :: q)
  | inItem {m : Model} {i : Nat} {p q : List Step} (h : Before (.model m) p q) :
      Before (.items m) (.item i :: p) (.item i :: q)

namespace Checked

variable {α β : Type}

@[simp] theorem flaws_map (f : α → β) (c : Checked α) : (f <$> c).flaws = c.flaws := by
  cases c <;> rfl

@[simp] theorem flaws_seq (f : Checked (α → β)) (c : Checked α) :
    (f <*> c).flaws = f.flaws ++ c.flaws := by
  cases f with
  | ok g => cases c <;> rfl
  | flawed found =>
    cases c with
    | ok a => exact (List.append_nil _).symm
    | flawed more => rfl

@[simp] theorem flaws_under (step : Step) (c : Checked α) :
    (c.under step).flaws = c.flaws.map (Flaw.under step) := by
  cases c <;> rfl

/-- Where the flaws are. -/
def paths (c : Checked α) : List (List Step) :=
  c.flaws.map Flaw.path

@[simp] theorem paths_ok (a : α) : (ok a).paths = [] := rfl

@[simp] theorem paths_mismatch (cause : Mismatch) : (mismatch cause : Checked α).paths = [[]] := rfl

@[simp] theorem paths_map (f : α → β) (c : Checked α) : (f <$> c).paths = c.paths := by
  rw [paths, flaws_map, paths]

@[simp] theorem paths_seq (f : Checked (α → β)) (c : Checked α) :
    (f <*> c).paths = f.paths ++ c.paths := by
  rw [paths, flaws_seq, List.map_append, paths, paths]

@[simp] theorem paths_under (step : Step) (c : Checked α) :
    (c.under step).paths = c.paths.map (step :: ·) := by
  rw [paths, flaws_under, paths, List.map_map, List.map_map]
  rfl

/-- A value is read unless there are flaws, and each of these is told in one line. -/
structure Settled (c : Checked α) : Prop where
  value : c.flaws = [] → ∃ a, c = .ok a
  oneLine : ∀ flaw ∈ c.flaws, OneLine flaw.cause.message

theorem settled_ok (a : α) : (ok a).Settled :=
  ⟨fun _ => ⟨a, rfl⟩, List.forall_mem_nil _⟩

theorem settled_mismatch {cause : Mismatch} (h : OneLine cause.message) :
    (mismatch cause : Checked α).Settled :=
  ⟨fun hnone => absurd hnone (List.cons_ne_nil _ _), List.forall_mem_singleton.mpr h⟩

theorem Settled.map {c : Checked α} (h : c.Settled) (f : α → β) : (f <$> c).Settled where
  value hnone := by
    obtain ⟨a, rfl⟩ := h.value (by rwa [flaws_map] at hnone)
    exact ⟨f a, rfl⟩
  oneLine := by
    rw [flaws_map]
    exact h.oneLine

theorem Settled.seq {f : Checked (α → β)} {c : Checked α} (hf : f.Settled) (hc : c.Settled) :
    (f <*> c).Settled where
  value hnone := by
    rw [flaws_seq, List.append_eq_nil_iff] at hnone
    obtain ⟨g, rfl⟩ := hf.value hnone.1
    obtain ⟨a, rfl⟩ := hc.value hnone.2
    exact ⟨g a, rfl⟩
  oneLine := by
    rw [flaws_seq, List.forall_mem_append]
    exact ⟨hf.oneLine, hc.oneLine⟩

theorem Settled.under {c : Checked α} (h : c.Settled) (step : Step) : (c.under step).Settled where
  value hnone := by
    rw [flaws_under, List.map_eq_nil_iff] at hnone
    obtain ⟨a, rfl⟩ := h.value hnone
    exact ⟨a, rfl⟩
  oneLine := by
    rw [flaws_under, List.forall_mem_map]
    exact h.oneLine

end Checked

open Checked (settled_ok settled_mismatch)

variable {α β : Type}

/-- The flaws found at a place that should have a form are its places that do not conform, in
order. -/
structure Reports (c : Checked α) (form : Form) (s : Slot) : Prop where
  settled : c.Settled
  mem_paths : ∀ path, path ∈ c.paths ↔ ∃ t, s.Leads path t ∧ ¬ t.Conforms
  ordered : c.paths.Pairwise (Before form)

/-- A reader reports on every JSON value that should have a form. -/
def Reader.Follows (reader : Reader α) (form : Form) : Prop :=
  ∀ v, IsJson v → Reports (reader v) form (.filled form v)

/-- What was read is right where all places that are prescribed conform. -/
theorem reports_ok (a : α) {form : Form} {s : Slot} (h : ∀ path t, s.Leads path t → t.Conforms) :
    Reports (.ok a) form s where
  settled := settled_ok a
  mem_paths path := by
    rw [Checked.paths_ok]
    refine ⟨fun hmem => absurd hmem List.not_mem_nil, ?_⟩
    rintro ⟨t, ht, hnot⟩
    exact absurd (h path t ht) hnot
  ordered := List.Pairwise.nil

/-- A place with nothing prescribed below it has one flaw if it does not conform. -/
theorem reports_mismatch {cause : Mismatch} (hline : OneLine cause.message) {form : Form} {s : Slot}
    (hnot : ¬ s.Conforms) (h : ∀ path t, s.Leads path t → path = []) :
    Reports (Checked.mismatch cause : Checked α) form s where
  settled := settled_mismatch hline
  mem_paths path := by
    rw [Checked.paths_mismatch, List.mem_singleton]
    constructor
    · rintro rfl
      exact ⟨s, .here s, hnot⟩
    · rintro ⟨t, ht, -⟩
      exact h path t ht
  ordered := List.pairwise_singleton _ _

section Scalars

/-- A form below which nothing is prescribed. -/
def Form.IsScalar : Form → Prop
  | .items _ | .model _ => False
  | _ => True

theorem Slot.Leads.of_scalar {form : Form} (hscalar : form.IsScalar) {v : Value} {path : List Step}
    {t : Slot} (h : (Slot.filled form v).Leads path t) : path = [] ∧ t = .filled form v := by
  cases h with
  | here => exact ⟨rfl, rfl⟩
  | field => exact hscalar.elim
  | item => exact hscalar.elim

theorem Reader.Judges.follows {reader : Reader α} {form : Form} (h : Judges reader form.Fits)
    (hscalar : form.IsScalar) : reader.Follows form := by
  intro v hv
  rcases h v hv with ⟨hfits, a, ha⟩ | ⟨hnot, cause, hline, hcause⟩
  · rw [ha]
    apply reports_ok
    intro path t ht
    rw [(ht.of_scalar hscalar).2]
    exact hfits
  · rw [hcause]
    exact reports_mismatch hline hnot fun path t ht => (ht.of_scalar hscalar).1

theorem Reader.entries_ok {fields : List (Value × Value)}
    (hkeys : ∀ e ∈ fields, ∃ name, e.1 = .text name) : ∃ options, entries fields = .ok options := by
  induction fields with
  | nil => exact ⟨[], rfl⟩
  | cons e rest ih =>
    obtain ⟨key, v⟩ := e
    obtain ⟨name, rfl⟩ := hkeys _ List.mem_cons_self
    obtain ⟨options, hrest⟩ := ih fun e he => hkeys e (List.mem_cons_of_mem _ he)
    exact ⟨(name, v) :: options, by rw [entries, hrest]; rfl⟩

theorem Reader.judges_optionMap : Judges optionMap (fun v => ∃ entries, v = .map entries) := by
  intro v hv
  cases hv with
  | map hkeys _ => exact .inl ⟨⟨_, rfl⟩, entries_ok hkeys⟩
  | _ => exact .inr ⟨by simp, .of_eq rfl rfl⟩

open Reader

theorem text_follows : Follows text .text :=
  judges_text.follows trivial

theorem flag_follows : Follows flag .flag :=
  judges_flag.follows trivial

theorem integer_follows : Follows integer .integer :=
  judges_integer.follows trivial

theorem member_follows [Vocabulary α] (hwords : ∀ w ∈ wordsOf α, OneLine w) :
    Follows (member : Reader α) (.word (wordsOf α)) :=
  (judges_member hwords).follows trivial

theorem nullable_text_follows : Follows (nullable text) (.nullable .text) :=
  judges_text.nullable.follows trivial

theorem nullable_member_follows [Vocabulary α] (hwords : ∀ w ∈ wordsOf α, OneLine w) :
    Follows (nullable (member : Reader α)) (.nullable (.word (wordsOf α))) :=
  (judges_member hwords).nullable.follows trivial

theorem optionMap_follows : Follows optionMap .options :=
  judges_optionMap.follows trivial

end Scalars

section Models

variable {entries : List (Value × Value)}

/-- Whether one path comes before another, by fields from a list and then below a field. -/
def BeforeIn (fields : List Field) (p q : List Step) : Prop :=
  (∃ f g p' q', [f, g].Sublist fields ∧ p = .field f.name :: p' ∧ q = .field g.name :: q') ∨
    ∃ f p' q', f ∈ fields ∧ p = .field f.name :: p' ∧ q = .field f.name :: q' ∧
      Before f.form p' q'

/-- The flaws found in some fields of a mapping are the places below them that do not conform, in
order. -/
structure ReportsFields (fields : List Field) (entries : List (Value × Value)) (c : Checked α) :
    Prop where
  settled : c.Settled
  mem_paths : ∀ path, path ∈ c.paths ↔ ∃ f ∈ fields, ∃ rest t,
    path = .field f.name :: rest ∧ (f.slot entries).Leads rest t ∧ ¬ t.Conforms
  ordered : c.paths.Pairwise (BeforeIn fields)

theorem ReportsFields.map {fields : List Field} {c : Checked α}
    (h : ReportsFields fields entries c) (f : α → β) : ReportsFields fields entries (f <$> c) where
  settled := h.settled.map f
  mem_paths := by
    rw [Checked.paths_map]
    exact h.mem_paths
  ordered := by
    rw [Checked.paths_map]
    exact h.ordered

theorem BeforeIn.mono {fields more : List Field} (h : fields.Sublist more) {p q : List Step}
    (hpq : BeforeIn fields p q) : BeforeIn more p q := by
  rcases hpq with ⟨f, g, p', q', hfg, hp, hq⟩ | ⟨f, p', q', hf, hp, hq, hbefore⟩
  · exact .inl ⟨f, g, p', q', hfg.trans h, hp, hq⟩
  · exact .inr ⟨f, p', q', h.subset hf, hp, hq, hbefore⟩

theorem ReportsFields.seq {fields more : List Field} {c : Checked (α → β)} {d : Checked α}
    (hc : ReportsFields fields entries c) (hd : ReportsFields more entries d) :
    ReportsFields (fields ++ more) entries (c <*> d) where
  settled := hc.settled.seq hd.settled
  mem_paths path := by
    rw [Checked.paths_seq, List.mem_append, hc.mem_paths, hd.mem_paths]
    simp only [List.mem_append, or_and_right, exists_or]
  ordered := by
    rw [Checked.paths_seq, List.pairwise_append]
    refine ⟨hc.ordered.imp (BeforeIn.mono (List.sublist_append_left _ _)),
      hd.ordered.imp (BeforeIn.mono (List.sublist_append_right _ _)), ?_⟩
    intro p hp q hq
    obtain ⟨f, hf, p', _, rfl, _⟩ := (hc.mem_paths p).mp hp
    obtain ⟨g, hg, q', _, rfl, _⟩ := (hd.mem_paths q).mp hq
    have hfg : [f, g].Sublist (fields ++ more) :=
      (List.singleton_sublist.mpr hf).append (List.singleton_sublist.mpr hg)
    exact .inl ⟨f, g, p', q', hfg, rfl, rfl⟩

/-- What is found in one field is what is found at its slot. -/
theorem Reports.field {f : Field} {c : Checked α} (h : Reports c f.form (f.slot entries)) :
    ReportsFields [f] entries (c.under (.field f.name)) where
  settled := h.settled.under _
  mem_paths path := by
    rw [Checked.paths_under, List.mem_map]
    simp only [h.mem_paths, List.mem_singleton, exists_eq_left]
    constructor
    · rintro ⟨rest, ⟨t, ht⟩, rfl⟩
      exact ⟨rest, t, rfl, ht⟩
    · rintro ⟨rest, t, rfl, ht⟩
      exact ⟨rest, ⟨t, ht⟩, rfl⟩
  ordered := by
    rw [Checked.paths_under, List.pairwise_map]
    apply h.ordered.imp
    intro p q hpq
    exact .inr ⟨f, p, q, List.mem_singleton_self f, rfl, rfl, hpq⟩

theorem Slot.Leads.of_absent {s t : Slot} {path : List Step} (h : s.Leads path t)
    (hs : ∀ form v, s ≠ .filled form v) : path = [] ∧ t = s := by
  cases h with
  | here => exact ⟨rfl, rfl⟩
  | field => exact absurd rfl (hs _ _)
  | item => exact absurd rfl (hs _ _)

theorem reports_defaulted (a : α) (form : Form) : Reports (.ok a) form .defaulted := by
  apply reports_ok
  intro path t ht
  rw [(ht.of_absent nofun).2]
  exact trivial

theorem reports_missing (form : Form) :
    Reports (Checked.mismatch .missing : Checked α) form .missing := by
  have hline : OneLine Mismatch.missing.message := Mismatch.oneLine nofun
  exact reports_mismatch hline id fun _ _ ht => (ht.of_absent nofun).1

theorem IsJson.of_find? (hjson : IsJson (.map entries)) {name : String} {v : Value}
    (h : Value.find? name entries = some v) : IsJson v := by
  obtain ⟨e, he, rfl⟩ := Option.map_eq_some_iff.mp h
  have hmem : e ∈ entries := List.mem_reverse.mp (List.mem_of_find?_eq_some he)
  cases hjson with
  | map _ hvalues => exact hvalues e hmem

open Reader

theorem required_reports (hjson : IsJson (.map entries)) {reader : Reader α} {form : Form}
    (h : reader.Follows form) (name : String) :
    ReportsFields [{ name, form, required := true }] entries (required name reader entries) := by
  unfold required
  split
  next v hv =>
    apply Reports.field (f := { name, form, required := true })
    simp only [Field.slot, hv]
    exact h v (hjson.of_find? hv)
  next hnone =>
    apply Reports.field (f := { name, form, required := true })
    simp only [Field.slot, hnone, if_true]
    exact reports_missing form

theorem withDefault_reports (hjson : IsJson (.map entries)) {reader : Reader α} {form : Form}
    (h : reader.Follows form) (name : String) (default : α) :
    ReportsFields [{ name, form }] entries (withDefault name reader default entries) := by
  unfold withDefault
  split
  next v hv =>
    apply Reports.field (f := { name, form })
    simp only [Field.slot, hv]
    exact h v (hjson.of_find? hv)
  next hnone =>
    apply Reports.field (f := { name, form }) (c := .ok default)
    simp only [Field.slot, hnone]
    exact reports_defaulted default form

theorem Before.of_in {m : Model} {p q : List Step} (h : BeforeIn m.fields p q) :
    Before (.model m) p q := by
  rcases h with ⟨f, g, p', q', hfg, rfl, rfl⟩ | ⟨f, p', q', hf, rfl, rfl, h⟩
  · exact .fields hfg p' q'
  · exact .inField hf h

/-- A model that is read field by field reports on mappings what its fields report. -/
theorem model_follows {m : Model} {title : String} {fields : List (Value × Value) → Checked α}
    (htitle : OneLine title)
    (h : ∀ entries, IsJson (.map entries) → ReportsFields m.fields entries (fields entries)) :
    Follows (model title fields) (.model m) := by
  intro v hv
  by_cases hmap : ∃ entries, v = .map entries
  · obtain ⟨entries, rfl⟩ := hmap
    have hfields := h entries hv
    refine ⟨hfields.settled, fun path => ?_, hfields.ordered.imp Before.of_in⟩
    change path ∈ (fields entries).paths ↔ _
    rw [hfields.mem_paths]
    constructor
    · rintro ⟨f, hf, rest, t, rfl, ht, hnot⟩
      exact ⟨t, .field hf ht, hnot⟩
    · rintro ⟨t, ht, hnot⟩
      cases ht with
      | here => exact absurd ⟨entries, rfl⟩ hnot
      | field hf ht => exact ⟨_, hf, _, t, rfl, ht, hnot⟩
  · have hread : model title fields v = .mismatch (.notModel title) := by
      cases hv with
      | map => exact absurd ⟨_, rfl⟩ hmap
      | _ => rfl
    have hline : OneLine (Mismatch.notModel title).message :=
      Mismatch.oneLine (List.forall_mem_singleton.mpr htitle)
    rw [hread]
    refine reports_mismatch hline hmap ?_
    intro path t ht
    cases ht with
    | here => rfl
    | field => exact absurd ⟨_, rfl⟩ hmap

end Models

section Lists

open Reader

/-- The flaws found in the items of a list from an index on are the places below them that do not
conform, in order. -/
structure ReportsItems (m : Model) (index : Nat) (values : List Value) (c : Checked α) : Prop where
  settled : c.Settled
  mem_paths : ∀ path, path ∈ c.paths ↔ ∃ i v rest t, values[i]? = some v ∧
    path = .item (index + i) :: rest ∧ (Slot.filled (.model m) v).Leads rest t ∧ ¬ t.Conforms
  ordered : c.paths.Pairwise (Before (.items m))

theorem itemsFrom_reports {reader : Reader α} {m : Model} (h : reader.Follows (.model m))
    (index : Nat) {values : List Value} (hjson : ∀ v ∈ values, IsJson v) :
    ReportsItems m index values (itemsFrom reader index values) := by
  induction values generalizing index with
  | nil => exact ⟨settled_ok [], by simp [itemsFrom], List.Pairwise.nil⟩
  | cons v rest ih =>
    have hv := h v (hjson v List.mem_cons_self)
    have hrest := ih (index + 1) fun w hw => hjson w (List.mem_cons_of_mem _ hw)
    rw [itemsFrom]
    refine ⟨((hv.settled.under _).map _).seq hrest.settled, fun path => ?_, ?_⟩
    · rw [Checked.paths_seq, Checked.paths_map, Checked.paths_under, List.mem_append, List.mem_map,
        hrest.mem_paths]
      constructor
      · rintro (⟨p, hp, rfl⟩ | ⟨i, w, p, t, hw, rfl, ht⟩)
        · obtain ⟨t, ht⟩ := (hv.mem_paths p).mp hp
          exact ⟨0, v, p, t, rfl, rfl, ht⟩
        · exact ⟨i + 1, w, p, t, by simpa using hw, by rw [Nat.add_right_comm, Nat.add_assoc], ht⟩
      · rintro ⟨i, w, p, t, hw, rfl, ht⟩
        cases i with
        | zero =>
          cases Option.some.inj hw
          exact .inl ⟨p, (hv.mem_paths p).mpr ⟨t, ht⟩, rfl⟩
        | succ i =>
          exact .inr ⟨i, w, p, t, by simpa using hw, by rw [Nat.add_right_comm, Nat.add_assoc], ht⟩
    · rw [Checked.paths_seq, Checked.paths_map, Checked.paths_under, List.pairwise_append,
        List.pairwise_map]
      refine ⟨hv.ordered.imp fun hpq => .inItem hpq, hrest.ordered, ?_⟩
      intro p hp q hq
      obtain ⟨p', _, rfl⟩ := List.mem_map.mp hp
      obtain ⟨i, _, q', _, _, rfl, _⟩ := (hrest.mem_paths q).mp hq
      exact .items (by omega) p' q'

/-- A list of models reports on lists what their items report. -/
theorem items_follows {reader : Reader α} {m : Model} (h : reader.Follows (.model m)) :
    Follows (items reader) (.items m) := by
  intro v hv
  by_cases hlist : ∃ values, v = .list values
  · obtain ⟨values, rfl⟩ := hlist
    have hvalues : ∀ v ∈ values, IsJson v := by
      cases hv with
      | list hvalues => exact hvalues
    have hitems := itemsFrom_reports h 0 hvalues
    refine ⟨hitems.settled, fun path => ?_, hitems.ordered⟩
    change path ∈ (itemsFrom reader 0 values).paths ↔ _
    rw [hitems.mem_paths]
    constructor
    · rintro ⟨i, w, rest, t, hw, rfl, ht, hnot⟩
      rw [Nat.zero_add]
      exact ⟨t, .item hw ht, hnot⟩
    · rintro ⟨t, ht, hnot⟩
      cases ht with
      | here => exact absurd ⟨values, rfl⟩ hnot
      | item hw ht => exact ⟨_, _, _, t, hw, by rw [Nat.zero_add], ht, hnot⟩
  · have hread : items reader v = .mismatch .notList := by
      cases hv with
      | list => exact absurd ⟨_, rfl⟩ hlist
      | _ => rfl
    have hline : OneLine Mismatch.notList.message := Mismatch.oneLine nofun
    rw [hread]
    refine reports_mismatch hline hlist ?_
    intro path t ht
    cases ht with
    | here => rfl
    | item => exact absurd ⟨_, rfl⟩ hlist

end Lists

end GraphImport.Spec
