import Mathlib.Data.List.Nodup
import GraphImport.Proofs.Spec.Schema

/-!
# The structure of a job spec

A mapping is read as a job spec exactly when every place that the schema prescribes conforms. The
flaws of any other mapping are its outermost places that do not conform, each of them once, in the
order of the schema and at paths that differ in writing.
-/

namespace GraphImport.Spec

open Document (Value)
open Reader (Follows)

section Readers

open Reader

theorem Source.read_follows : Follows Source.read (.model .source) := by
  apply model_follows (.ofList (by decide))
  intro e hjson
  exact ((withDefault_reports hjson text_follows "name" "").map Source.mk).seq
    (withDefault_reports hjson nullable_text_follows "query" none)

theorem Mapping.read_follows : Follows Mapping.read (.model .mapping) := by
  apply model_follows (.ofList (by decide))
  intro e hjson
  -- Matching the parts with the fields of the model at once would unfold the reader many times.
  have hfields := ((((((((((required_reports hjson text_follows "name").map Mapping.mk).seq
    (withDefault_reports hjson nullable_text_follows "field" none)).seq
    (withDefault_reports hjson nullable_text_follows "constant" none)).seq
    (required_reports hjson (member_follows (by decide)) "fragment_type")).seq
    (withDefault_reports hjson (member_follows (by decide)) "role" .property)).seq
    (withDefault_reports hjson (nullable_member_follows (by decide)) "type" none)).seq
    (withDefault_reports hjson flag_follows "indexed" false)).seq
    (withDefault_reports hjson flag_follows "unique" false)).seq
    (withDefault_reports hjson flag_follows "mandatory" false))
  exact hfields

theorem Aggregation.read_follows : Follows Aggregation.read (.model .aggregation) := by
  apply model_follows (.ofList (by decide))
  intro e hjson
  exact ((withDefault_reports hjson nullable_text_follows "field" none).map Aggregation.mk).seq
    (withDefault_reports hjson text_follows "expression" "")

theorem Transform.read_follows : Follows Transform.read (.model .transform) := by
  apply model_follows (.ofList (by decide))
  intro e hjson
  exact (((((((withDefault_reports hjson nullable_text_follows "sql" none).map Transform.mk).seq
    (withDefault_reports hjson flag_follows "group" false)).seq
    (withDefault_reports hjson (items_follows Aggregation.read_follows) "aggregations" [])).seq
    (withDefault_reports hjson nullable_text_follows "order_by" none)).seq
    (withDefault_reports hjson nullable_text_follows "where" none)).seq
    (withDefault_reports hjson integer_follows "limit" (-1)))

theorem Target.read_follows : Follows Target.read (.model .target) := by
  apply model_follows (.ofList (by decide))
  intro e hjson
  exact ((((((((((withDefault_reports hjson text_follows "name" "").map Target.mk).seq
    (withDefault_reports hjson flag_follows "active" true)).seq
    (required_reports hjson (member_follows (by decide)) "type")).seq
    (withDefault_reports hjson text_follows "source" "")).seq
    (withDefault_reports hjson nullable_text_follows "custom_query" none)).seq
    (withDefault_reports hjson (items_follows Mapping.read_follows) "mappings" [])).seq
    (withDefault_reports hjson Transform.read_follows "transform" {})).seq
    (withDefault_reports hjson (member_follows (by decide)) "save_mode" .append)).seq
    (withDefault_reports hjson (member_follows (by decide)) "edge_nodes_match_mode" .matching))

theorem Action.read_follows : Follows Action.read (.model .action) := by
  apply model_follows (.ofList (by decide))
  intro e hjson
  exact ((((((withDefault_reports hjson text_follows "name" "").map Action.mk).seq
    (required_reports hjson (member_follows (by decide)) "type")).seq
    (withDefault_reports hjson optionMap_follows "options" [])).seq
    (withDefault_reports hjson (nullable_member_follows (by decide)) "execute_after" none)).seq
    (withDefault_reports hjson nullable_text_follows "execute_after_name" none))

theorem JobSpec.read_follows : Follows JobSpec.read (.model .jobSpec) := by
  apply model_follows (.ofList (by decide))
  intro e hjson
  exact ((((withDefault_reports hjson (items_follows Source.read_follows) "sources" []).map
    JobSpec.mk).seq
    (withDefault_reports hjson (items_follows Target.read_follows) "targets" [])).seq
    (withDefault_reports hjson (items_follows Action.read_follows) "actions" []))

end Readers

section Paths

theorem Model.names_nodup (m : Model) : (m.fields.map Field.name).Nodup := by
  cases m <;> decide

theorem Model.field_ext {m : Model} {f g : Field} (hf : f ∈ m.fields) (hg : g ∈ m.fields)
    (h : f.name = g.name) : f = g :=
  List.inj_on_of_nodup_map m.names_nodup hf hg h

/-- Paths in order differ. -/
theorem Before.ne {form : Form} {p q : List Step} (h : Before form p q) : p ≠ q := by
  induction h with
  | @fields m f g hfg p q =>
    intro hpq
    have hnames : [f.name, g.name].Nodup := m.names_nodup.sublist (hfg.map Field.name)
    have hname : f.name = g.name := Step.field.inj (List.cons.inj hpq).1
    simp [hname] at hnames
  | inField _ _ ih => exact fun hpq => ih (List.cons.inj hpq).2
  | items hij p q =>
    intro hpq
    exact absurd (Step.item.inj (List.cons.inj hpq).1) (Nat.ne_of_lt hij)
  | inItem _ ih => exact fun hpq => ih (List.cons.inj hpq).2

/-- A place below which others are prescribed conforms. -/
theorem Slot.Leads.conforms {s u : Slot} {outer : List Step} (houter : s.Leads outer u)
    {step : Step} {rest : List Step} {t : Slot} (h : s.Leads (outer ++ step :: rest) t) : u.Conforms := by
  induction houter with
  | here s =>
    cases h with
    | field => exact ⟨_, rfl⟩
    | item => exact ⟨_, rfl⟩
  | @field m entries f path u hf _ ih =>
    generalize hpath : Step.field f.name :: path ++ step :: rest = full at h
    cases h with
    | here => simp at hpath
    | field hg h =>
      obtain ⟨hname, rfl⟩ := List.cons.inj hpath
      obtain rfl := Model.field_ext hf hg (Step.field.inj hname)
      exact ih h
  | @item m values i v path u hv _ ih =>
    generalize hpath : Step.item i :: path ++ step :: rest = full at h
    cases h with
    | here => simp at hpath
    | item hw h =>
      obtain ⟨hindex, rfl⟩ := List.cons.inj hpath
      cases hindex
      cases hv.symm.trans hw
      exact ih h

theorem toString_injective {i j : Nat} (h : toString i = toString j) : i = j := by
  have hdigits : Nat.toDigits 10 i = Nat.toDigits 10 j := by
    have hlists := congrArg String.toList h
    simpa [toString, Nat.repr_eq_ofList_toDigits] using hlists
  rw [← Nat.ofDigitChars_ten_toDigits (n := i), hdigits, Nat.ofDigitChars_ten_toDigits]

/-- Prescribed places with the same steps in writing are the same. -/
theorem Slot.Leads.path_eq {s t u : Slot} {p q : List Step} (hp : s.Leads p t) (hq : s.Leads q u)
    (h : p.map Step.text = q.map Step.text) : p = q := by
  induction hp generalizing q u with
  | here => exact (List.map_eq_nil_iff.mp h.symm).symm
  | @field m entries f path t hf _ ih =>
    cases hq with
    | here => exact List.noConfusion rfl (heq_of_eq h)
    | field hg hq =>
      obtain ⟨hname, hrest⟩ := List.cons.inj h
      obtain rfl := Model.field_ext hf hg hname
      rw [ih hq hrest]
  | @item m values i v path t hv _ ih =>
    cases hq with
    | here => exact List.noConfusion rfl (heq_of_eq h)
    | item hw hq =>
      obtain ⟨hindex, hrest⟩ := List.cons.inj h
      obtain rfl := toString_injective hindex
      cases hv.symm.trans hw
      rw [ih hq hrest]

theorem Model.all_name (m : Model) :
    ∀ f ∈ m.fields, f.name.toList.all (fun c => c.isLower || c == '_') = true := by
  cases m <;> decide

/-- The steps of prescribed paths are written with digits and with the characters of names. -/
theorem Slot.Leads.mem_text {s t : Slot} {path : List Step} (h : s.Leads path t) :
    ∀ step ∈ path, ∀ c ∈ step.text.toList, c.isDigit = true ∨ (c.isLower || c == '_') = true := by
  induction h with
  | here => exact List.forall_mem_nil _
  | @field m _ f _ _ hf _ ih =>
    have hname := List.all_eq_true.mp (m.all_name f hf)
    exact List.forall_mem_cons.mpr ⟨fun c hc => .inr (hname c hc), ih⟩
  | @item m values i v path t _ _ ih =>
    refine List.forall_mem_cons.mpr ⟨?_, ih⟩
    intro c hc
    have hmem : c ∈ Nat.toDigits 10 i := by
      simpa [Step.text, toString, Nat.repr_eq_ofList_toDigits] using hc
    exact .inl (Nat.isDigit_of_mem_toDigits (by decide) (by decide) hmem)

end Paths

/-- A path in writing, its steps joined by points. -/
def dotted (path : List Step) : String :=
  ".".intercalate (path.map Step.text)

theorem splitOn_dotted {s t : Slot} {path : List Step} (h : s.Leads path t) (hne : path ≠ []) :
    (dotted path).toList.splitOn '.' = path.map fun step => step.text.toList := by
  rw [dotted, String.toList_intercalate, List.map_map]
  apply List.splitOn_intercalate
  · intro text htext
    obtain ⟨step, hstep, rfl⟩ := List.mem_map.mp htext
    exact fun hpoint => absurd (h.mem_text step hstep _ hpoint) (by decide)
  · simpa using hne

/-- Different places of a document are written differently. -/
theorem Slot.Leads.path_eq_of_dotted {s t u : Slot} {p q : List Step} (hp : s.Leads p t)
    (hq : s.Leads q u) (hpne : p ≠ []) (hqne : q ≠ []) (h : dotted p = dotted q) : p = q := by
  apply hp.path_eq hq
  have htexts : p.map (fun step => step.text.toList) = q.map fun step => step.text.toList := by
    rw [← splitOn_dotted hp hpne, h, splitOn_dotted hq hqne]
  have hlists : (p.map Step.text).map String.toList = (q.map Step.text).map String.toList := by
    rwa [List.map_map, List.map_map]
  exact List.map_injective_iff.mpr (fun _ _ => String.toList_inj.mp) hlists

/-- A whole document, which should be a job spec. -/
def whole (raw : Value) : Slot :=
  .filled (.model .jobSpec) raw

/-- A path to a place of a document that does not conform, while all places around it do. -/
def IsOutermostFault (raw : Value) (path : List Step) : Prop :=
  (∃ t, (whole raw).Leads path t ∧ ¬ t.Conforms) ∧
    ∀ outer u, outer <+: path → outer ≠ path → (whole raw).Leads outer u → u.Conforms

theorem isOutermostFault_iff {raw : Value} {path : List Step} :
    IsOutermostFault raw path ↔ ∃ t, (whole raw).Leads path t ∧ ¬ t.Conforms := by
  refine ⟨fun h => h.1, fun h => ⟨h, ?_⟩⟩
  rintro outer u ⟨rest, rfl⟩ hne houter
  obtain ⟨t, ht, -⟩ := h
  cases rest with
  | nil => exact absurd (List.append_nil _).symm hne
  | cons step rest => exact houter.conforms ht

/-- The line about a flaw: its place and what is wrong there. -/
def Flaw.line (flaw : Flaw) : String :=
  dotted flaw.path ++ ": " ++ flaw.cause.message

theorem Slot.Leads.oneLine_dotted {s t : Slot} {path : List Step} (h : s.Leads path t) :
    OneLine (dotted path) := by
  apply OneLine.intercalate (by decide)
  intro text htext
  obtain ⟨step, hstep, rfl⟩ := List.mem_map.mp htext
  exact fun hbreak => absurd (h.mem_text step hstep _ hbreak) (by decide)

/-- What is said about a document: a line for each of its outermost faults, in the order of the
schema, under paths that differ in writing. -/
structure Exact (raw : Value) (flaws : List Flaw) : Prop where
  lines : (SpecError.flawed flaws).message.toList.splitOn '\n' =
    flaws.map fun flaw => flaw.line.toList
  mem_paths : ∀ path, path ∈ flaws.map Flaw.path ↔ IsOutermostFault raw path
  ordered : (flaws.map Flaw.path).Pairwise (Before (.model .jobSpec))
  distinct : (flaws.map fun flaw => dotted flaw.path).Nodup

theorem Reports.exact {α : Type} {entries : List (Value × Value)} {c : Checked α}
    (h : Reports c (.model .jobSpec) (whole (.map entries))) (hflawed : c.flaws ≠ []) :
    Exact (.map entries) c.flaws where
  lines := by
    have hmessage : (SpecError.flawed c.flaws).message =
        "\n".intercalate (c.flaws.map Flaw.line) := rfl
    rw [hmessage, String.toList_intercalate, List.map_map]
    apply List.splitOn_intercalate
    · intro line hline
      obtain ⟨flaw, hflaw, rfl⟩ := List.mem_map.mp hline
      obtain ⟨t, ht, -⟩ := (h.mem_paths flaw.path).mp (List.mem_map_of_mem hflaw)
      have hplace : '\n' ∉ (dotted flaw.path).toList := ht.oneLine_dotted
      have hcause : '\n' ∉ flaw.cause.message.toList := h.settled.oneLine flaw hflaw
      simp [Flaw.line, hplace, hcause]
    · simpa using hflawed
  mem_paths path := (h.mem_paths path).trans isOutermostFault_iff.symm
  ordered := h.ordered
  distinct := by
    have hdotted : (c.paths.map dotted).Nodup := by
      apply List.Nodup.map_on
      · intro p hp q hq
        obtain ⟨t, ht, htnot⟩ := (h.mem_paths p).mp hp
        obtain ⟨u, hu, hunot⟩ := (h.mem_paths q).mp hq
        have hne {r : List Step} {v : Slot} (hr : (whole (.map entries)).Leads r v)
            (hnot : ¬ v.Conforms) : r ≠ [] := by
          rintro rfl
          cases hr with
          | here => exact hnot ⟨entries, rfl⟩
        exact ht.path_eq_of_dotted hu (hne ht htnot) (hne hu hunot)
      · exact h.ordered.imp Before.ne
    rwa [Checked.paths, List.map_map] at hdotted

/-- A document with faults at several depths, one of them next to a sibling that is read. -/
def faultyEntries : List (Value × Value) :=
  [(.text "sources", .list [.map [(.text "name", .int 5)], .text "people"]),
    (.text "targets", .list [.map [(.text "type", .text "hyperedge"),
      (.text "mappings", .list [.map [(.text "fragment_type", .text "node")], .int 7]),
      (.text "transform", .map [(.text "limit", .text "1__0")])]]),
    (.text "actions", .map [])]

end GraphImport.Spec
