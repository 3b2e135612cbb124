import GraphImport.Proofs.Yaml.Nodes
import GraphImport.Proofs.Yaml.Numerals
import GraphImport.Yaml.Reader

/-!
# The value of a shared text

The nodes of a shared text mean what its JSON means, and so it is read as that value.
-/

namespace GraphImport.Yaml

open Document (Value)
open Json (Fields Items Numeral Page Piece Written stringNode stringOf wordNode)

theorem coreName?_coreTag (type : String) : coreName? (coreTag type) = some type := by
  have hprefix : coreTag type = coreTag "" ++ type :=
    congrArg (· ++ type) (String.append_empty.symm : "tag:yaml.org,2002:" = coreTag "")
  rw [coreName?, hprefix, if_pos (Text.isPrefixOf_append _ _), String.toList_append,
    ← String.length_toList, List.drop_left, String.ofList_toList]

theorem coreTag_inj {type other : String} : coreTag type = coreTag other ↔ type = other :=
  String.append_right_inj _

theorem plainType_words : plainType .v11 "null".toList = "null" ∧
    ∀ b : Bool, plainType .v11 (if b then "true".toList else "false".toList) = "bool" := by
  have hnull : "null".toList = ['n', 'u', 'l', 'l'] := String.toList_ofList
  have htrue : "true".toList = ['t', 'r', 'u', 'e'] := String.toList_ofList
  have hfalse : "false".toList = ['f', 'a', 'l', 's', 'e'] := String.toList_ofList
  rw [hnull, htrue, hfalse]
  decide +kernel

/-- What makes up a value is known once every part of it is. -/
theorem Found.all_known {α : Type} (vs : List α) :
    Found.all (vs.map fun v => { value := v }) = { value := vs } := by
  induction vs with
  | nil => rfl
  | cons v vs ih =>
    rw [List.map_cons, Found.all, ih]
    rfl

namespace Node

/-- A scalar of a type of text has the value that its text has. -/
theorem value_scalar {version : Version} {type : String} {content : Content} {v : Value}
    (htype : type ∈ textTypes) (hvalue : scalarValue? version type content = some (.ok v)) :
    (Node.scalar (coreTag type) content).value version = { value := v } := by
  have hcore := coreName?_coreTag type
  have hother : otherValue version (.scalar (coreTag type) content) = { value := v } := by
    have hcontains : textTypes.contains type = true := List.contains_iff_mem.mpr htype
    simp only [otherValue, Node.tag, hcore, hcontains, if_true]
    rw [textValue]
    simp only [content?, hvalue]
    rfl
  rw [Node.value, hcore]
  simp only [textTypes, List.mem_cons, List.not_mem_nil, or_false] at htype
  rcases htype with rfl | rfl | rfl | rfl | rfl | rfl | rfl <;> exact hother

theorem value_stringNode (s : List Piece) :
    (stringNode s).value .v11 = { value := .text (stringOf s) } :=
  value_scalar (by decide) rfl

theorem value_null : (wordNode "null".toList).value .v11 = { value := .null } := by
  rw [wordNode, plainType_words.1]
  exact value_scalar (by decide) rfl

theorem value_bool (b : Bool) :
    (wordNode (if b then "true".toList else "false".toList)).value .v11 = { value := .bool b } := by
  rw [wordNode, plainType_words.2]
  refine value_scalar (by decide) ?_
  cases b <;> rfl

theorem value_number (n : Numeral) (hn : n.IsShared) :
    (wordNode n.chars).value .v11 = { value := n.value } := by
  by_cases hplaces : n.places = []
  · obtain ⟨hexponent, hlength⟩ := hn.integer hplaces
    have htype : plainType .v11 n.chars = "int" := by
      simp [plainType, not_flag, isFloat_chars n hn, hplaces, isInteger_chars n hplaces hexponent]
    rw [wordNode, htype]
    exact value_scalar (by decide) (congrArg some (integerValue_chars n hplaces hexponent hlength))
  · have htype : plainType .v11 n.chars = "float" := by
      simp [plainType, not_flag, isFloat_chars n hn, hplaces]
    rw [wordNode, htype]
    exact value_scalar (by decide) (congrArg some (floatValue_chars n hplaces))

theorem value_list {items : List Node} {vs : List Value}
    (h : values .v11 items = vs.map fun v => { value := v }) :
    (Node.sequence (coreTag "seq") items).value .v11 = { value := .list vs } := by
  rw [Node.value, coreName?_coreTag]
  simp only [h, Found.all_known]
  rfl

theorem value_record {entries : List (Node × Node)} {known : List (Value × Value)}
    (h : entriesOf .v11 entries = .ok ([], known.map fun entry => { value := entry })) :
    (Node.mapping (coreTag "map") entries).value .v11 =
      { value := .map (Value.ofEntries known) } := by
  rw [Node.value, coreName?_coreTag]
  simp only [h, ofMerged, List.nil_append, Found.all_known]
  rfl

/-- A quoted name is a key like any other, and merges nothing. -/
theorem entriesOf_cons {name : List Piece} {item : Node} {rest : List (Node × Node)} {v : Value}
    {known : List (Value × Value)} (hitem : item.value .v11 = { value := v })
    (hrest : entriesOf .v11 rest = .ok ([], known.map fun entry => { value := entry })) :
    entriesOf .v11 ((stringNode name, item) :: rest) =
      .ok ([], ((.text (stringOf name), v) :: known).map fun entry => { value := entry }) := by
  have htag : ∀ type ∈ ["merge", "value", "seq", "map", "set", "omap", "pairs"],
      (stringNode name).hasCoreTag type = false := by
    intro type htype
    rw [hasCoreTag, beq_eq_false_iff_ne]
    change coreTag "str" ≠ coreTag type
    rw [Ne, coreTag_inj]
    rintro rfl
    exact absurd htype (by decide)
  simp only [List.forall_mem_cons] at htag
  obtain ⟨hmerge, hvalue, hseq, hmap, hset, homap, hpairs, -⟩ := htag
  have hcollection : (stringNode name).isCollection = false := by
    change ["seq", "map", "set", "omap", "pairs"].any (stringNode name).hasCoreTag = false
    simp [hseq, hmap, hset, homap, hpairs]
  have hkey : ∀ found, asKey .v11 (stringNode name) found = found := by
    intro found
    rw [asKey, if_neg (by simp [hvalue]), if_neg (by simp [hcollection])]
  rw [entriesOf, hmerge, hrest, hkey, value_stringNode, hitem]
  rfl

mutual

theorem value_written (w : Written) (hw : w.IsShared) :
    w.node.value .v11 = { value := w.value } := by
  match w with
  | .null => exact value_null
  | .bool b => exact value_bool b
  | .number n => exact value_number n hw
  | .string s => exact value_stringNode s
  | .emptyList _ => exact @value_list [] [] rfl
  | .list _ items => exact value_list (values_written items hw.2)
  | .emptyRecord _ => exact @value_record [] [] rfl
  | .record _ fields => exact value_record (entriesOf_written fields hw.2)

theorem values_written (items : Items) (hitems : items.IsShared) :
    values .v11 items.nodes = items.values.map fun v => { value := v } := by
  match items with
  | .last item _ =>
    rw [Items.nodes, values, value_written item hitems.1]
    rfl
  | .more item _ _ rest =>
    rw [Items.nodes, values, value_written item hitems.1, values_written rest hitems.2.2.2]
    rfl

theorem entriesOf_written (fields : Fields) (hfields : fields.IsShared) :
    entriesOf .v11 fields.nodes = .ok ([], fields.entries.map fun entry => { value := entry }) := by
  match fields with
  | .last name _ _ item _ =>
    exact @entriesOf_cons name item.node [] _ [] (value_written item hfields.2.2.1) rfl
  | .more name _ _ item _ _ rest =>
    obtain ⟨-, -, hitem, -, -, hrest⟩ := hfields
    exact entriesOf_cons (value_written item hitem) (entriesOf_written rest hrest)

end

end Node

section Characters

open Json (Gap quotedChars)

/-- Whether a text holds no character that YAML forbids. -/
def AllAllowed (cs : List Char) : Prop :=
  ∀ c ∈ cs, isAllowed c = true

instance (cs : List Char) : Decidable (AllAllowed cs) :=
  decidable_of_iff (cs.all isAllowed = true) List.all_eq_true

theorem allAllowed_append {a b : List Char} :
    AllAllowed (a ++ b) ↔ AllAllowed a ∧ AllAllowed b :=
  List.forall_mem_append

theorem allAllowed_cons {c : Char} {cs : List Char} :
    AllAllowed (c :: cs) ↔ isAllowed c = true ∧ AllAllowed cs :=
  List.forall_mem_cons

theorem allAllowed_gap (gap : Gap) : AllAllowed gap.chars := by
  intro c hc
  have hblank := gap.blank c hc
  simp only [Json.isBlank, Bool.or_eq_true, beq_iff_eq] at hblank
  rcases hblank with ((rfl | rfl) | rfl) | rfl <;> decide

theorem allAllowed_piece (p : Piece) (hp : p.IsShared) : AllAllowed p.chars := by
  intro c hc
  rcases p.mem_chars hc with ⟨h, rfl⟩ | ⟨hmin, hmax⟩
  · exact hp.1
  · simp [isAllowed, hmin, hmax]

theorem allAllowed_quotedChars {s : List Piece} (hs : ∀ p ∈ s, p.IsShared) :
    AllAllowed (quotedChars s) := by
  rw [quotedChars, List.cons_append, allAllowed_cons, allAllowed_append]
  refine ⟨by decide, fun c hc => ?_, by decide⟩
  obtain ⟨p, hp, hc⟩ := List.mem_flatMap.mp hc
  exact allAllowed_piece p (hs p hp) c hc

theorem allAllowed_number (n : Numeral) : AllAllowed n.chars := by
  have hletters : ∀ c ∈ "0123456789-+.eE".toList, isAllowed c = true :=
    Text.forall_mem_of_all (by decide)
  exact fun c hc => hletters c (n.mem_chars c hc)

mutual

theorem allAllowed_written (w : Written) (hw : w.IsShared) : AllAllowed w.chars := by
  match w with
  | .null => decide
  | .bool b => cases b <;> decide
  | .number n => exact allAllowed_number n
  | .string s => exact allAllowed_quotedChars hw
  | .emptyList gap | .emptyRecord gap =>
    simp only [Written.chars, List.cons_append, allAllowed_cons, allAllowed_append]
    exact ⟨by decide, allAllowed_gap gap, by decide⟩
  | .list before items =>
    simp only [Written.chars, List.cons_append, allAllowed_cons, allAllowed_append]
    exact ⟨by decide, ⟨allAllowed_gap before, allAllowed_items items hw.2⟩, by decide⟩
  | .record before fields =>
    simp only [Written.chars, List.cons_append, allAllowed_cons, allAllowed_append]
    exact ⟨by decide, ⟨allAllowed_gap before, allAllowed_fields fields hw.2⟩, by decide⟩

theorem allAllowed_items (items : Items) (hitems : items.IsShared) : AllAllowed items.chars := by
  match items with
  | .last item after =>
    rw [Items.chars, allAllowed_append]
    exact ⟨allAllowed_written item hitems.1, allAllowed_gap after⟩
  | .more item after before rest =>
    simp only [Items.chars, List.append_assoc, List.cons_append, allAllowed_cons, allAllowed_append]
    exact ⟨allAllowed_written item hitems.1, allAllowed_gap after, by decide,
      allAllowed_gap before, allAllowed_items rest hitems.2.2.2⟩

theorem allAllowed_fields (fields : Fields) (hfields : fields.IsShared) :
    AllAllowed fields.chars := by
  match fields with
  | .last name colon before item after =>
    obtain ⟨hname, -, hitem, -⟩ := hfields
    simp only [Fields.chars, List.append_assoc, List.cons_append, allAllowed_cons,
      allAllowed_append]
    exact ⟨allAllowed_quotedChars hname.pieces, allAllowed_gap colon, by decide,
      allAllowed_gap before, allAllowed_written item hitem, allAllowed_gap after⟩
  | .more name colon before item after next rest =>
    obtain ⟨hname, -, hitem, -, -, hrest⟩ := hfields
    simp only [Fields.chars, List.append_assoc, List.cons_append, allAllowed_cons,
      allAllowed_append]
    exact ⟨allAllowed_quotedChars hname.pieces, allAllowed_gap colon, by decide,
      allAllowed_gap before, allAllowed_written item hitem, allAllowed_gap after, by decide,
      allAllowed_gap next, allAllowed_fields rest hrest⟩

end

end Characters

/-- A shared text is read as the value of its JSON. -/
theorem read_page (p : Page) (hp : p.IsShared) : read .v11 p.chars = .ok p.root.value := by
  have hallowed : AllAllowed p.chars := by
    rw [Page.chars, allAllowed_append, allAllowed_append]
    exact ⟨⟨allAllowed_gap p.before, allAllowed_written p.root hp.root⟩, allAllowed_gap p.after⟩
  have hforbidden : forbidden? p.chars = none := by
    rw [forbidden?, List.findIdx?_eq_none_iff.mpr fun c hc => by simp [hallowed c hc]]
    rfl
  rw [read, hforbidden]
  simp only [tokensOf_page p hp, ofTokens?_written]
  change (p.root.node.value .v11).toExcept = _
  rw [Node.value_written p.root hp.root]
  rfl

end GraphImport.Yaml
