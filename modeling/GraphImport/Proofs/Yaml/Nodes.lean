import GraphImport.Proofs.Yaml.Lexing
import GraphImport.Yaml.Node

/-!
# The nodes of a shared text

The tokens of a shared JSON text form the tree that its brackets show. Each node takes up no more
fuel than it has tokens.
-/

namespace GraphImport.Json

open Yaml (Node coreTag plainType)

def stringNode (s : List Piece) : Node :=
  .scalar (coreTag "str") { chars := s.map Piece.value }

/-- The node of a word without quotes has the type that its form has. -/
def wordNode (cs : List Char) : Node :=
  .scalar (coreTag (plainType .v11 cs)) { chars := cs }

mutual

def Written.node : Written → Node
  | .null => wordNode "null".toList
  | .bool b => wordNode (if b then "true".toList else "false".toList)
  | .number n => wordNode n.chars
  | .string s => stringNode s
  | .emptyList _ => .sequence (coreTag "seq") []
  | .list _ items => .sequence (coreTag "seq") items.nodes
  | .emptyRecord _ => .mapping (coreTag "map") []
  | .record _ fields => .mapping (coreTag "map") fields.nodes

def Items.nodes : Items → List Node
  | .last item _ => [item.node]
  | .more item _ _ rest => item.node :: rest.nodes

def Fields.nodes : Fields → List (Node × Node)
  | .last name _ _ item _ => [(stringNode name, item.node)]
  | .more name _ _ item _ _ rest => (stringNode name, item.node) :: rest.nodes

end

end GraphImport.Json

namespace GraphImport.Yaml

open Json (Fields Items Piece Written)

namespace Build

section Basics

variable {r s : Reading} {t : Token} {ts : List Token}

/-- A reading goes on where its first step ends. -/
theorem bind_ok {α β : Type} {first : Build α} {f : α → Build β} {a : α}
    (h : first r = .ok (a, s)) : (first >>= f) r = f a s := by
  change (first r >>= fun (a, s) => f a s) = _
  rw [h]
  rfl

theorem discard_ok {α : Type} {first : Build α} {a : α} (h : first r = .ok (a, s)) :
    discard first r = .ok ((), s) := by
  change (first r >>= fun (_, s) => Except.ok ((), s)) = _
  rw [h]
  rfl

theorem peek_cons (h : r.tokens = t :: ts) : peek r = .ok (t, r) := by
  rw [peek, h]

theorem skip_cons (h : r.tokens = t :: ts) : skip r = .ok ((), { r with tokens := ts }) := by
  change Except.ok ((), { r with tokens := r.tokens.drop 1 }) = _
  rw [h]
  rfl

theorem skipIf_eq (h : r.tokens = t :: ts) : skipIf t r = .ok (true, { r with tokens := ts }) := by
  rw [skipIf, bind_ok (peek_cons h), if_pos (beq_self_eq_true t), bind_ok (skip_cons h)]
  rfl

theorem skipIf_ne {other : Token} (h : r.tokens = t :: ts) (hne : t ≠ other) :
    skipIf other r = .ok (false, r) := by
  rw [skipIf, bind_ok (peek_cons h), if_neg (by simpa using hne)]
  rfl

theorem nextIsOneOf_eq (h : r.tokens = t :: ts) (others : List Token) :
    nextIsOneOf others r = .ok (others.contains t, r) := by
  rw [nextIsOneOf, bind_ok (peek_cons h)]
  rfl

/-- Whether a token is no alias and belongs to no properties. -/
def startsContent : Token → Bool
  | .alias _ | .anchor _ | .tag _ _ => false
  | _ => true

theorem anchor?_none (h : r.tokens = t :: ts) (ht : startsContent t = true) :
    anchor? r = .ok (none, r) := by
  rw [anchor?, bind_ok (peek_cons h)]
  cases t <;> first | rfl | exact absurd ht Bool.false_ne_true

theorem tag?_none (h : r.tokens = t :: ts) (ht : startsContent t = true) :
    tag? r = .ok (none, r) := by
  rw [tag?, bind_ok (peek_cons h)]
  cases t <;> first | rfl | exact absurd ht Bool.false_ne_true

theorem properties_none (h : r.tokens = t :: ts) (ht : startsContent t = true) :
    properties r = .ok ((none, none), r) := by
  rw [properties, bind_ok (anchor?_none h ht)]
  simp only
  rw [bind_ok (tag?_none h ht)]
  rfl

end Basics

section Content

variable {r s : Reading} {t : Token} {ts : List Token} (block indentless : Bool) (fuel : Nat)

theorem openAnchor_none (isSequence : Bool) : openAnchor none isSequence r = .ok ((), r) := rfl

theorem finish_none (node : Node) : finish none node r = .ok (node, r) := rfl

theorem scalarTag_none (content : Content) (plain : Bool) (hversion : r.version = .v11) :
    scalarTag none content plain r =
      .ok (coreTag (if plain then plainType .v11 content.chars else "str"), r) := by
  rw [← hversion]
  rfl

theorem node_scalar (content : Content) (plain : Bool) (hversion : r.version = .v11) :
    node block indentless (fuel + 1) { r with tokens := .scalar content plain :: ts } = .ok
      (.scalar (coreTag (if plain then plainType .v11 content.chars else "str")) content,
        { r with tokens := ts }) := by
  rw [node, bind_ok (peek_cons rfl)]
  simp only
  rw [bind_ok (properties_none rfl rfl), bind_ok (peek_cons rfl)]
  simp only
  rw [bind_ok (openAnchor_none false), bind_ok (skip_cons rfl),
    bind_ok (scalarTag_none (r := { r with tokens := ts }) content plain hversion), finish_none]

theorem node_sequence {items : List Node}
    (hitems : flowItems true fuel { r with tokens := ts } = .ok (items, s)) :
    node block indentless (fuel + 1) { r with tokens := .flowSequenceStart :: ts } =
      .ok (.sequence (coreTag "seq") items, s) := by
  rw [node, bind_ok (peek_cons rfl)]
  simp only
  rw [bind_ok (properties_none rfl rfl), bind_ok (peek_cons rfl)]
  simp only
  rw [bind_ok (openAnchor_none true), bind_ok (skip_cons rfl), bind_ok hitems, finish_none]
  rfl

theorem node_mapping {entries : List (Node × Node)}
    (hentries : flowEntries true fuel { r with tokens := ts } = .ok (entries, s)) :
    node block indentless (fuel + 1) { r with tokens := .flowMappingStart :: ts } =
      .ok (.mapping (coreTag "map") entries, s) := by
  rw [node, bind_ok (peek_cons rfl)]
  simp only
  rw [bind_ok (properties_none rfl rfl), bind_ok (peek_cons rfl)]
  simp only
  rw [bind_ok (openAnchor_none false), bind_ok (skip_cons rfl), bind_ok hentries, finish_none]
  rfl

theorem nodeUnless_node {others : List Token} (h : r.tokens = t :: ts)
    (hothers : others.contains t = false) :
    nodeUnless others block indentless (fuel + 1) r = node block indentless fuel r := by
  rw [nodeUnless, bind_ok (nextIsOneOf_eq h others), hothers]
  rfl

/-- The end of a sequence, whether or not an item came before it. -/
theorem flowItems_end (first : Bool) :
    flowItems first (fuel + 1) { r with tokens := .flowSequenceEnd :: ts } =
      .ok ([], { r with tokens := ts }) := by
  rw [flowItems, bind_ok (skipIf_eq rfl)]
  rfl

theorem flowEntries_end (first : Bool) :
    flowEntries first (fuel + 1) { r with tokens := .flowMappingEnd :: ts } =
      .ok ([], { r with tokens := ts }) := by
  rw [flowEntries, bind_ok (skipIf_eq rfl)]
  rfl

/-- Whether tokens start like a value in brackets. -/
def StartsNode (ts : List Token) : Prop :=
  ∃ t ts', ts = t :: ts' ∧
    t ∉ [Token.key, .value, .flowEntry, .flowSequenceEnd, .flowMappingEnd]

/-- After its comma an item is read as a first one. -/
theorem flowItems_comma (hstart : StartsNode ts) :
    flowItems false (fuel + 1) { r with tokens := .flowEntry :: ts } =
      flowItems true (fuel + 1) { r with tokens := ts } := by
  obtain ⟨t, ts, rfl, ht⟩ := hstart
  have hend : t ≠ .flowSequenceEnd := fun h => ht (h ▸ by simp)
  rw [flowItems, flowItems, bind_ok (skipIf_ne rfl Token.noConfusion), bind_ok (skipIf_ne rfl hend)]
  simp only [Bool.false_eq_true, if_false, Bool.not_false, Bool.not_true, if_true]
  rw [bind_ok (skipIf_eq rfl)]
  simp only [Bool.false_eq_true, if_false, Bool.not_true]

theorem flowEntries_comma :
    flowEntries false (fuel + 1) { r with tokens := .flowEntry :: .key :: ts } =
      flowEntries true (fuel + 1) { r with tokens := .key :: ts } := by
  rw [flowEntries, flowEntries, bind_ok (skipIf_ne rfl Token.noConfusion),
    bind_ok (skipIf_ne rfl Token.noConfusion)]
  simp only [Bool.false_eq_true, if_false, Bool.not_false, Bool.not_true, if_true]
  rw [bind_ok (skipIf_eq rfl)]
  simp only [Bool.false_eq_true, if_false, Bool.not_true]

theorem flowItems_item {item : Node} {items : List Node} {u : Reading}
    (hstart : StartsNode r.tokens) (hitem : node false false fuel r = .ok (item, s))
    (hitems : flowItems false fuel s = .ok (items, u)) :
    flowItems true (fuel + 1) r = .ok (item :: items, u) := by
  obtain ⟨t, ts, h, ht⟩ := hstart
  have hend : t ≠ .flowSequenceEnd := fun h => ht (h ▸ by simp)
  have hkey : t ≠ .key := fun h => ht (h ▸ by simp)
  rw [flowItems, bind_ok (skipIf_ne h hend)]
  simp only [Bool.false_eq_true, if_false, Bool.not_true]
  rw [bind_ok (skipIf_ne h hkey)]
  simp only [Bool.false_eq_true, if_false]
  rw [bind_ok (skipIf_ne h hend)]
  simp only [Bool.false_eq_true, if_false]
  rw [bind_ok hitem, bind_ok hitems]
  rfl

/-- An entry whose name is in quotes. -/
theorem flowEntries_entry {content : Content} {item : Node} {entries : List (Node × Node)}
    {u : Reading} (hversion : r.version = .v11) (hstart : StartsNode ts)
    (hitem : node false false (fuel + 1) { r with tokens := ts } = .ok (item, s))
    (hentries : flowEntries false (fuel + 2) s = .ok (entries, u)) :
    flowEntries true (fuel + 3) { r with tokens := .key :: .scalar content false :: .value :: ts } =
      .ok ((.scalar (coreTag "str") content, item) :: entries, u) := by
  have hname : nodeUnless [.value, .flowEntry, .flowMappingEnd] false false (fuel + 2)
      { r with tokens := .scalar content false :: .value :: ts } =
      .ok (.scalar (coreTag "str") content, { r with tokens := .value :: ts }) := by
    rw [nodeUnless_node false false (fuel + 1) rfl rfl]
    exact node_scalar false false fuel content false hversion
  have hvalue : nodeUnless [.flowEntry, .flowMappingEnd] false false (fuel + 2)
      { r with tokens := ts } = .ok (item, s) := by
    obtain ⟨t, ts, rfl, ht⟩ := hstart
    have hothers : [Token.flowEntry, .flowMappingEnd].contains t = false := by
      simp only [List.mem_cons, not_or] at ht
      simp [ht]
    rw [nodeUnless_node false false (fuel + 1) rfl hothers, hitem]
  rw [flowEntries, bind_ok (skipIf_ne rfl Token.noConfusion)]
  simp only [Bool.false_eq_true, if_false, Bool.not_true]
  rw [bind_ok (skipIf_eq rfl)]
  simp only [if_true]
  rw [bind_ok hname, bind_ok (skipIf_eq rfl)]
  simp only [if_true]
  rw [bind_ok hvalue, bind_ok hentries]
  rfl

end Content

theorem startsNode_written (w : Written) (rest : List Token) : StartsNode (w.tokens ++ rest) := by
  cases w <;> exact ⟨_, _, rfl, by simp [Json.wordToken, Json.stringToken]⟩

theorem startsNode_items (items : Items) (rest : List Token) :
    StartsNode (items.tokens ++ rest) := by
  cases items with
  | last item => exact startsNode_written item rest
  | more item =>
    rw [Items.tokens, List.append_assoc]
    exact startsNode_written item _

theorem length_tokens_pos (w : Written) : 0 < w.tokens.length := by
  cases w <;> exact Nat.succ_pos _

theorem fields_tokens_eq_cons (fields : Fields) : ∃ ts, fields.tokens = .key :: ts := by
  cases fields <;> exact ⟨_, rfl⟩

mutual

/-- A value is built from its own tokens. -/
theorem node_written (w : Written) (block indentless : Bool) (rest : List Token) {r : Reading}
    {fuel : Nat} (hversion : r.version = .v11) (hfuel : w.tokens.length ≤ fuel) :
    node block indentless fuel { r with tokens := w.tokens ++ rest } =
      .ok (w.node, { r with tokens := rest }) := by
  have hpos := length_tokens_pos w
  obtain ⟨fuel, rfl⟩ : ∃ n, fuel = n + 1 := ⟨fuel - 1, by omega⟩
  match w with
  | .null | .bool _ | .number _ | .string _ =>
    exact node_scalar block indentless fuel _ _ hversion
  | .emptyList _ =>
    obtain ⟨fuel, rfl⟩ : ∃ n, fuel = n + 1 := ⟨fuel - 1, by simp [Written.tokens] at hfuel; omega⟩
    exact node_sequence block indentless (fuel + 1) (flowItems_end fuel true)
  | .list _ items =>
    rw [Written.tokens, List.length_append, List.length_cons, List.length_singleton] at hfuel
    rw [Written.tokens, List.append_assoc]
    exact node_sequence block indentless fuel (items_written items rest hversion (by omega))
  | .emptyRecord _ =>
    obtain ⟨fuel, rfl⟩ : ∃ n, fuel = n + 1 := ⟨fuel - 1, by simp [Written.tokens] at hfuel; omega⟩
    exact node_mapping block indentless (fuel + 1) (flowEntries_end fuel true)
  | .record _ fields =>
    rw [Written.tokens, List.length_append, List.length_cons, List.length_singleton] at hfuel
    rw [Written.tokens, List.append_assoc]
    exact node_mapping block indentless fuel (fields_written fields rest hversion (by omega))

theorem items_written (items : Items) (rest : List Token) {r : Reading} {fuel : Nat}
    (hversion : r.version = .v11) (hfuel : items.tokens.length + 1 ≤ fuel) :
    flowItems true fuel { r with tokens := items.tokens ++ .flowSequenceEnd :: rest } =
      .ok (items.nodes, { r with tokens := rest }) := by
  match items with
  | .last item _ =>
    have hpos := length_tokens_pos item
    rw [Items.tokens] at hfuel ⊢
    obtain ⟨fuel, rfl⟩ : ∃ n, fuel = n + 2 := ⟨fuel - 2, by omega⟩
    exact flowItems_item (fuel + 1) (startsNode_written item _)
      (node_written item false false _ hversion (by omega)) (flowItems_end fuel false)
  | .more item _ _ others =>
    have hpos := length_tokens_pos item
    rw [Items.tokens, List.length_append, List.length_cons] at hfuel
    rw [Items.tokens, List.append_assoc, List.cons_append]
    obtain ⟨fuel, rfl⟩ : ∃ n, fuel = n + 2 := ⟨fuel - 2, by omega⟩
    have hothers := (flowItems_comma fuel (startsNode_items others _)).trans
      (items_written (r := r) others rest hversion (by omega))
    exact flowItems_item (fuel + 1) (startsNode_written item _)
      (node_written item false false _ hversion (by omega)) hothers

theorem fields_written (fields : Fields) (rest : List Token) {r : Reading} {fuel : Nat}
    (hversion : r.version = .v11) (hfuel : fields.tokens.length + 1 ≤ fuel) :
    flowEntries true fuel { r with tokens := fields.tokens ++ .flowMappingEnd :: rest } =
      .ok (fields.nodes, { r with tokens := rest }) := by
  match fields with
  | .last name _ _ item _ =>
    rw [Fields.tokens] at hfuel ⊢
    simp only [List.length_cons] at hfuel
    obtain ⟨fuel, rfl⟩ : ∃ n, fuel = n + 3 := ⟨fuel - 3, by omega⟩
    exact flowEntries_entry fuel hversion (startsNode_written item _)
      (node_written item false false _ hversion (by omega)) (flowEntries_end (fuel + 1) false)
  | .more name _ _ item _ _ others =>
    rw [Fields.tokens] at hfuel ⊢
    simp only [List.length_cons, List.length_append] at hfuel
    obtain ⟨fuel, rfl⟩ : ∃ n, fuel = n + 3 := ⟨fuel - 3, by omega⟩
    have hothers := fields_written (r := r) others rest hversion
      (by omega : others.tokens.length + 1 ≤ fuel + 2)
    obtain ⟨ts, hts⟩ := fields_tokens_eq_cons others
    rw [hts, List.cons_append, ← flowEntries_comma, ← List.cons_append, ← hts] at hothers
    rw [List.append_assoc]
    exact flowEntries_entry fuel hversion (startsNode_written item _)
      (node_written item false false _ hversion (by omega)) hothers

end

section Root

variable {r : Reading}

theorem documentStart_end {fuel : Nat} (h : r.tokens = [.streamEnd]) :
    documentStart fuel r = .ok (false, r) := by
  have hends : skipDocumentEnds fuel r = .ok ((), r) := by
    cases fuel with
    | zero => rfl
    | succ fuel =>
      rw [skipDocumentEnds, bind_ok (skipIf_ne h Token.noConfusion)]
      rfl
  rw [documentStart, bind_ok hends, bind_ok (peek_cons h), if_pos (beq_self_eq_true _)]
  rfl

theorem root?_written (w : Written) {fuel : Nat} (hversion : r.version = .v11)
    (hfuel : w.tokens.length ≤ fuel) (h : r.tokens = w.tokens ++ [.streamEnd]) :
    root? fuel r =
      .ok (some w.node, { r with tokens := [.streamEnd], handles := defaultHandles }) := by
  have hnode := node_written (r := { r with handles := defaultHandles }) w true false
    [.streamEnd] hversion hfuel
  obtain ⟨t, ts, htokens, hcontent⟩ : ∃ t ts, w.tokens ++ [.streamEnd] = t :: ts ∧
      (isDirective t || t == .documentStart || t == .streamEnd) = false := by
    cases w <;> exact ⟨_, _, rfl, rfl⟩
  rw [root?, bind_ok (peek_cons (h.trans htokens)), if_neg (by simp [hcontent])]
  rw [bind_ok (a := ()) (s := { r with handles := defaultHandles }) rfl]
  rw [← h] at hnode
  rw [bind_ok hnode]
  rfl

theorem onlyRoot?_written (w : Written) {fuel : Nat} (hversion : r.version = .v11)
    (hfuel : w.tokens.length ≤ fuel) (h : r.tokens = .streamStart :: (w.tokens ++ [.streamEnd])) :
    onlyRoot? fuel r =
      .ok (some w.node, { r with tokens := [.streamEnd], handles := defaultHandles }) := by
  have hroot := root?_written (r := { r with tokens := w.tokens ++ [.streamEnd] }) w hversion
    hfuel rfl
  rw [onlyRoot?, bind_ok (discard_ok (skipIf_eq h)), bind_ok hroot]
  simp only
  rw [bind_ok (discard_ok (skipIf_ne rfl Token.noConfusion)), bind_ok (documentStart_end rfl)]
  rfl

end Root

end Build

/-- The tokens of a value hold one document, whose root is its node. -/
theorem ofTokens?_written (w : Written) :
    Node.ofTokens? .v11 { tokens := Token.streamStart :: w.tokens ++ [Token.streamEnd] } =
      .ok (some w.node) := by
  have hlength : w.tokens.length ≤
      3 * (Token.streamStart :: w.tokens ++ [Token.streamEnd]).length + 8 := by
    simp only [List.length_append, List.length_cons]
    omega
  rw [Node.ofTokens?, StateT.run', Build.onlyRoot?_written w rfl hlength rfl]
  rfl

end GraphImport.Yaml
