import GraphImport.Proofs.Json.Numbers
import GraphImport.Proofs.Json.Strings

/-!
# Reading JSON

Every text of the grammar is read, as the value that is meant. Each value takes up no more fuel
than it has characters.
-/

namespace GraphImport.Json

open Document (Value)
open Text (Cursor)

/-- The characters with which values start. -/
def starts : List Char :=
  "0123456789-ntf\x22[\x7b".toList

/-- Whether a text starts like a value. -/
def StartsValue (cs : List Char) : Prop :=
  ∃ c more, cs = c :: more ∧ c ∈ starts

theorem StartsValue.append {cs : List Char} (h : StartsValue cs) (rest : List Char) :
    StartsValue (cs ++ rest) := by
  obtain ⟨c, more, rfl, hstarts⟩ := h
  exact ⟨c, more ++ rest, rfl, hstarts⟩

theorem StartsValue.not_blank {cs : List Char} (h : StartsValue cs) :
    ∀ c ∈ cs.head?, isBlank c = false := by
  have hstarts : ∀ c ∈ starts, isBlank c = false := Text.forall_mem_of_all (by decide)
  obtain ⟨d, more, rfl, hd⟩ := h
  exact fun c hc => Option.some.inj hc ▸ hstarts d hd

theorem Written.startsValue (w : Written) : StartsValue w.chars := by
  cases w with
  | null => exact ⟨'n', _, rfl, by decide⟩
  | bool b =>
    cases b with
    | true => exact ⟨'t', _, rfl, by decide⟩
    | false => exact ⟨'f', _, rfl, by decide⟩
  | number n =>
    have hstarts : ∀ c ∈ '-' :: "0123456789".toList, c ∈ starts :=
      Text.forall_mem_of_all (by decide)
    obtain ⟨c, more, hchars, hc⟩ := n.chars_eq_cons
    exact ⟨c, more, hchars, hstarts c hc⟩
  | string s => exact ⟨'\x22', _, rfl, by decide⟩
  | emptyList gap => exact ⟨'[', _, rfl, by decide⟩
  | list before items => exact ⟨'[', _, rfl, by decide⟩
  | emptyRecord gap => exact ⟨'\x7b', _, rfl, by decide⟩
  | record before fields => exact ⟨'\x7b', _, rfl, by decide⟩

section Atoms

variable (fuel : Nat) (rest : List Char) (index : Nat)

theorem value_null : ∃ next,
    value (fuel + 1) ⟨Written.null.chars ++ rest, index⟩ = .ok (.null, ⟨rest, next⟩) :=
  ⟨index + 4, rfl⟩

theorem value_bool (b : Bool) : ∃ next,
    value (fuel + 1) ⟨(Written.bool b).chars ++ rest, index⟩ = .ok (.bool b, ⟨rest, next⟩) := by
  cases b with
  | true => exact ⟨index + 4, rfl⟩
  | false => exact ⟨index + 5, rfl⟩

theorem value_string (s : List Piece) : ∃ next,
    value (fuel + 1) ⟨quotedChars s ++ rest, index⟩ =
      .ok (.text (stringOf s), ⟨rest, next⟩) := by
  obtain ⟨next, hread⟩ := string_quotedChars s rest index
  exact ⟨next, hread⟩

/-- No constant starts like a number. -/
theorem findSome?_constants (n : Numeral) :
    (constants.findSome? fun (name, value) =>
      (Cursor.after? ⟨n.chars ++ rest, index⟩ name.toList).map fun next =>
        (value, next)) = none := by
  obtain ⟨d, more, hchars, hdigit⟩ := n.unsignedChars_eq_cons
  have hletters : ∀ c ∈ ['n', 't', 'f', 'N', 'I', '-'], c.isDigit = false :=
    Text.forall_mem_of_all (by decide)
  have hletter : ∀ c ∈ ['n', 't', 'f', 'N', 'I', '-'], c ≠ d := by
    rintro c hc rfl
    exact absurd hdigit (by rw [hletters c hc]; exact Bool.false_ne_true)
  simp only [List.forall_mem_cons] at hletter
  obtain ⟨hn, ht, hf, hN, hI, hminus, -⟩ := hletter
  unfold Numeral.chars
  split
  · simp [constants, Cursor.after?, hchars, hI]
  · simp [constants, Cursor.after?, hchars, hn, ht, hf, hN, hI, hminus]

theorem value_of_number {c : Char} (h : c ∈ '-' :: "0123456789".toList) :
    value (fuel + 1) ⟨c :: rest, index⟩ = atom ⟨c :: rest, index⟩ := by
  have hopens : ∀ c ∈ '-' :: "0123456789".toList, c ≠ '\x22' ∧ c ≠ '[' ∧ c ≠ '\x7b' :=
    Text.forall_mem_of_all (by decide)
  obtain ⟨hquote, hbracket, hbrace⟩ := hopens c h
  simp [value, Cursor.peek?, hquote, hbracket, hbrace]

theorem value_number (n : Numeral) (hends : Ends rest) : ∃ next,
    value (fuel + 1) ⟨n.chars ++ rest, index⟩ = .ok (n.value, ⟨rest, next⟩) := by
  obtain ⟨next, hread⟩ := number?_chars n hends index
  obtain ⟨c, more, hchars, hc⟩ := n.chars_eq_cons
  have hnone := findSome?_constants rest index n
  refine ⟨next, ?_⟩
  rw [hchars] at hread hnone ⊢
  rw [List.cons_append, value_of_number _ _ _ hc, atom]
  rw [List.cons_append] at hread hnone
  rw [hnone, hread]
  rfl

end Atoms

section Steps

variable {fuel : Nat} {c : Cursor} {v : Value} {rest more : List Char} {index : Nat}

theorem skipBlanks_stop (after : Gap) (index : Nat) {stop : Char} (hstop : isBlank stop = false) :
    skipBlanks ⟨after.chars ++ stop :: rest, index⟩ =
      ⟨stop :: rest, index + after.chars.length⟩ :=
  skipBlanks_gap after index fun _ h => Option.some.inj h ▸ hstop

theorem items_close (known : List Value) (after : Gap)
    (h : value fuel c = .ok (v, ⟨after.chars ++ ']' :: rest, index⟩)) : ∃ next,
    items (fuel + 1) known c = .ok (.list (v :: known).reverse, ⟨rest, next⟩) := by
  refine ⟨index + after.chars.length + 1, ?_⟩
  rw [items, h]
  simp only [bind, Except.bind, skipBlanks_stop after index (by decide : isBlank ']' = false)]
  rfl

theorem items_comma (known : List Value) (after before : Gap)
    (hmore : ∀ c ∈ more.head?, isBlank c = false)
    (h : value fuel c = .ok (v, ⟨after.chars ++ ',' :: (before.chars ++ more), index⟩)) : ∃ next,
    items (fuel + 1) known c = items fuel (v :: known) ⟨more, next⟩ := by
  refine ⟨index + after.chars.length + 1 + before.chars.length, ?_⟩
  have hskip : skipBlanks (Cursor.skip
      ⟨',' :: (before.chars ++ more), index + after.chars.length⟩ 1) = ⟨more, _⟩ :=
    skipBlanks_gap before (index + after.chars.length + 1) hmore
  rw [items, h]
  simp only [bind, Except.bind, skipBlanks_stop after index (by decide : isBlank ',' = false),
    hskip]
  rfl

variable (index)

/-- A field is read up to the blanks after its value. -/
theorem fields_item (known : List (Value × Value)) (name : List Piece) (colon before : Gap)
    (hmore : ∀ c ∈ more.head?, isBlank c = false)
    (h : ∀ index, ∃ next, value fuel ⟨more, index⟩ = .ok (v, ⟨rest, next⟩)) : ∃ next,
    fields (fuel + 1) known
        ⟨quotedChars name ++ (colon.chars ++ ':' :: (before.chars ++ more)), index⟩ =
      match (skipBlanks ⟨rest, next⟩).peek? with
      | some '\x7d' => .ok (.map (Value.put known (.text (stringOf name)) v),
          (skipBlanks ⟨rest, next⟩).skip 1)
      | some ',' => fields fuel (Value.put known (.text (stringOf name)) v)
          (skipBlanks ((skipBlanks ⟨rest, next⟩).skip 1))
      | _ => .error ⟨.commaExpected, (skipBlanks ⟨rest, next⟩).index⟩ := by
  obtain ⟨a, hname⟩ :=
    string_quotedChars name (colon.chars ++ ':' :: (before.chars ++ more)) index
  have hcolon : skipBlanks ⟨colon.chars ++ ':' :: (before.chars ++ more), a⟩ =
      ⟨':' :: (before.chars ++ more), _⟩ := skipBlanks_stop colon a (by decide)
  have hbefore : skipBlanks (Cursor.skip
      ⟨':' :: (before.chars ++ more), a + colon.chars.length⟩ 1) = ⟨more, _⟩ :=
    skipBlanks_gap before (a + colon.chars.length + 1) hmore
  obtain ⟨next, hvalue⟩ := h (a + colon.chars.length + 1 + before.chars.length)
  have hquote (rest : List Char) :
      (Cursor.peek? ⟨quotedChars name ++ rest, index⟩ != some '\x22') = false := rfl
  refine ⟨next, ?_⟩
  rw [fields, hname]
  simp only [bind, Except.bind, hquote, hcolon, hbefore, hvalue]
  rfl

theorem fields_close (known : List (Value × Value)) (name : List Piece) (colon before after : Gap)
    (hmore : ∀ c ∈ more.head?, isBlank c = false)
    (h : ∀ index, ∃ next,
      value fuel ⟨more, index⟩ = .ok (v, ⟨after.chars ++ '\x7d' :: rest, next⟩)) : ∃ next,
    fields (fuel + 1) known
        ⟨quotedChars name ++ (colon.chars ++ ':' :: (before.chars ++ more)), index⟩ =
      .ok (.map (Value.put known (.text (stringOf name)) v), ⟨rest, next⟩) := by
  obtain ⟨next, hfield⟩ := fields_item index known name colon before hmore h
  rw [skipBlanks_stop after next (by decide)] at hfield
  exact ⟨_, hfield⟩

theorem fields_comma (known : List (Value × Value)) (name : List Piece)
    (colon before after last : Gap) {others : List Char}
    (hmore : ∀ c ∈ more.head?, isBlank c = false) (hothers : ∀ c ∈ others.head?, isBlank c = false)
    (h : ∀ index, ∃ next, value fuel ⟨more, index⟩ =
      .ok (v, ⟨after.chars ++ ',' :: (last.chars ++ others), next⟩)) : ∃ next,
    fields (fuel + 1) known
        ⟨quotedChars name ++ (colon.chars ++ ':' :: (before.chars ++ more)), index⟩ =
      fields fuel (Value.put known (.text (stringOf name)) v) ⟨others, next⟩ := by
  obtain ⟨next, hfield⟩ := fields_item index known name colon before hmore h
  rw [skipBlanks_stop after next (by decide)] at hfield
  have hskip : skipBlanks (Cursor.skip
      ⟨',' :: (last.chars ++ others), next + after.chars.length⟩ 1) = ⟨others, _⟩ :=
    skipBlanks_gap last (next + after.chars.length + 1) hothers
  exact ⟨_, hfield.trans (congrArg (fields fuel _) hskip)⟩

end Steps

theorem Items.startsValue (items : Items) (rest : List Char) :
    StartsValue (items.chars ++ rest) := by
  cases items with
  | last item after => exact (item.startsValue.append _).append rest
  | more item after before others =>
    rw [Items.chars, List.append_assoc item.chars]
    exact ((item.startsValue.append _).append _).append rest

theorem Fields.startsValue (fields : Fields) (rest : List Char) :
    StartsValue (fields.chars ++ rest) := by
  have hquote : '\x22' ∈ starts := by decide
  cases fields with
  | last => exact ⟨'\x22', _, rfl, hquote⟩
  | more => exact ⟨'\x22', _, rfl, hquote⟩

theorem follows_comma : follows ',' = true := rfl

theorem follows_bracket : follows ']' = true := rfl

theorem follows_brace : follows '\x7d' = true := rfl

theorem ends_gap (gap : Gap) {stop : Char} (hstop : follows stop = true) (rest : List Char) :
    Ends (gap.chars ++ stop :: rest) := by
  obtain ⟨chars, hblank⟩ := gap
  cases chars with
  | nil => exact fun c hc => Option.some.inj hc ▸ hstop
  | cons d ds =>
    intro c hc
    rw [← Option.some.inj hc, follows, hblank d List.mem_cons_self]
    rfl

section Brackets

theorem peek?_cons (c : Char) (rest : List Char) (index : Nat) :
    Cursor.peek? ⟨c :: rest, index⟩ = some c := rfl

variable {fuel : Nat} {rest : List Char} {index : Nat}

theorem value_emptyList (gap : Gap) : ∃ next,
    value (fuel + 1) ⟨(Written.emptyList gap).chars ++ rest, index⟩ =
      .ok (.list [], ⟨rest, next⟩) := by
  have htext : (Written.emptyList gap).chars ++ rest = '[' :: (gap.chars ++ ']' :: rest) := by
    simp [Written.chars]
  have hskip : skipBlanks (Cursor.skip ⟨'[' :: (gap.chars ++ ']' :: rest), index⟩ 1) =
      ⟨']' :: rest, _⟩ := skipBlanks_stop gap (index + 1) (by decide)
  refine ⟨index + 1 + gap.chars.length + 1, ?_⟩
  rw [htext]
  simp only [value, hskip]
  rfl

theorem value_emptyRecord (gap : Gap) : ∃ next,
    value (fuel + 1) ⟨(Written.emptyRecord gap).chars ++ rest, index⟩ =
      .ok (.map [], ⟨rest, next⟩) := by
  have htext : (Written.emptyRecord gap).chars ++ rest =
      '\x7b' :: (gap.chars ++ '\x7d' :: rest) := by
    simp [Written.chars]
  have hskip : skipBlanks (Cursor.skip ⟨'\x7b' :: (gap.chars ++ '\x7d' :: rest), index⟩ 1) =
      ⟨'\x7d' :: rest, _⟩ := skipBlanks_stop gap (index + 1) (by decide)
  refine ⟨index + 1 + gap.chars.length + 1, ?_⟩
  rw [htext]
  simp only [value, hskip]
  rfl

theorem value_list (before : Gap) (is : Items)
    (h : ∀ index, ∃ next, items fuel [] ⟨is.chars ++ ']' :: rest, index⟩ =
      .ok (.list ([].reverse ++ is.values), ⟨rest, next⟩)) : ∃ next,
    value (fuel + 1) ⟨(Written.list before is).chars ++ rest, index⟩ =
      .ok (.list is.values, ⟨rest, next⟩) := by
  have htext : (Written.list before is).chars ++ rest =
      '[' :: (before.chars ++ (is.chars ++ ']' :: rest)) := by
    simp [Written.chars]
  have hskip : skipBlanks (Cursor.skip
      ⟨'[' :: (before.chars ++ (is.chars ++ ']' :: rest)), index⟩ 1) =
        ⟨is.chars ++ ']' :: rest, _⟩ :=
    skipBlanks_gap before (index + 1) ((is.startsValue _).not_blank)
  obtain ⟨next, hitems⟩ := h (index + 1 + before.chars.length)
  have hopen : Cursor.peek? ⟨is.chars ++ ']' :: rest, index + 1 + before.chars.length⟩ ≠
      some ']' := by
    obtain ⟨c, more, hchars, hstarts⟩ := is.startsValue (']' :: rest)
    rw [hchars]
    rintro heq
    exact absurd (Option.some.inj heq ▸ hstarts) (by decide)
  refine ⟨next, ?_⟩
  rw [htext, ← List.nil_append is.values, ← List.reverse_nil, ← hitems]
  simp only [value, peek?_cons, hskip]

theorem value_record (before : Gap) (fs : Fields)
    (h : ∀ index, ∃ next, fields fuel [] ⟨fs.chars ++ '\x7d' :: rest, index⟩ =
      .ok (.map (fs.entries.foldl (fun known (key, value) => Value.put known key value) []),
        ⟨rest, next⟩)) : ∃ next,
    value (fuel + 1) ⟨(Written.record before fs).chars ++ rest, index⟩ =
      .ok (.map (Value.ofEntries fs.entries), ⟨rest, next⟩) := by
  have htext : (Written.record before fs).chars ++ rest =
      '\x7b' :: (before.chars ++ (fs.chars ++ '\x7d' :: rest)) := by
    simp [Written.chars]
  have hskip : skipBlanks (Cursor.skip
      ⟨'\x7b' :: (before.chars ++ (fs.chars ++ '\x7d' :: rest)), index⟩ 1) =
        ⟨fs.chars ++ '\x7d' :: rest, _⟩ :=
    skipBlanks_gap before (index + 1) (fs.startsValue _).not_blank
  obtain ⟨next, hfields⟩ := h (index + 1 + before.chars.length)
  have hopen : Cursor.peek? ⟨fs.chars ++ '\x7d' :: rest, index + 1 + before.chars.length⟩ ≠
      some '\x7d' := by
    obtain ⟨c, more, hchars, hstarts⟩ := fs.startsValue ('\x7d' :: rest)
    rw [hchars]
    rintro heq
    exact absurd (Option.some.inj heq ▸ hstarts) (by decide)
  refine ⟨next, ?_⟩
  rw [htext, Value.ofEntries, ← hfields]
  simp only [value, peek?_cons, hskip]

end Brackets

mutual

/-- A value is read up to its end. -/
theorem value_written (w : Written) (fuel : Nat) (rest : List Char) (index : Nat)
    (hends : Ends rest) (hfuel : w.chars.length ≤ fuel) : ∃ next,
    value fuel ⟨w.chars ++ rest, index⟩ = .ok (w.value, ⟨rest, next⟩) := by
  obtain ⟨fuel, rfl⟩ : ∃ less, fuel = less + 1 := by
    obtain ⟨c, more, hchars, -⟩ := w.startsValue
    exact ⟨fuel - 1, by rw [hchars, List.length_cons] at hfuel; omega⟩
  match w with
  | .null => exact value_null fuel rest index
  | .bool b => exact value_bool fuel rest index b
  | .number n => exact value_number fuel rest index n hends
  | .string s => exact value_string fuel rest index s
  | .emptyList gap => exact value_emptyList gap
  | .list before items =>
    have hlength : items.chars.length < fuel := by
      simp only [Written.chars, List.length_cons, List.length_append] at hfuel
      omega
    exact value_list before items fun index => items_written items fuel [] rest index hlength
  | .emptyRecord gap => exact value_emptyRecord gap
  | .record before fields =>
    have hlength : fields.chars.length < fuel := by
      simp only [Written.chars, List.length_cons, List.length_append] at hfuel
      omega
    exact value_record before fields fun index => fields_written fields fuel [] rest index hlength

theorem items_written (is : Items) (fuel : Nat) (known : List Value) (rest : List Char)
    (index : Nat) (hfuel : is.chars.length < fuel) : ∃ next,
    items fuel known ⟨is.chars ++ ']' :: rest, index⟩ =
      .ok (.list (known.reverse ++ is.values), ⟨rest, next⟩) := by
  obtain ⟨fuel, rfl⟩ : ∃ less, fuel = less + 1 := ⟨fuel - 1, by omega⟩
  match is with
  | .last item after =>
    have hlength : item.chars.length ≤ fuel := by
      simp only [Items.chars, List.length_append] at hfuel
      omega
    obtain ⟨next, hvalue⟩ := value_written item fuel _ index
      (ends_gap after follows_bracket rest) hlength
    obtain ⟨next, hread⟩ := items_close known after hvalue
    refine ⟨next, ?_⟩
    rw [Items.chars, List.append_assoc, hread, Items.values, List.reverse_cons]
  | .more item after before others =>
    have hlength : item.chars.length ≤ fuel ∧ others.chars.length < fuel := by
      simp only [Items.chars, List.length_append, List.length_cons] at hfuel
      omega
    obtain ⟨comma, hvalue⟩ := value_written item fuel _ index (ends_gap after follows_comma
      (before.chars ++ (others.chars ++ ']' :: rest))) hlength.1
    obtain ⟨middle, hread⟩ :=
      items_comma known after before ((others.startsValue _).not_blank) hvalue
    obtain ⟨next, hothers⟩ :=
      items_written others fuel (item.value :: known) rest middle hlength.2
    refine ⟨next, ?_⟩
    have htext : (Items.more item after before others).chars ++ ']' :: rest = item.chars ++
        (after.chars ++ ',' :: (before.chars ++ (others.chars ++ ']' :: rest))) := by
      simp [Items.chars]
    rw [htext, hread, hothers, Items.values, List.reverse_cons, List.append_assoc]
    rfl

theorem fields_written (fs : Fields) (fuel : Nat) (known : List (Value × Value)) (rest : List Char)
    (index : Nat) (hfuel : fs.chars.length < fuel) : ∃ next,
    fields fuel known ⟨fs.chars ++ '\x7d' :: rest, index⟩ =
      .ok (.map (fs.entries.foldl (fun known (key, value) => Value.put known key value) known),
        ⟨rest, next⟩) := by
  obtain ⟨fuel, rfl⟩ : ∃ less, fuel = less + 1 := ⟨fuel - 1, by omega⟩
  match fs with
  | .last name colon before item after =>
    have hlength : item.chars.length ≤ fuel := by
      simp only [Fields.chars, List.length_append, List.length_cons] at hfuel
      omega
    have hvalue (index : Nat) := value_written item fuel _ index
      (ends_gap after follows_brace rest) hlength
    obtain ⟨next, hread⟩ := fields_close index known name colon before after
      ((item.startsValue.append _).not_blank) hvalue
    refine ⟨next, ?_⟩
    have htext : (Fields.last name colon before item after).chars ++ '\x7d' :: rest =
        quotedChars name ++ (colon.chars ++ ':' :: (before.chars ++
          (item.chars ++ (after.chars ++ '\x7d' :: rest)))) := by
      simp [Fields.chars]
    rw [htext, hread]
    rfl
  | .more name colon before item after last others =>
    have hlength : item.chars.length ≤ fuel ∧ others.chars.length < fuel := by
      simp only [Fields.chars, List.length_append, List.length_cons] at hfuel
      omega
    have hvalue (index : Nat) := value_written item fuel _ index (ends_gap after follows_comma
      (last.chars ++ (others.chars ++ '\x7d' :: rest))) hlength.1
    obtain ⟨middle, hread⟩ := fields_comma index known name colon before after last
      ((item.startsValue.append _).not_blank) ((others.startsValue _).not_blank) hvalue
    obtain ⟨next, hothers⟩ := fields_written others fuel
      (Value.put known (.text (stringOf name)) item.value) rest middle hlength.2
    refine ⟨next, ?_⟩
    have htext : (Fields.more name colon before item after last others).chars ++ '\x7d' :: rest =
        quotedChars name ++ (colon.chars ++ ':' :: (before.chars ++ (item.chars ++
          (after.chars ++ ',' :: (last.chars ++ (others.chars ++ '\x7d' :: rest)))))) := by
      simp [Fields.chars]
    rw [htext, hread, hothers]
    rfl

end

/-- No text of the grammar starts with a byte order mark. -/
theorem Page.peek?_ne (p : Page) : (Cursor.peek? ⟨p.chars, 0⟩ == some '\ufeff') = false := by
  have hstarts : '\ufeff' ∉ starts := by decide
  have hblank : isBlank '\ufeff' = false := by decide
  rw [Page.chars, List.append_assoc, beq_eq_false_iff_ne]
  intro heq
  cases hbefore : p.before.chars with
  | nil =>
    obtain ⟨c, more, hchars, hc⟩ := p.root.startsValue.append p.after.chars
    rw [hbefore, List.nil_append, hchars] at heq
    exact hstarts (Option.some.inj heq ▸ hc)
  | cons c cs =>
    have hc := p.before.blank c (hbefore ▸ List.mem_cons_self)
    rw [hbefore] at heq
    rw [Option.some.inj heq, hblank] at hc
    exact Bool.false_ne_true hc

/-- Every text of the grammar is read as the value that is meant. -/
theorem read_page (p : Page) : read (String.ofList p.chars) = .ok p.root.value := by
  have htext : p.chars = p.before.chars ++ (p.root.chars ++ p.after.chars) := by
    simp [Page.chars]
  have hbefore : skipBlanks ⟨p.chars, 0⟩ =
      ⟨p.root.chars ++ p.after.chars, 0 + p.before.chars.length⟩ := by
    rw [htext]
    exact skipBlanks_gap p.before 0 (p.root.startsValue.append _).not_blank
  have hends : Ends p.after.chars := by
    intro c hc
    rw [follows, p.after.blank c (List.mem_of_mem_head? hc)]
    rfl
  obtain ⟨next, hvalue⟩ := value_written p.root (2 * (p.root.chars ++ p.after.chars).length + 2)
    p.after.chars (0 + p.before.chars.length) hends (by simp; omega)
  have hafter : skipBlanks ⟨p.after.chars, next⟩ = ⟨[], next + p.after.chars.length⟩ := by
    have hskip : skipBlanks ⟨p.after.chars ++ [], next⟩ = _ :=
      skipBlanks_gap p.after next (by simp)
    rwa [List.append_nil] at hskip
  rw [read, Cursor.ofString, String.toList_ofList]
  simp only [p.peek?_ne, hbefore, hvalue, hafter, bind, Except.bind]
  rfl

end GraphImport.Json
