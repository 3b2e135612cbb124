import GraphImport.Files.Tree
import GraphImport.Proofs.Json.Reading
import GraphImport.Proofs.Yaml.Shared

/-!
# Line breaks in JSON text

A shared text whose line breaks are unified is a shared text still, of the same value: breaks stand
in the blanks between tokens alone.
-/

namespace GraphImport.Json

open Document (Value)
open Files.Tree (unifyBreaks)

theorem unifyBreaks_cons {c : Char} (hc : c ≠ '\r') (rest : List Char) :
    unifyBreaks (c :: rest) = c :: unifyBreaks rest := by
  rw [unifyBreaks]
  · exact fun _ h _ => hc h
  · exact hc

theorem unifyBreaks_append {cs : List Char} (h : '\r' ∉ cs) (rest : List Char) :
    unifyBreaks (cs ++ rest) = cs ++ unifyBreaks rest := by
  induction cs with
  | nil => rfl
  | cons c cs ih =>
    rw [List.mem_cons, not_or] at h
    rw [List.cons_append, unifyBreaks_cons (Ne.symm h.1), ih h.2, List.cons_append]

/-- Whether a text does not go on with a line feed, which would belong to a break before it. -/
def NoFeed (rest : List Char) : Prop :=
  ∀ c ∈ rest.head?, c ≠ '\n'

theorem noFeed_cons {c : Char} (hc : c ≠ '\n') (rest : List Char) : NoFeed (c :: rest) :=
  fun _ hd => Option.some.inj hd ▸ hc

theorem StartsValue.noFeed {cs : List Char} (h : StartsValue cs) : NoFeed cs := by
  rintro c hc rfl
  exact absurd (h.not_blank _ hc) (by decide)

theorem unifyBreaks_return {rest : List Char} (h : NoFeed rest) :
    unifyBreaks ('\r' :: rest) = '\n' :: unifyBreaks rest := by
  rw [unifyBreaks]
  rintro more rfl
  exact h '\n' rfl rfl

theorem unifyBreaks_append_of_noFeed (cs : List Char) {rest : List Char} (h : NoFeed rest) :
    unifyBreaks (cs ++ rest) = unifyBreaks cs ++ unifyBreaks rest := by
  fun_induction unifyBreaks cs with
  | case1 more ih => rw [List.cons_append, List.cons_append, unifyBreaks, ih, List.cons_append]
  | case2 more hmore ih =>
    have hnext : NoFeed (more ++ rest) := by
      cases more with
      | nil => exact h
      | cons c more => exact noFeed_cons (fun hc => hmore more (hc ▸ rfl)) _
    rw [List.cons_append, unifyBreaks_return hnext, ih, List.cons_append]
  | case3 c more _ hc ih => rw [List.cons_append, unifyBreaks_cons hc, ih, List.cons_append]
  | case4 => rfl

theorem mem_unifyBreaks {c : Char} {cs : List Char} (h : c ∈ unifyBreaks cs) :
    c ∈ cs ∨ c = '\n' := by
  fun_induction unifyBreaks cs with
  | case1 more ih | case2 more _ ih | case3 d more _ _ ih =>
    rcases List.mem_cons.mp h with rfl | h
    · simp
    · rcases ih h with h | h <;> simp [h]
  | case4 => exact absurd h List.not_mem_nil

theorem gap_unified (gap : Gap) (hgap : gap.IsShared) : ∃ gap' : Gap, gap'.IsShared ∧
    ∀ rest, NoFeed rest → unifyBreaks (gap.chars ++ rest) = gap'.chars ++ unifyBreaks rest := by
  refine ⟨⟨unifyBreaks gap.chars, fun c hc => ?_⟩, fun htab => ?_,
    fun rest h => unifyBreaks_append_of_noFeed gap.chars h⟩
  · rcases mem_unifyBreaks hc with hc | rfl
    · exact gap.blank c hc
    · rfl
  · rcases mem_unifyBreaks htab with hc | hc
    · exact hgap hc
    · exact absurd hc (by decide)

theorem number_noReturn (n : Numeral) : '\r' ∉ n.chars := by
  have hletters : '\r' ∉ "0123456789-+.eE".toList := by decide
  exact fun h => hletters (n.mem_chars _ h)

theorem quotedChars_noReturn (s : List Piece) : '\r' ∉ quotedChars s := by
  simp only [quotedChars, List.cons_append, List.mem_cons, List.mem_append, List.mem_flatMap]
  rintro (h | ⟨p, -, hp⟩ | h | h)
  · exact absurd h (by decide)
  · rcases p.mem_chars hp with ⟨h, -⟩ | h
    · exact absurd h.1 (by decide)
    · exact absurd h (by decide)
  · exact absurd h (by decide)
  · exact absurd h List.not_mem_nil

/-- The name of a field has its colon on the same line, and so no break before it. -/
theorem IsSharedName.unifyBreaks {name : List Piece} {colon : Gap} (h : IsSharedName name colon)
    (rest : List Char) : unifyBreaks (quotedChars name ++ (colon.chars ++ ':' :: rest)) =
      quotedChars name ++ (colon.chars ++ ':' :: unifyBreaks rest) := by
  have hcolon : '\r' ∉ colon.chars := fun hc => absurd (h.line _ hc) (by decide)
  rw [unifyBreaks_append (quotedChars_noReturn name), unifyBreaks_append hcolon,
    unifyBreaks_cons (by decide)]

mutual

theorem written_unified (w : Written) (hw : w.IsShared) :
    ∃ w' : Written, w'.IsShared ∧ w'.value = w.value ∧
      ∀ rest, unifyBreaks (w.chars ++ rest) = w'.chars ++ unifyBreaks rest := by
  match w with
  | .null => exact ⟨.null, trivial, rfl, unifyBreaks_append (by decide)⟩
  | .bool b => exact ⟨.bool b, trivial, rfl, unifyBreaks_append (by cases b <;> decide)⟩
  | .number n => exact ⟨.number n, hw, rfl, unifyBreaks_append (number_noReturn n)⟩
  | .string s => exact ⟨.string s, hw, rfl, unifyBreaks_append (quotedChars_noReturn s)⟩
  | .emptyList gap =>
    obtain ⟨gap', hgap', hgap⟩ := gap_unified gap hw
    refine ⟨.emptyList gap', hgap', rfl, fun rest => ?_⟩
    simp only [Written.chars, List.cons_append, List.append_assoc, List.nil_append]
    rw [unifyBreaks_cons (by decide), hgap _ (noFeed_cons (by decide) _),
      unifyBreaks_cons (by decide)]
  | .list before items =>
    obtain ⟨before', hbefore', hbefore⟩ := gap_unified before hw.1
    obtain ⟨items', hitems', hvalues, hitems⟩ := items_unified items hw.2
    refine ⟨.list before' items', ⟨hbefore', hitems'⟩, congrArg Value.list hvalues, fun rest => ?_⟩
    simp only [Written.chars, List.cons_append, List.append_assoc, List.nil_append]
    rw [unifyBreaks_cons (by decide), hbefore _ ((items.startsValue _).noFeed),
      hitems _ (noFeed_cons (by decide) _), unifyBreaks_cons (by decide)]
  | .emptyRecord gap =>
    obtain ⟨gap', hgap', hgap⟩ := gap_unified gap hw
    refine ⟨.emptyRecord gap', hgap', rfl, fun rest => ?_⟩
    simp only [Written.chars, List.cons_append, List.append_assoc, List.nil_append]
    rw [unifyBreaks_cons (by decide), hgap _ (noFeed_cons (by decide) _),
      unifyBreaks_cons (by decide)]
  | .record before fields =>
    obtain ⟨before', hbefore', hbefore⟩ := gap_unified before hw.1
    obtain ⟨fields', hfields', hentries, hfields⟩ := fields_unified fields hw.2
    refine ⟨.record before' fields', ⟨hbefore', hfields'⟩,
      congrArg (Value.map ∘ Value.ofEntries) hentries, fun rest => ?_⟩
    simp only [Written.chars, List.cons_append, List.append_assoc, List.nil_append]
    rw [unifyBreaks_cons (by decide), hbefore _ ((fields.startsValue _).noFeed),
      hfields _ (noFeed_cons (by decide) _), unifyBreaks_cons (by decide)]

theorem items_unified (items : Items) (hitems : items.IsShared) :
    ∃ items' : Items, items'.IsShared ∧ items'.values = items.values ∧
      ∀ rest, NoFeed rest →
        unifyBreaks (items.chars ++ rest) = items'.chars ++ unifyBreaks rest := by
  match items with
  | .last item after =>
    obtain ⟨item', hitem', hvalue, hitem⟩ := written_unified item hitems.1
    obtain ⟨after', hafter', hafter⟩ := gap_unified after hitems.2
    refine ⟨.last item' after', ⟨hitem', hafter'⟩, congrArg (fun v => [v]) hvalue,
      fun rest hrest => ?_⟩
    simp only [Items.chars, List.append_assoc]
    rw [hitem, hafter _ hrest]
  | .more item after before others =>
    obtain ⟨item', hitem', hvalue, hitem⟩ := written_unified item hitems.1
    obtain ⟨after', hafter', hafter⟩ := gap_unified after hitems.2.1
    obtain ⟨before', hbefore', hbefore⟩ := gap_unified before hitems.2.2.1
    obtain ⟨others', hothers', hvalues, hothers⟩ := items_unified others hitems.2.2.2
    refine ⟨.more item' after' before' others', ⟨hitem', hafter', hbefore', hothers'⟩, ?_,
      fun rest hrest => ?_⟩
    · simp only [Items.values, hvalue, hvalues]
    · simp only [Items.chars, List.cons_append, List.append_assoc]
      rw [hitem, hafter _ (noFeed_cons (by decide) _), unifyBreaks_cons (by decide),
        hbefore _ ((others.startsValue _).noFeed), hothers _ hrest]

theorem fields_unified (fields : Fields) (hfields : fields.IsShared) :
    ∃ fields' : Fields, fields'.IsShared ∧ fields'.entries = fields.entries ∧
      ∀ rest, NoFeed rest →
        unifyBreaks (fields.chars ++ rest) = fields'.chars ++ unifyBreaks rest := by
  match fields with
  | .last name colon before item after =>
    obtain ⟨hname, hb, hi, ha⟩ := hfields
    obtain ⟨before', hbefore', hbefore⟩ := gap_unified before hb
    obtain ⟨item', hitem', hvalue, hitem⟩ := written_unified item hi
    obtain ⟨after', hafter', hafter⟩ := gap_unified after ha
    refine ⟨.last name colon before' item' after', ⟨hname, hbefore', hitem', hafter'⟩, ?_,
      fun rest hrest => ?_⟩
    · simp only [Fields.entries, hvalue]
    · simp only [Fields.chars, List.cons_append, List.append_assoc]
      rw [hname.unifyBreaks, hbefore _ (item.startsValue.append _).noFeed, hitem, hafter _ hrest]
  | .more name colon before item after next others =>
    obtain ⟨hname, hb, hi, ha, hn, ho⟩ := hfields
    obtain ⟨before', hbefore', hbefore⟩ := gap_unified before hb
    obtain ⟨item', hitem', hvalue, hitem⟩ := written_unified item hi
    obtain ⟨after', hafter', hafter⟩ := gap_unified after ha
    obtain ⟨next', hnext', hnext⟩ := gap_unified next hn
    obtain ⟨others', hothers', hentries, hothers⟩ := fields_unified others ho
    refine ⟨.more name colon before' item' after' next' others',
      ⟨hname, hbefore', hitem', hafter', hnext', hothers'⟩, ?_, fun rest hrest => ?_⟩
    · simp only [Fields.entries, hvalue, hentries]
    · simp only [Fields.chars, List.cons_append, List.append_assoc]
      rw [hname.unifyBreaks, hbefore _ (item.startsValue.append _).noFeed, hitem,
        hafter _ (noFeed_cons (by decide) _), unifyBreaks_cons (by decide),
        hnext _ ((others.startsValue _).noFeed), hothers _ hrest]

end

/-- A shared text means the same once its line breaks are unified. -/
theorem page_unified (p : Page) (hp : p.IsShared) :
    ∃ p' : Page, p'.IsShared ∧ p'.root.value = p.root.value ∧ unifyBreaks p.chars = p'.chars := by
  obtain ⟨before', hbefore', hbefore⟩ := gap_unified p.before hp.before
  obtain ⟨root', hroot', hvalue, hroot⟩ := written_unified p.root hp.root
  obtain ⟨after', hafter', hafter⟩ := gap_unified p.after hp.after
  refine ⟨⟨before', root', after'⟩, ⟨hbefore', hroot', hafter'⟩, hvalue, ?_⟩
  have hend := hafter [] fun _ h => nomatch h
  rw [List.append_nil] at hend
  rw [Page.chars, List.append_assoc, hbefore _ (p.root.startsValue.append _).noFeed, hroot, hend]
  simp [Page.chars, unifyBreaks]

end GraphImport.Json
