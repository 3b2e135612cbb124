import GraphImport.Text.Blank
import GraphImport.Text.Cursor

/-!
# Characters and spans of a text

A span ends where a character fails its test, so it is known from the characters it takes and the
one after them. What holds of a few known characters is found by trying each of them.
-/

namespace GraphImport.Text

section Lists

/-- Tries each item of a list, where deciding the statement itself could try every character. -/
theorem forall_mem_of_all {α : Type} {q : α → Prop} [DecidablePred q] {items : List α}
    (h : items.all (fun a => decide (q a)) = true) : ∀ a ∈ items, q a :=
  fun a ha => of_decide_eq_true (List.all_eq_true.mp h a ha)

/-- What holds of the characters of a separator holds of those of a joined text when it holds of
those of its parts. -/
theorem forall_mem_intercalate {sep : String} {q : Char → Prop} (hsep : ∀ c ∈ sep.toList, q c)
    (parts : List String) :
    (∀ c ∈ (sep.intercalate parts).toList, q c) ↔ ∀ part ∈ parts, ∀ c ∈ part.toList, q c := by
  rw [String.toList_intercalate]
  induction parts with
  | nil => simp
  | cons part rest ih =>
    rw [List.forall_mem_cons, ← ih]
    cases rest with
    | nil => simp
    | cons next rest =>
      simp only [List.map_cons, List.intercalate_cons_cons, List.forall_mem_append]
      exact and_congr_left fun _ => and_iff_left hsep

variable {taken rest : List Char} {p : Char → Bool}

theorem takeWhile_taken (htaken : ∀ c ∈ taken, p c = true) (hrest : ∀ c ∈ rest.head?, p c = false) :
    (taken ++ rest).takeWhile p = taken := by
  rw [List.takeWhile_append_of_pos htaken]
  cases rest with
  | nil => simp
  | cons c rest => simp [hrest c rfl]

theorem dropWhile_taken (htaken : ∀ c ∈ taken, p c = true) (hrest : ∀ c ∈ rest.head?, p c = false) :
    (taken ++ rest).dropWhile p = rest := by
  rw [List.dropWhile_append_of_pos htaken]
  cases rest with
  | nil => simp
  | cons c rest => simp [hrest c rfl]

/-- What follows a stop does not matter for a span. -/
theorem takeWhile_append_stop (cs : List Char) (hrest : ∀ c ∈ rest.head?, p c = false) :
    (cs ++ rest).takeWhile p = cs.takeWhile p := by
  induction cs with
  | nil => exact takeWhile_taken (List.forall_mem_nil _) hrest
  | cons c cs ih => rw [List.cons_append, List.takeWhile_cons, List.takeWhile_cons, ih]

theorem exists_trimWhite (cs : List Char) : ∃ lead trail, (∀ c ∈ lead, isWhite c = true) ∧
    (∀ c ∈ trail, isWhite c = true) ∧ cs = lead ++ trimWhite cs ++ trail := by
  have hwhite (cs : List Char) : ∀ c ∈ cs.takeWhile isWhite, isWhite c = true :=
    List.all_eq_true.mp List.all_takeWhile
  let rest := (cs.dropWhile isWhite).reverse
  refine ⟨cs.takeWhile isWhite, (rest.takeWhile isWhite).reverse, hwhite _, ?_, ?_⟩
  · intro c hc
    exact hwhite rest c (List.mem_reverse.mp hc)
  · have hrest : trimWhite cs ++ (rest.takeWhile isWhite).reverse = cs.dropWhile isWhite := by
      rw [trimWhite, ← List.reverse_append, List.takeWhile_append_dropWhile, List.reverse_reverse]
    rw [List.append_assoc, hrest, List.takeWhile_append_dropWhile]

/-- Text between white space is what is left when that is taken off. -/
theorem trimWhite_eq {lead core trail : List Char}
    (hlead : ∀ c ∈ lead, isWhite c = true) (htrail : ∀ c ∈ trail, isWhite c = true)
    (hfirst : ∀ c ∈ (core ++ trail).head?, isWhite c = false)
    (hlast : ∀ c ∈ core.reverse.head?, isWhite c = false) :
    trimWhite (lead ++ core ++ trail) = core := by
  have htrail' : ∀ c ∈ trail.reverse, isWhite c = true := by
    intro c hc
    exact htrail c (List.mem_reverse.mp hc)
  rw [trimWhite, List.append_assoc, dropWhile_taken hlead hfirst, List.reverse_append,
    dropWhile_taken htrail' hlast, List.reverse_reverse]

theorem trimWhite_eq_self {cs : List Char} (h : ∀ c ∈ cs, isWhite c = false) :
    trimWhite cs = cs := by
  have hnone : ∀ c ∈ ([] : List Char), isWhite c = true := List.forall_mem_nil _
  have htrimmed : trimWhite ([] ++ cs ++ []) = cs := by
    apply trimWhite_eq hnone hnone
    · intro c hc
      rw [List.append_nil] at hc
      exact h c (List.mem_of_mem_head? hc)
    · intro c hc
      exact h c (List.mem_reverse.mp (List.mem_of_mem_head? hc))
  rwa [List.nil_append, List.append_nil] at htrimmed

end Lists

theorem isPrefixOf_iff {start text : String} :
    start.isPrefixOf text = true ↔ ∃ rest, text = start ++ rest := by
  change text.startsWith start = true ↔ _
  rw [String.startsWith_string_iff]
  constructor
  · rintro ⟨rest, hrest⟩
    refine ⟨String.ofList rest, ?_⟩
    rw [← String.toList_inj, String.toList_append, String.toList_ofList, hrest]
  · rintro ⟨rest, rfl⟩
    rw [String.toList_append]
    exact List.prefix_append _ _

theorem isPrefixOf_append (start rest : String) : start.isPrefixOf (start ++ rest) = true :=
  isPrefixOf_iff.mpr ⟨rest, rfl⟩

/-- Spaces have no case. -/
theorem toLower_of_isSpace {c : Char} (h : isSpace c = true) : c.toLower = c := by
  apply dif_neg
  rintro ⟨hA, hZ⟩
  have hA' : 65 ≤ c.toNat := UInt32.le_iff_toNat_le.mp hA
  have hZ' : c.toNat ≤ 90 := UInt32.le_iff_toNat_le.mp hZ
  simp only [isSpace, Bool.or_eq_true, Bool.and_eq_true, decide_eq_true_eq, beq_iff_eq] at h
  omega

/-- A letter is a space in neither case. -/
theorem isSpace_toLower (c : Char) : isSpace c.toLower = isSpace c := by
  unfold Char.toLower
  split
  next h =>
    have hA : 65 ≤ c.toNat := UInt32.le_iff_toNat_le.mp h.1
    have hZ : c.toNat ≤ 90 := UInt32.le_iff_toNat_le.mp h.2
    have hlower : (c.val + ('a'.val - 'A'.val)).toNat = c.toNat + 32 := by
      rw [UInt32.toNat_add]
      exact Nat.mod_eq_of_lt (by omega : c.toNat + 32 < 2 ^ 32)
    rw [Bool.eq_iff_iff]
    simp only [isSpace, Char.toNat, Bool.or_eq_true, Bool.and_eq_true, decide_eq_true_eq,
      beq_iff_eq] at hlower hA hZ ⊢
    omega
  next => rfl

theorem isSpace_of_toLower {c letter : Char} (hlower : c.toLower = letter)
    (hletter : isSpace letter = false) : isSpace c = false := by
  rw [← isSpace_toLower, hlower, hletter]

theorem exists_trimEnd (cs : List Char) :
    ∃ tail, (∀ c ∈ tail, isSpace c = true) ∧ cs = trimEnd cs ++ tail := by
  refine ⟨(cs.reverse.takeWhile isSpace).reverse, ?_, ?_⟩
  · intro c hc
    exact List.all_eq_true.mp List.all_takeWhile c (List.mem_reverse.mp hc)
  · rw [trimEnd, ← List.reverse_append, List.takeWhile_append_dropWhile, List.reverse_reverse]

/-- A span takes the characters that pass its test, up to one that does not. -/
theorem span_taken {taken rest : List Char} {p : Char → Bool} (index : Nat)
    (htaken : ∀ c ∈ taken, p c = true) (hrest : ∀ c ∈ rest.head?, p c = false) :
    Cursor.span ⟨taken ++ rest, index⟩ p = (taken, ⟨rest, index + taken.length⟩) := by
  simp only [Cursor.span, takeWhile_taken htaken hrest, dropWhile_taken htaken hrest]

theorem skip_append (taken rest : List Char) (index : Nat) :
    Cursor.skip ⟨taken ++ rest, index⟩ taken.length = ⟨rest, index + taken.length⟩ := by
  induction taken generalizing index with
  | nil => rfl
  | cons c taken ih =>
    have hindex : index + 1 + taken.length = index + (taken.length + 1) := by omega
    exact (ih (index + 1)).trans (by rw [hindex, List.length_cons])

theorem rest_of_after? {c next : Cursor} {s : List Char} (h : c.after? s = some next) :
    c.rest = s ++ next.rest := by
  obtain ⟨cs, index⟩ := c
  unfold Cursor.after? at h
  split at h
  next hstart =>
    obtain ⟨tail, rfl⟩ := List.isPrefixOf_iff_prefix.mp hstart
    rw [skip_append] at h
    cases h
    rfl
  next => cases h

end GraphImport.Text
