import GraphImport.Proofs.Json.Strings
import GraphImport.Text.Lines

/-!
# Texts shown line by line

Texts are shown one below the other. A reader who divides the page at line ends finds each of them
on a line of its own exactly when no line ends within one of them.
-/

namespace GraphImport.Text

open Json (IsPlain)

/-- What a reader takes for the end of a line: a line feed at least, and no printable ASCII
character. -/
structure EndsLines (ends : Char → Bool) : Prop where
  lineFeed : ends '\n' = true
  plain : ∀ c, IsPlain c → ends c = false

/-- A text within which no line ends. -/
def Unbroken (ends : Char → Bool) (s : String) : Prop :=
  ∀ c ∈ s.toList, ends c = false

/-- A text of printable ASCII characters. -/
def Plain (s : String) : Prop :=
  ∀ c ∈ s.toList, IsPlain c

/-- What is on the page when texts are shown one below the other. -/
def page (texts : List String) : List Char :=
  texts.flatMap fun s => s.toList ++ ['\n']

/-- The lines of a page for a reader, the last of which ends. -/
def pageLines (ends : Char → Bool) (texts : List String) : List String :=
  (((page texts).splitOnP ends).dropLast).map String.ofList

theorem endsLines_lineFeed : EndsLines (· == '\n') where
  lineFeed := rfl
  plain c h := beq_false_of_ne fun hc => absurd (hc ▸ h) (by decide)

theorem endsLines_isLineBreak : EndsLines isLineBreak where
  lineFeed := by decide
  plain c h := by
    have hbreaks : ∀ b ∈ ['\n', '\r', '\x0b', '\x0c', '\x1c', '\x1d', '\x1e', '\u0085', '\u2028',
        '\u2029'], ¬ IsPlain b := forall_mem_of_all (by decide)
    rw [isLineBreak, List.contains_eq_mem, decide_eq_false_iff_not]
    exact fun hc => hbreaks c hc h

/-- The characters of a fixed text are at hand without decoding it. -/
theorem Plain.ofList {cs : List Char} (h : cs.all (fun c => decide (IsPlain c)) = true) :
    Plain (String.ofList cs) := by
  rw [Plain, String.toList_ofList]
  exact forall_mem_of_all h

theorem Plain.intercalate {sep : String} {parts : List String} (hsep : Plain sep)
    (h : ∀ part ∈ parts, Plain part) : Plain (sep.intercalate parts) :=
  (forall_mem_intercalate hsep parts).mpr h

section Unbroken

variable {ends : Char → Bool} {s t fixed : String}

theorem unbroken_append : Unbroken ends (s ++ t) ↔ Unbroken ends s ∧ Unbroken ends t := by
  rw [Unbroken, String.toList_append, List.forall_mem_append]
  rfl

theorem Plain.unbroken (hends : EndsLines ends) (h : Plain s) : Unbroken ends s :=
  fun c hc => hends.plain c (h c hc)

theorem unbroken_intercalate (hends : EndsLines ends) (h : Plain fixed) (parts : List String) :
    Unbroken ends (fixed.intercalate parts) ↔ ∀ part ∈ parts, Unbroken ends part :=
  forall_mem_intercalate (h.unbroken hends) parts

end Unbroken

section Pages

variable {ends : Char → Bool}

/-- Each line end begins a line. -/
theorem length_splitOnP (cs : List Char) : (cs.splitOnP ends).length = cs.countP ends + 1 := by
  induction cs with
  | nil => rfl
  | cons c rest ih =>
    rw [List.splitOnP_cons_eq_if_modifyHead, List.countP_cons]
    cases hc : ends c
    · simp [ih]
    · simp [ih]

theorem splitOnP_page (hends : EndsLines ends) (texts : List String) :
    (page texts).splitOnP ends = (texts.flatMap fun s => s.toList.splitOnP ends) ++ [[]] := by
  induction texts with
  | nil => rfl
  | cons s rest ih =>
    have hpage : page (s :: rest) = s.toList ++ '\n' :: page rest := by simp [page]
    rw [hpage, List.splitOnP_append_cons _ _ hends.lineFeed, ih, List.flatMap_cons,
      List.append_assoc]

theorem pageLines_eq (hends : EndsLines ends) (texts : List String) :
    pageLines ends texts = texts.flatMap fun s => (s.toList.splitOnP ends).map String.ofList := by
  rw [pageLines, splitOnP_page hends, List.dropLast_concat, List.map_flatMap]

theorem pageLines_of_unbroken (hends : EndsLines ends) {texts : List String}
    (h : ∀ s ∈ texts, Unbroken ends s) : pageLines ends texts = texts := by
  rw [pageLines_eq hends]
  induction texts with
  | nil => rfl
  | cons s rest ih =>
    obtain ⟨hs, hrest⟩ := List.forall_mem_cons.mp h
    rw [List.flatMap_cons, ih hrest, List.splitOnP_eq_singleton hs, List.map_singleton,
      String.ofList_toList, List.singleton_append]

theorem length_pageLines (hends : EndsLines ends) (texts : List String) :
    (pageLines ends texts).length =
      texts.length + (texts.flatMap String.toList).countP ends := by
  rw [pageLines_eq hends]
  induction texts with
  | nil => rfl
  | cons s rest ih =>
    simp only [List.flatMap_cons, List.length_append, List.length_map, length_splitOnP, ih,
      List.length_cons, List.countP_append]
    omega

/-- There are as many lines as texts only when no line ends within a text. -/
theorem unbroken_of_length (hends : EndsLines ends) {texts : List String}
    (h : (pageLines ends texts).length = texts.length) : ∀ s ∈ texts, Unbroken ends s := by
  rw [length_pageLines hends, Nat.add_eq_left, List.countP_eq_zero] at h
  exact fun s hs c hc => Bool.eq_false_iff.mpr (h c (List.mem_flatMap.mpr ⟨s, hs, hc⟩))

end Pages

end GraphImport.Text
