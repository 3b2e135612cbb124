import GraphImport.Proofs.Text.Spans
import GraphImport.Rules.OrderBy

/-!
# What a sorting clause is

A query holds a sorting clause when it splits into what comes before, the word "order", at least
one space, the word "by" and what comes after. The search finds a clause exactly then; testing
first whether the query is blank loses none.
-/

namespace GraphImport.Rules

/-- Whether characters spell a word in lower case, their own case aside. -/
def Spells (cs : List Char) (word : String) : Prop :=
  cs.map Char.toLower = word.toList

/-- Text that begins with a sorting clause. -/
def BeginsWithClause (cs : List Char) : Prop :=
  ∃ order gap by_ after, cs = order ++ gap ++ by_ ++ after ∧ Spells order "order" ∧
    gap ≠ [] ∧ (∀ c ∈ gap, Text.isSpace c) ∧ Spells by_ "by"

/-- Text with a sorting clause anywhere in it. -/
def HoldsClause (cs : List Char) : Prop :=
  ∃ before clause, cs = before ++ clause ∧ BeginsWithClause clause

theorem afterWord?_eq_some {word cs rest : List Char} :
    afterWord? word cs = some rest ↔
      ∃ start, cs = start ++ rest ∧ start.map Char.toLower = word := by
  induction word generalizing cs with
  | nil => simp [afterWord?, eq_comm]
  | cons w word ih =>
    cases cs with
    | nil => simp [afterWord?]
    | cons c cs =>
      rw [afterWord?]
      split
      next hc =>
        rw [ih]
        constructor
        · rintro ⟨start, rfl, hstart⟩
          exact ⟨c :: start, rfl, by rw [List.map_cons, hstart, beq_iff_eq.mp hc]⟩
        · rintro ⟨start, hsplit, hstart⟩
          cases start with
          | nil => simp at hstart
          | cons d start =>
            obtain ⟨rfl, rfl⟩ := List.cons_eq_cons.mp hsplit
            exact ⟨start, rfl, (List.cons_eq_cons.mp hstart).2⟩
      next hc =>
        simp only [reduceCtorEq, false_iff]
        rintro ⟨start, hsplit, hstart⟩
        cases start with
        | nil => simp at hstart
        | cons d start =>
          obtain ⟨rfl, rfl⟩ := List.cons_eq_cons.mp hsplit
          exact hc (beq_iff_eq.mpr (List.cons_eq_cons.mp hstart).1)

/-- Spaces dropped before a word end where the word begins. -/
theorem dropWhile_isSpace_append {gap by_ : List Char} (after : List Char)
    (hgap : ∀ c ∈ gap, Text.isSpace c) (hby : Spells by_ "by") :
    (gap ++ by_ ++ after).dropWhile Text.isSpace = by_ ++ after := by
  rw [List.append_assoc, List.dropWhile_append_of_pos hgap]
  cases by_ with
  | nil => simp [Spells] at hby
  | cons b rest =>
    have hb : b.toLower = 'b' := (List.cons_eq_cons.mp hby).1
    rw [List.cons_append, List.dropWhile_cons_of_neg]
    rw [Text.isSpace_of_toLower hb (by decide)]
    exact Bool.false_ne_true

theorem startsWithOrderBy_eq_true {cs : List Char} :
    startsWithOrderBy cs = true ↔ BeginsWithClause cs := by
  constructor
  · intro h
    unfold startsWithOrderBy at h
    split at h
    next gap rest hgap =>
      rw [Bool.and_eq_true, Option.isSome_iff_exists] at h
      obtain ⟨hspace, after, hafter⟩ := h
      obtain ⟨order, rfl, horder⟩ := afterWord?_eq_some.mp hgap
      obtain ⟨by_, hrest, hby⟩ := afterWord?_eq_some.mp hafter
      refine ⟨order, gap :: rest.takeWhile Text.isSpace, by_, after, ?_, horder,
        List.cons_ne_nil _ _, ?_, hby⟩
      · rw [List.append_assoc, List.append_assoc, ← hrest, List.cons_append,
          List.takeWhile_append_dropWhile]
      · intro c hc
        rcases List.mem_cons.mp hc with rfl | hc
        · exact hspace
        · exact List.all_eq_true.mp List.all_takeWhile c hc
    next => exact Bool.noConfusion h
  · rintro ⟨order, gap, by_, after, rfl, horder, hgap, hspaces, hby⟩
    cases gap with
    | nil => exact absurd rfl hgap
    | cons first gap =>
      have hword : afterWord? ['o', 'r', 'd', 'e', 'r']
          (order ++ (first :: gap) ++ by_ ++ after) = some (first :: (gap ++ by_ ++ after)) := by
        refine afterWord?_eq_some.mpr ⟨order, ?_, horder⟩
        simp only [List.append_assoc, List.cons_append]
      have hafter : afterWord? ['b', 'y'] (by_ ++ after) = some after :=
        afterWord?_eq_some.mpr ⟨by_, rfl, hby⟩
      have hgap' : ∀ c ∈ gap, Text.isSpace c := fun c hc => hspaces c (List.mem_cons_of_mem _ hc)
      rw [startsWithOrderBy, hword]
      simp only [hspaces first List.mem_cons_self, dropWhile_isSpace_append after hgap' hby, hafter,
        Option.isSome_some, Bool.and_self]

theorem not_beginsWithClause_nil : ¬ BeginsWithClause [] := by
  rw [← startsWithOrderBy_eq_true]
  decide

theorem hasOrderBy_eq_true {cs : List Char} : hasOrderBy cs = true ↔ HoldsClause cs := by
  induction cs with
  | nil =>
    simp only [hasOrderBy, Bool.false_eq_true, false_iff]
    rintro ⟨before, clause, hsplit, hclause⟩
    rw [(List.append_eq_nil_iff.mp hsplit.symm).2] at hclause
    exact not_beginsWithClause_nil hclause
  | cons c cs ih =>
    rw [hasOrderBy, Bool.or_eq_true, startsWithOrderBy_eq_true, ih]
    constructor
    · rintro (h | ⟨before, clause, rfl, h⟩)
      · exact ⟨[], c :: cs, rfl, h⟩
      · exact ⟨c :: before, clause, rfl, h⟩
    · rintro ⟨before, clause, hsplit, h⟩
      cases before with
      | nil => exact Or.inl (hsplit ▸ h)
      | cons d before =>
        obtain ⟨rfl, rfl⟩ := List.cons_eq_cons.mp hsplit
        exact Or.inr ⟨before, clause, rfl, h⟩

/-- Text with a sorting clause is not blank. -/
theorem HoldsClause.isBlank_eq_false {query : String} (h : HoldsClause query.toList) :
    Text.isBlank query = false := by
  obtain ⟨before, clause, hquery, order, gap, by_, after, rfl, horder, _⟩ := h
  cases order with
  | nil => simp [Spells] at horder
  | cons o rest =>
    have ho : o.toLower = 'o' := (List.cons_eq_cons.mp horder).1
    have hmem : o ∈ query.toList := by simp [hquery]
    rw [Text.isBlank, List.all_eq_false]
    refine ⟨o, hmem, ?_⟩
    rw [Text.isSpace_of_toLower ho (by decide)]
    exact Bool.false_ne_true

/-- A query sorts its rows exactly when it holds a sorting clause. -/
theorem sorts_eq_true {query? : Option String} :
    sorts query? = true ↔ ∃ query, query? = some query ∧ HoldsClause query.toList := by
  cases query? with
  | none => simp [sorts]
  | some query =>
    simp only [sorts, Bool.and_eq_true, Bool.not_eq_true', hasOrderBy_eq_true, Option.some.injEq,
      exists_eq_left', and_iff_right_iff_imp]
    exact HoldsClause.isBlank_eq_false

end GraphImport.Rules
