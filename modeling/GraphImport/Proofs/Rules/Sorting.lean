import GraphImport.Proofs.Rules.OrderBy
import GraphImport.Proofs.Rules.Report

/-!
# Which queries are told to sort

A sorting clause stays one when the case of letters changes and when text is put before or after
it. The queries of all sources, whether a target reads them or not, and those of all active
targets are judged by it and by nothing else, each on its own and in order.
-/

namespace GraphImport.Rules

open Spec

/-- A query that splits around a sorting clause. -/
def HasClause (query : String) : Prop :=
  ∃ before order gap by_ after : String, query = before ++ order ++ gap ++ by_ ++ after ∧
    Spells order.toList "order" ∧ gap ≠ "" ∧ (∀ c ∈ gap.toList, Text.isSpace c) ∧
    Spells by_.toList "by"

/-- A query that is present and has a sorting clause. -/
def Sorts (query? : Option String) : Prop :=
  ∃ query, query? = some query ∧ HasClause query

/-- Texts that are the same but for the case of ASCII letters. -/
def SameButCase (a b : String) : Prop :=
  a.toList.map Char.toLower = b.toList.map Char.toLower

instance (a b : String) : Decidable (SameButCase a b) :=
  inferInstanceAs (Decidable (_ = _))

def Problem.isSorting : Problem → Bool
  | .sortedSource _ | .sortedTarget _ => true
  | _ => false

/-- The problems with sorting clauses, in order. -/
def sortings (problems : List Problem) : List Problem :=
  problems.filter Problem.isSorting

theorem hasClause_iff {query : String} : HasClause query ↔ HoldsClause query.toList := by
  constructor
  · rintro ⟨before, order, gap, by_, after, rfl, horder, hgap, hspaces, hby⟩
    refine ⟨before.toList, _, ?_, order.toList, gap.toList, by_.toList, after.toList, rfl, horder,
      mt String.toList_eq_nil_iff.mp hgap, hspaces, hby⟩
    simp only [String.toList_append, List.append_assoc]
  · rintro ⟨before, _, hquery, order, gap, by_, after, rfl, horder, hgap, hspaces, hby⟩
    refine ⟨.ofList before, .ofList order, .ofList gap, .ofList by_, .ofList after, ?_, ?_, ?_, ?_,
      ?_⟩
    · rw [← String.toList_inj, hquery]
      simp only [String.toList_append, String.toList_ofList, List.append_assoc]
    · rwa [String.toList_ofList]
    · rwa [ne_eq, ← String.toList_eq_nil_iff, String.toList_ofList]
    · rwa [String.toList_ofList]
    · rwa [String.toList_ofList]

theorem sorts_iff {query? : Option String} : sorts query? = true ↔ Sorts query? := by
  rw [sorts_eq_true, Sorts]
  simp only [hasClause_iff]

instance (query? : Option String) : Decidable (Sorts query?) :=
  decidable_of_iff _ sorts_iff

theorem Spells.recased {cs cs' : List Char} {word : String} (h : Spells cs word)
    (hcase : cs'.map Char.toLower = cs.map Char.toLower) : Spells cs' word :=
  hcase.trans h

/-- Text that is all spaces is so in any case. -/
theorem isSpace_recased {cs cs' : List Char} (h : ∀ c ∈ cs, Text.isSpace c = true)
    (hcase : cs'.map Char.toLower = cs.map Char.toLower) : ∀ c ∈ cs', Text.isSpace c = true := by
  intro c' hc'
  have hmem : c'.toLower ∈ cs.map Char.toLower := hcase ▸ List.mem_map_of_mem hc'
  obtain ⟨c, hc, hlower⟩ := List.mem_map.mp hmem
  rw [← Text.isSpace_toLower, ← hlower, Text.isSpace_toLower]
  exact h c hc

/-- A clause is one in any case: its pieces are found where they stood. -/
theorem HoldsClause.recased {cs cs' : List Char} (h : HoldsClause cs)
    (hcase : cs'.map Char.toLower = cs.map Char.toLower) : HoldsClause cs' := by
  obtain ⟨before, _, rfl, order, gap, by_, after, rfl, horder, hgap, hspaces, hby⟩ := h
  simp only [List.map_append] at hcase
  obtain ⟨before', _, rfl, _, hcase⟩ := List.map_eq_append_iff.mp hcase
  obtain ⟨_, after', rfl, hcase, _⟩ := List.map_eq_append_iff.mp hcase
  obtain ⟨_, by', rfl, hcase, hby'⟩ := List.map_eq_append_iff.mp hcase
  obtain ⟨order', gap', rfl, horder', hgap'⟩ := List.map_eq_append_iff.mp hcase
  refine ⟨before', _, rfl, order', gap', by', after', rfl, horder.recased horder', ?_,
    isSpace_recased hspaces hgap', hby.recased hby'⟩
  rintro rfl
  exact hgap (List.map_eq_nil_iff.mp hgap'.symm)

/-- A clause stays one within a longer text. -/
theorem HoldsClause.within {cs : List Char} (h : HoldsClause cs) (start rest : List Char) :
    HoldsClause (start ++ cs ++ rest) := by
  obtain ⟨before, _, rfl, order, gap, by_, after, rfl, hclause⟩ := h
  refine ⟨start ++ before, _, ?_, order, gap, by_, after ++ rest, rfl, hclause⟩
  simp only [List.append_assoc]

theorem sorts_some (query : String) : sorts (some query) = hasOrderBy query.toList := by
  rw [Bool.eq_iff_iff, hasOrderBy_eq_true, sorts_eq_true]
  simp

theorem sorts_recased {query other : String} (h : SameButCase query other) :
    sorts (some query) = sorts (some other) := by
  rw [sorts_some, sorts_some, Bool.eq_iff_iff, hasOrderBy_eq_true, hasOrderBy_eq_true]
  exact ⟨fun hquery => hquery.recased h.symm, fun hother => hother.recased h⟩

theorem filter_isSorting_nameReport (item : NamedItem) (earlier : List String) (name : String) :
    (nameReport item earlier name).filter Problem.isSorting = [] := by
  simp [nameReport, filter_reported, Problem.isSorting]

theorem filter_isSorting_sourceReport (earlier : List Source) (s : Source) :
    (sourceReport earlier s).filter Problem.isSorting =
      reported (Sorts s.query) (.sortedSource s.name) := by
  rw [sourceReport, List.filter_append, filter_isSorting_nameReport, filter_reported,
    List.nil_append]
  exact reported_congr sorts_iff _

/-- The rules for the type of a target, its aggregations and its properties do not look at
queries. -/
theorem filter_isSorting_typeReport (t : Target) :
    (typeReport t).filter Problem.isSorting = [] := by
  unfold typeReport
  cases t.type <;>
    simp [nodeReport, edgeReport, queryReport, List.filter_flatMap, filter_reported,
      Problem.isSorting]

theorem filter_isSorting_targetReport (spec : JobSpec) (earlier : List Target) (t : Target) :
    (targetReport spec earlier t).filter Problem.isSorting =
      reported (Sorts t.transform.sql) (.sortedTarget t.name) := by
  have haggregations : (aggregationReport t).filter Problem.isSorting = [] := by
    simp [aggregationReport, List.filter_flatMap, filter_reported, Problem.isSorting]
  have hproperties : (if t.type = .customQuery then [] else cardinalityReport t).filter
      Problem.isSorting = [] := by
    split <;> simp [cardinalityReport, List.filter_flatMap, filter_reported, Problem.isSorting]
  have hreference : (referenceReport spec t).filter Problem.isSorting =
      reported (Sorts t.transform.sql) (.sortedTarget t.name) := by
    rw [referenceReport]
    simp only [List.filter_append, filter_reported, Problem.isSorting, Bool.false_eq_true, if_false,
      if_true, List.nil_append]
    exact reported_congr sorts_iff _
  simp only [targetReport, List.filter_append, filter_isSorting_nameReport, hreference,
    filter_isSorting_typeReport, haggregations, hproperties, List.nil_append, List.append_nil]

theorem sortings_report (spec : JobSpec) :
    sortings (report spec) =
      spec.sources.flatMap (fun s => reported (Sorts s.query) (.sortedSource s.name)) ++
        spec.activeTargets.flatMap fun t =>
          reported (Sorts t.transform.sql) (.sortedTarget t.name) := by
  have hpart (q : Problem) (hq : q.isSorting = true) : q.part = .sources ∨ q.part = .targets := by
    cases q <;> cases hq
    · exact .inl rfl
    · exact .inr rfl
  rw [sortings, filter_report spec hpart, filter_alongside filter_isSorting_sourceReport,
    filter_alongside (filter_isSorting_targetReport spec)]

/-- A query sorts its rows exactly when it splits around a sorting clause. It does so in any case
of its letters and with any text before and after it, and looking first whether it is blank loses
no clause. Of every job spec the queries of all sources and of all active targets are judged by
this, each by itself. -/
theorem sorting_judged_by_clause :
    (∀ query?, sorts query? = true ↔ Sorts query?) ∧
    (∀ query other, SameButCase query other → sorts (some query) = sorts (some other)) ∧
    (∀ query before after, sorts (some query) = true →
      sorts (some (before ++ query ++ after)) = true) ∧
    (∀ query, sorts (some query) = hasOrderBy query.toList) ∧
    ∀ spec : JobSpec, spec.Modelled → ∃ problems, problemsOf spec = .ok problems ∧
      sortings problems =
        spec.sources.flatMap (fun s => reported (Sorts s.query) (.sortedSource s.name)) ++
          spec.activeTargets.flatMap fun t =>
            reported (Sorts t.transform.sql) (.sortedTarget t.name) := by
  refine ⟨fun _ => sorts_iff, fun _ _ => sorts_recased, ?_, sorts_some, ?_⟩
  · intro query before after hquery
    rw [sorts_some, hasOrderBy_eq_true] at hquery ⊢
    rw [String.toList_append, String.toList_append]
    exact hquery.within before.toList after.toList
  · exact fun spec hmodelled => ⟨_, problemsOf_eq_report hmodelled, sortings_report spec⟩

/-- Clauses within longer words and around wide spaces, and words that are no clause. -/
def ledger : JobSpec where
  sources := [
    { name := "rows", query := "SELECT ordorder\u3000\tbYte" },
    { name := "rest", query := "SELECT orderby, order-by" },
    { name := "rows", query := "order\x1cby" }]
  targets := [
    { name := "off", active := false, type := .node, transform := { sql := "ORDER BY 1" } },
    { name := "sum", type := .customQuery, transform := { sql := "RETURN 1\nOrder\nBy 1" } }]

theorem ledger_sortings :
    SameButCase "Order by 1" "oRDER bY 1" ∧ sorts (some "oRDER bY 1") = true ∧
      sorts (some "ordoRDER bY 1byby") = true ∧ ledger.Modelled ∧
      ∃ problems, problemsOf ledger = .ok problems ∧
        sortings problems = [.sortedSource "rows", .sortedSource "rows", .sortedTarget "sum"] := by
  obtain ⟨_, hcase, hwithin, _, hspec⟩ := sorting_judged_by_clause
  have hsame : SameButCase "Order by 1" "oRDER bY 1" := by decide
  have hsorts : sorts (some "oRDER bY 1") = true := (hcase _ _ hsame).symm.trans (by decide)
  have hmodelled : ledger.Modelled := by
    unfold JobSpec.Modelled
    decide
  obtain ⟨problems, hproblems, hsortings⟩ := hspec ledger hmodelled
  refine ⟨hsame, hsorts, hwithin _ "ord" "byby" hsorts, hmodelled, problems, hproblems, ?_⟩
  rw [hsortings]
  decide +kernel

end GraphImport.Rules
