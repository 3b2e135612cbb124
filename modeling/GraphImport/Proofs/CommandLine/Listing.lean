import Mathlib.Tactic.TFAE
import GraphImport.Proofs.CommandLine.Verdict
import GraphImport.Proofs.Rules.Texts

/-!
# The listing on the console

Problems are listed one below the other. Names, fields and constants of the job spec stand in the
messages as they are, so whoever reads the listing line by line finds one line for each problem
exactly when no line ends within a text that is quoted. Sequences for colours and styles are left
out of the listing, so the messages are found again when none of these texts holds one either.
-/

namespace GraphImport.CommandLine

open Options (RunOptions runMessages)
open Report (Item)
open Rules (Quotes problemsOf report specTexts)
open Spec (JobSpec Notice loadForRun)
open Text (EndsLines Plain StandsOnLine Unbroken pageLines unstyled)

/-- The entry for a problem. -/
def entry (problem : String) : String := s!"  - {problem}"

/-- The entry as it stands in the listing. -/
def shownEntry (problem : String) : String := unstyled (entry problem)

/-- The text behind the dash of a line. -/
def behindDash (line : String) : String :=
  String.ofList (line.toList.drop 4)

/-- The texts that the problems of a job spec quote, if one was loaded. -/
def quotedTexts (spec? : Option JobSpec) : List String :=
  spec?.toList.flatMap fun spec => (report spec).flatMap Rules.Problem.texts

theorem plain_dash : Plain "  - " := .ofList (by decide)

theorem behindDash_append (text : String) : behindDash ("  - " ++ text) = text := by
  have hchars : ("  - " ++ text).toList = ' ' :: ' ' :: '-' :: ' ' :: text.toList :=
    String.toList_append
  rw [behindDash, hchars]
  exact String.ofList_toList

theorem shownEntry_eq (problem : String) : shownEntry problem = "  - " ++ unstyled problem := by
  have hparts := plain_dash.isClosed problem
  rwa [plain_dash.unstyled_eq] at hparts

/-- The messages of a run, whose job spec was loaded if it names one. -/
theorem Loading.messages {w : Surroundings} {o : RunOptions} {spec? : Option JobSpec}
    {notice? : Option Notice} (h : Loading w o spec? notice?) :
    runMessages o spec? = .ok (o.problems.map Options.Problem.message ++
      (spec?.toList.flatMap report).map Rules.Problem.message) := by
  cases h with
  | unnamed => exact congrArg Except.ok (List.append_nil _).symm
  | loaded hlocation hgiven hload =>
    obtain ⟨origin, raw, hread⟩ := Spec.loadForRun_eq_ok hload
    rw [Options.runMessages_some o (JobSpec.ofDocument_modelled hread)]
    simp
  | failed => exact congrArg Except.ok (List.append_nil _).symm

/-- Messages about the options quote nothing. -/
theorem quotes_optionMessage (p : Options.Problem) : Quotes [] p.message := by
  cases p with
  | malformedSecret =>
    exact Rules.Opening.ofList (by decide) |>.fixed (by decide) |>.quotes
  | _ => exact .plain (.ofList (by decide))

/-- What holds of a message exactly when it holds of the texts that it quotes holds of all messages
of a run exactly when it holds of all these texts. -/
theorem forall_message_iff {P : String → Prop}
    (hP : ∀ {texts s}, Quotes texts s → (P s ↔ ∀ t ∈ texts, P t)) (o : RunOptions)
    (spec? : Option JobSpec) :
    (∀ s ∈ o.problems.map Options.Problem.message ++
      (spec?.toList.flatMap report).map Rules.Problem.message, P s) ↔
    ∀ t ∈ quotedTexts spec?, P t := by
  have hown : ∀ s ∈ o.problems.map Options.Problem.message, P s := by
    rw [List.forall_mem_map]
    exact fun p _ => (hP (quotes_optionMessage p)).mpr (List.forall_mem_nil _)
  rw [List.forall_mem_append, and_iff_right hown, quotedTexts]
  simp only [List.forall_mem_map, List.forall_mem_flatMap,
    fun p : Rules.Problem => hP p.message_quotes]

section Lines

variable {ends : Char → Bool}

theorem unbroken_shownEntry (hends : EndsLines ends) {problem : String} :
    Unbroken ends (shownEntry problem) ↔ Unbroken ends (unstyled problem) := by
  rw [shownEntry_eq]
  exact Text.unbroken_append.trans (and_iff_right (plain_dash.unbroken hends))

theorem length_pageLines_iff (hends : EndsLines ends) (problems : List String) :
    (pageLines ends (problems.map shownEntry)).length = problems.length ↔
      ∀ p ∈ problems, Unbroken ends (unstyled p) := by
  have hlength : (problems.map shownEntry).length = problems.length := List.length_map _
  simp only [← unbroken_shownEntry hends]
  rw [← List.forall_mem_map, ← hlength]
  refine ⟨Text.unbroken_of_length hends, fun h => ?_⟩
  rw [Text.pageLines_of_unbroken hends h]

/-- Whoever reads a listing line by line finds the entries and the problems again exactly when all
problems are shown as they stand, on one line each. -/
theorem listing_tfae (hends : EndsLines ends) (problems : List String) : List.TFAE [
    ∀ p ∈ problems, StandsOnLine ends p,
    pageLines ends (problems.map shownEntry) = problems.map entry,
    (pageLines ends (problems.map shownEntry)).map behindDash = problems] := by
  tfae_have 1 → 2 := by
    intro h
    have hsame : problems.map shownEntry = problems.map entry :=
      List.map_congr_left fun p hp => by
        rw [shownEntry_eq, (Text.standsOnLine_iff.mp (h p hp)).2]
        rfl
    rw [Text.pageLines_of_unbroken hends, hsame]
    rw [List.forall_mem_map]
    exact fun p hp => (unbroken_shownEntry hends).mpr (Text.standsOnLine_iff.mp (h p hp)).1
  tfae_have 2 → 3 := by
    intro h
    have hid : behindDash ∘ entry = id := funext behindDash_append
    rw [h, List.map_map, hid, List.map_id]
  tfae_have 3 → 1 := by
    intro h p hp
    have hlength : (pageLines ends (problems.map shownEntry)).length = problems.length := by
      rw [← List.length_map behindDash, h]
    have hunbroken := (length_pageLines_iff hends problems).mp hlength
    have hentries : ∀ s ∈ problems.map shownEntry, Unbroken ends s := by
      rw [List.forall_mem_map]
      exact fun p hp => (unbroken_shownEntry hends).mpr (hunbroken p hp)
    rw [Text.pageLines_of_unbroken hends hentries, List.map_map] at h
    have hself : behindDash (shownEntry p) = p :=
      List.map_inj_left.mp (h.trans (List.map_id problems).symm) p hp
    rw [shownEntry_eq, behindDash_append] at hself
    exact Text.standsOnLine_iff.mpr ⟨hunbroken p hp, hself⟩
  tfae_finish

end Lines

/-- In the console format a validation that finds problems lists them after a heading, each behind a
dash and without sequences for colours and styles. Whatever ends a line for who reads it, the
listing has a line for each problem exactly when no line ends within what is left of a text that a
message quotes. The problems can be read back from the lines exactly when besides no such text
holds a sequence. It is enough that no line ends and no sequence stands within a name, field or
constant of the job spec. -/
theorem listing_read_by_line (w : Surroundings) (args : List String) (o : RunOptions)
    (spec? : Option JobSpec) (notice? : Option Notice) (ends : Char → Bool)
    (hasks : Asks w args .console o) (hloading : Loading w o spec? notice?)
    (hends : EndsLines ends) :
    ∃ problems, runMessages o spec? = .ok problems ∧
      (problems ≠ [] → ∃ before, (∀ item ∈ before, Preliminary item) ∧
        (run w args).output.stderr = before ++
          (.text "Validation failed:" :: (problems.map shownEntry).map .text) ++
            notice?.toList.map fun n => .panel n.title ("\n".intercalate (noticeLines n))) ∧
      ((pageLines ends (problems.map shownEntry)).length = problems.length ↔
        ∀ t ∈ quotedTexts spec?, Unbroken ends (unstyled t)) ∧
      List.TFAE [
        ∀ t ∈ quotedTexts spec?, StandsOnLine ends t,
        pageLines ends (problems.map shownEntry) = problems.map entry,
        (pageLines ends (problems.map shownEntry)).map behindDash = problems] ∧
      ((∀ spec ∈ spec?, ∀ s ∈ specTexts spec, StandsOnLine ends s) →
        ∀ t ∈ quotedTexts spec?, StandsOnLine ends t) := by
  obtain ⟨problems, hproblems, hverdict⟩ := verdict_of_loading hasks hloading
  have hmessages : problems = o.problems.map Options.Problem.message ++
      (spec?.toList.flatMap report).map Rules.Problem.message :=
    Except.ok.inj (hproblems.symm.trans hloading.messages)
  refine ⟨problems, hproblems, fun hsome => ?_, ?_, ?_, fun hspec t ht => ?_⟩
  · obtain ⟨before, hbefore, hstderr⟩ := (hverdict.console rfl).stderr
    refine ⟨before, hbefore, ?_⟩
    rw [hstderr, if_neg hsome, List.map_map]
    rfl
  · rw [length_pageLines_iff hends, hmessages]
    exact forall_message_iff (fun h => h.unbroken_iff hends) o spec?
  · have htfae := listing_tfae hends problems
    have hquoted : (∀ p ∈ problems, StandsOnLine ends p) ↔
        ∀ t ∈ quotedTexts spec?, StandsOnLine ends t := by
      rw [hmessages]
      exact forall_message_iff (fun h => h.standsOnLine_iff hends) o spec?
    rwa [hquoted] at htfae
  · obtain ⟨spec, hmem, hmore⟩ := List.mem_flatMap.mp ht
    obtain ⟨p, hp, htext⟩ := List.mem_flatMap.mp hmore
    exact Rules.standsOnLine_report hends (hspec spec (Option.mem_toList.mp hmem)) p hp t htext

/-- The problems of a job spec without source and query quote nothing but its name. -/
theorem quotedTexts_queryless {w : Surroundings} {o : RunOptions} {spec : JobSpec}
    {name : String} (hloading : Loading w o (some spec) none)
    (hproblems : problemsOf spec = .ok [.noSource, .noQuery name]) :
    quotedTexts (some spec) = [name] := by
  cases hloading with
  | loaded hlocation hgiven hload =>
    obtain ⟨origin, raw, hread⟩ := Spec.loadForRun_eq_ok hload
    have hreport := Except.ok.inj
      ((Rules.problemsOf_eq_report (JobSpec.ofDocument_modelled hread)).symm.trans hproblems)
    change (report spec).flatMap Rules.Problem.texts ++ [] = [name]
    rw [hreport]
    rfl

theorem queryless_listed : ∃ spec before,
    Asks (querylessDirectory "t") (rowsArguments "console") .console rowsOptions ∧
    Loading (querylessDirectory "t") rowsOptions (some spec) none ∧ EndsLines (· == '\n') ∧
    (run (querylessDirectory "t") (rowsArguments "console")).output.stderr = before ++
      [.text "Validation failed:",
        .text (entry "Targets must include a 'source' attribute that maps to a 'source.name'."),
        .text (entry "Custom target must define a query: t")] ∧
    pageLines (· == '\n')
      [entry "Targets must include a 'source' attribute that maps to a 'source.name'.",
        entry "Custom target must define a query: t"] =
      [entry "Targets must include a 'source' attribute that maps to a 'source.name'.",
        entry "Custom target must define a query: t"] := by
  obtain ⟨spec, hloading, hfound, hmessages⟩ := plainName_loads.loading
  have hasks := asks_queryless "t"
  obtain ⟨problems, hproblems, hstderr, _, htfae, _⟩ :=
    listing_read_by_line _ _ _ _ _ _ hasks hloading Text.endsLines_lineFeed
  cases hproblems.symm.trans hmessages
  obtain ⟨before, _, hshown⟩ := hstderr (List.cons_ne_nil _ _)
  have hstands : ∀ t ∈ quotedTexts (some spec), StandsOnLine (· == '\n') t := by
    rw [quotedTexts_queryless hloading hfound, List.forall_mem_singleton]
    exact (Plain.ofList (by decide)).standsOnLine Text.endsLines_lineFeed
  exact ⟨spec, before, hasks, hloading, Text.endsLines_lineFeed,
    hshown.trans (List.append_nil _), (htfae.out 0 1).mp hstands⟩

/-- A name can hold a line feed and what looks like another entry. -/
theorem brokenName_not_listed_by_line : ∃ spec problems before,
    Asks (querylessDirectory "t\\n  - Source is not named") (rowsArguments "console") .console
      rowsOptions ∧
    Loading (querylessDirectory "t\\n  - Source is not named") rowsOptions (some spec) none ∧
    runMessages rowsOptions (some spec) = .ok problems ∧ problems.length = 2 ∧
    (run (querylessDirectory "t\\n  - Source is not named")
      (rowsArguments "console")).output.stderr = before ++
        (.text "Validation failed:" :: (problems.map entry).map .text) ∧
    pageLines (· == '\n') (problems.map entry) =
      [entry "Targets must include a 'source' attribute that maps to a 'source.name'.",
        entry "Custom target must define a query: t", entry "Source is not named"] := by
  obtain ⟨spec, hloading, hfound, hmessages⟩ := brokenName_loads.loading
  have hasks := asks_queryless "t\\n  - Source is not named"
  obtain ⟨problems, hproblems, hverdict⟩ := verdict_of_loading hasks hloading
  cases hproblems.symm.trans hmessages
  obtain ⟨before, _, hstderr⟩ := (hverdict.console rfl).stderr
  rw [if_neg (List.cons_ne_nil _ _)] at hstderr
  exact ⟨spec, _, before, hasks, hloading, hmessages, rfl, hstderr.trans (List.append_nil _),
    by decide⟩

end GraphImport.CommandLine
