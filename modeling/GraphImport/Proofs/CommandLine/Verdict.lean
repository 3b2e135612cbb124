import GraphImport.CommandLine.Run
import GraphImport.Proofs.Except
import GraphImport.Proofs.Log.Notes
import GraphImport.Proofs.Options.Verdict
import GraphImport.Proofs.Report.Line
import GraphImport.Proofs.Spec.Loading

/-!
# The verdict of the program

A validation whose options are known ends with a verdict: the exit code, the report in either
format and the panel about a job spec that cannot be loaded all say the same.
-/

namespace GraphImport.CommandLine

open Document (Value)
open Options (Given RunOptions runMessages)
open Report (Format Item Output noticeBody)
open Rules (problemsOf)
open Spec (JobSpec Notice loadForRun)
open Text (unstyled)

-- What loading these directories comes to takes the kernel seconds to find out, so it is found out
-- here, before anything waits for it.
section Directories

def rowsText : String :=
  "sources: [\x7bname: r\x7d]\n" ++
    "targets: [\x7bname: t, type: custom_query, source: r, custom_query: q\x7d]"

/-- A directory with a job spec that copies rows by a query. -/
def rowsDirectory : Surroundings where
  files := { entries := [({ names := ["job.yaml"] }, .file rowsText.toUTF8.data.toList)] }

theorem rows_load :
    ((loadForRun {} rowsDirectory.files "job.yaml").toOption.any fun spec =>
      decide ((problemsOf spec).toOption = some [])) = true := by
  decide +kernel

/-- A directory with a job spec for a target of a name, which lacks its source and its query. -/
def querylessDirectory (name : String) : Surroundings where
  files := { entries := [({ names := ["job.yaml"] },
    .file s!"targets: [\x7btype: custom_query, name: \x22{name}\x22\x7d]".toUTF8.data.toList)] }

/-- Whether the target is read under a name, and all its problems are that it lacks its source and
its query. -/
def LoadsQueryless (written name : String) : Prop :=
  ((loadForRun {} (querylessDirectory written).files "job.yaml").toOption.any fun spec =>
    decide ((problemsOf spec).toOption = some [.noSource, .noQuery name])) = true

/-- A name that is read as it is written. -/
theorem plainName_loads : LoadsQueryless "t" "t" := by
  unfold LoadsQueryless
  decide +kernel

/-- A name with a sequence for a colour. -/
theorem styledName_loads : LoadsQueryless "t\\e[31mx" "t\x1b[31mx" := by
  unfold LoadsQueryless
  decide +kernel

/-- A name with a line feed and what looks like another entry. -/
theorem brokenName_loads :
    LoadsQueryless "t\\n  - Source is not named" "t\n  - Source is not named" := by
  unfold LoadsQueryless
  decide +kernel

end Directories

/-- Whether arguments ask for a validation in a format, the options of which can be put
together. -/
def Asks (w : Surroundings) (args : List String) (format : Format) (o : RunOptions) : Prop :=
  ∃ setup rest env said v,
    Request.read args = .ok (.command setup rest) ∧
    prepare w (sessionOf setup) setup = .ok (env, said) ∧
    Validation.read? rest = .ok (some v) ∧ v.format = format ∧
    RunOptions.assemble w.files env v.settings v.explicit = .ok o

/-- How it ends to load the job spec that options name, if they name one. -/
inductive Loading (w : Surroundings) (o : RunOptions) : Option JobSpec → Option Notice → Prop
  | unnamed (h : ¬ Given o.jobSpecUri) : Loading w o none none
  | loaded {location : String} {spec : JobSpec} (hlocation : o.jobSpecUri = some location)
      (hgiven : location ≠ "") (hload : loadForRun w.home w.files location = .ok spec) :
      Loading w o (some spec) none
  | failed {location : String} {n : Notice} (hlocation : o.jobSpecUri = some location)
      (hgiven : location ≠ "") (hload : loadForRun w.home w.files location = .error (.notice n)) :
      Loading w o none (some n)

/-- What can be shown before a verdict: log lines, and that a file of variables is ignored. -/
def Preliminary (item : Item) : Prop :=
  (∃ line, item = .log line) ∨
    item = .text "Warning: --env-file ignored because --no-dotenv is set."

/-- One line of JSON with the problems and the message about the job spec, valid on success. -/
structure JsonVerdict (problems : List String) (notice? : Option Notice) (out : Outcome) :
    Prop where
  stdout : ∃ line, out.output.stdout = line ++ "\n" ∧ '\n' ∉ line.toList ∧
    Json.read line = .ok (.record [
      ("valid", .bool (out.exitCode == 0)),
      ("problems", .list ((problems ++ notice?.toList.map Notice.message).map .text))])

/-- The lines in the panel about a job spec: the message, then the details with an empty line before
and after them, and the hint. -/
def noticeLines (n : Notice) : List String :=
  let details := n.details.getD []
  n.message :: ((if details = [] then [] else "" :: details.map ("  • " ++ ·) ++ [""]) ++
    n.hint.toList.map ("Hint: " ++ ·))

/-- A line on success, and otherwise each of the problems, in order, behind a dash under a heading,
and then the panel about the job spec. Sequences for colours and styles are left out. -/
structure ConsoleVerdict (problems : List String) (notice? : Option Notice) (out : Outcome) :
    Prop where
  stdout : out.output.stdout = if out.exitCode = 0 then "Job spec valid.\n" else ""
  heading : .text "Validation failed:" ∈ out.output.stderr ↔ problems ≠ []
  stderr : ∃ before, (∀ item ∈ before, Preliminary item) ∧
    out.output.stderr = before ++
      (if problems = [] then [] else
        .text "Validation failed:" :: problems.map fun p => .text (unstyled ("  - " ++ p))) ++
      notice?.toList.map fun n => .panel n.title ("\n".intercalate (noticeLines n))

structure Verdict (format : Format) (problems : List String) (notice? : Option Notice)
    (out : Outcome) : Prop where
  ended : out.escaped = none
  exitCode : out.exitCode = if problems = [] ∧ notice? = none then 0 else 1
  json : format = .json → JsonVerdict problems notice? out
  console : format = .console → ConsoleVerdict problems notice? out

section Outcomes

/-- Output that comes before a verdict. -/
structure Quiet (earlier : Output) : Prop where
  stdout : earlier.stdout = ""
  stderr : ∀ item ∈ earlier.stderr, Preliminary item

theorem quiet_empty : Quiet {} :=
  ⟨rfl, fun _ h => absurd h List.not_mem_nil⟩

theorem quiet_logged (lines : List Log.Line) : Quiet (logged lines) := by
  refine ⟨rfl, fun item hitem => Or.inl ?_⟩
  obtain ⟨line, _, rfl⟩ := List.mem_map.mp hitem
  exact ⟨line, rfl⟩

theorem heading_not_preliminary : ¬ Preliminary (.text "Validation failed:") := by
  rintro (⟨line, h⟩ | h)
  · exact Item.noConfusion h
  · exact absurd (Item.text.inj h) (by decide)

theorem after_stdout {earlier : Output} (hquiet : Quiet earlier) (out : Outcome) :
    (out.after earlier).output.stdout = out.output.stdout := by
  change earlier.stdout ++ out.output.stdout = _
  rw [hquiet.stdout, String.empty_append]

theorem after_stderr (earlier : Output) (out : Outcome) :
    (out.after earlier).output.stderr = earlier.stderr ++ out.output.stderr := rfl

/-- What comes before a verdict does not change it. -/
theorem Verdict.after {format : Format} {problems : List String} {notice? : Option Notice}
    {out : Outcome} (h : Verdict format problems notice? out) {earlier : Output}
    (hquiet : Quiet earlier) : Verdict format problems notice? (out.after earlier) where
  ended := h.ended
  exitCode := h.exitCode
  json hformat := by
    obtain ⟨hstdout⟩ := h.json hformat
    exact ⟨by rw [after_stdout hquiet]; exact hstdout⟩
  console hformat := by
    obtain ⟨hstdout, hheading, before, hbefore, hstderr⟩ := h.console hformat
    refine ⟨(after_stdout hquiet out).trans hstdout, ?_, earlier.stderr ++ before, ?_, ?_⟩
    · rw [after_stderr, List.mem_append, ← hheading]
      exact ⟨fun hitem => hitem.resolve_left fun hmem =>
        heading_not_preliminary (hquiet.stderr _ hmem), Or.inr⟩
    · intro item hitem
      rcases List.mem_append.mp hitem with hitem | hitem
      · exact hquiet.stderr item hitem
      · exact hbefore item hitem
    · rw [after_stderr, hstderr]
      simp only [List.append_assoc]

/-- The outcome of a validation, by its problems and what keeps the job spec from loading. -/
def concluded (format : Format) (problems : List String) : Option Notice → Outcome
  | none => conclude format problems
  | some n => concludeUnloaded format problems n

theorem exitCode_concluded (format : Format) (problems : List String) (notice? : Option Notice) :
    (concluded format problems notice?).exitCode =
      if problems = [] ∧ notice? = none then 0 else 1 := by
  cases notice? with
  | none => simp [concluded, conclude, List.isEmpty_iff]
  | some n => simp [concluded, concludeUnloaded]

/-- A JSON report says that all is valid exactly when the exit code does. -/
theorem exitCode_concluded_beq_zero (format : Format) (problems : List String)
    (notice? : Option Notice) : ((concluded format problems notice?).exitCode == 0) =
      (problems ++ notice?.toList.map Notice.message).isEmpty := by
  rw [exitCode_concluded]
  cases notice? with
  | none => cases problems <;> rfl
  | some n => cases problems <;> rfl

theorem jsonVerdict_concluded (problems : List String) (notice? : Option Notice) :
    JsonVerdict problems notice? (concluded .json problems notice?) := by
  have hstdout : (concluded .json problems notice?).output.stdout =
      Report.jsonLine (problems ++ notice?.toList.map Notice.message) ++ "\n" := by
    cases notice? with
    | none =>
      change (Report.ofProblems .json problems).stdout = _
      rw [Report.ofProblems_json, Option.toList_none, List.map_nil, List.append_nil]
      rfl
    | some n =>
      change (Report.ofProblems .json (problems ++ [n.message])).stdout ++ "" = _
      rw [Report.ofProblems_json, String.append_empty]
      rfl
  refine ⟨_, hstdout, Report.newline_notMem_jsonLine _, ?_⟩
  rw [Report.read_jsonLine, Report.document, exitCode_concluded_beq_zero]

theorem join_ended (lines : List String) :
    String.join (lines.map (· ++ "\n")) = "\n".intercalate (lines ++ [""]) := by
  induction lines with
  | nil => rfl
  | cons line rest ih =>
    have hrest : rest ++ [""] ≠ [] := List.append_ne_nil_of_right_ne_nil _ (List.cons_ne_nil _ _)
    rw [List.map_cons, String.join_cons, ih, List.cons_append,
      String.intercalate_cons_of_ne_nil hrest]

theorem noticeBody_of_no_hint (title message : String) (details? : Option (List String)) :
    noticeBody ⟨title, message, details?, none⟩ =
      "\n".intercalate (noticeLines ⟨title, message, details?, none⟩) := by
  have hnone : message ++ "" ++ "" = "\n".intercalate [message] := by
    rw [String.append_empty, String.append_empty, String.intercalate_singleton]
  match details? with
  | none => exact hnone
  | some [] => exact hnone
  | some (d :: details) =>
    have hdetails : noticeLines ⟨title, message, some (d :: details), none⟩ =
        [message, ""] ++ ((d :: details).map ("  • " ++ ·) ++ [""]) := by
      simp [noticeLines]
    have hblank : "\n".intercalate [message, ""] ++ "\n" = message ++ "\n\n" := by
      rw [String.intercalate_cons_cons, String.intercalate_singleton, String.append_assoc,
        String.append_assoc]
      rfl
    have hended : (d :: details).map ("  • " ++ ·) ++ [""] ≠ [] :=
      List.append_ne_nil_of_right_ne_nil _ (List.cons_ne_nil _ _)
    rw [hdetails, String.intercalate_append_of_ne_nil (List.cons_ne_nil _ _) hended,
      ← join_ended, hblank, List.map_map, String.append_assoc]
    exact String.append_empty

theorem noticeBody_eq (n : Notice) : noticeBody n = "\n".intercalate (noticeLines n) := by
  obtain ⟨title, message, details?, hint?⟩ := n
  have hplain := noticeBody_of_no_hint title message details?
  cases hint? with
  | none => exact hplain
  | some hint =>
    have hlines : noticeLines ⟨title, message, details?, some hint⟩ =
        noticeLines ⟨title, message, details?, none⟩ ++ ["Hint: " ++ hint] := by
      simp [noticeLines]
    have hfilled : noticeLines ⟨title, message, details?, none⟩ ≠ [] := List.cons_ne_nil _ _
    rw [hlines, String.intercalate_append_of_ne_nil hfilled (List.cons_ne_nil _ _), ← hplain, String.intercalate_singleton, String.append_assoc]
    exact congrArg (· ++ ("\n" ++ ("Hint: " ++ hint))) String.append_empty.symm

theorem stderr_concluded (problems : List String) (notice? : Option Notice) :
    (concluded .console problems notice?).output.stderr =
      (if problems = [] then [] else
        .text "Validation failed:" :: problems.map fun p => .text (unstyled ("  - " ++ p))) ++
      notice?.toList.map fun n => .panel n.title ("\n".intercalate (noticeLines n)) := by
  cases notice? with
  | none =>
    cases problems with
    | nil => rfl
    | cons p problems => exact (List.append_nil _).symm
  | some n =>
    rw [Option.toList_some, List.map_singleton, ← noticeBody_eq]
    cases problems <;> rfl

theorem consoleVerdict_concluded (problems : List String) (notice? : Option Notice) :
    ConsoleVerdict problems notice? (concluded .console problems notice?) := by
  refine ⟨?_, ?_, [], fun _ h => absurd h List.not_mem_nil, stderr_concluded problems notice?⟩
  · rw [exitCode_concluded]
    cases notice? with
    | none => cases problems <;> rfl
    | some n => cases problems <;> rfl
  · have hpanel : Item.text "Validation failed:" ∉ notice?.toList.map
        fun n => .panel n.title ("\n".intercalate (noticeLines n)) := by
      intro hitem
      obtain ⟨n, _, hn⟩ := List.mem_map.mp hitem
      exact Item.noConfusion hn
    rw [stderr_concluded, List.mem_append, or_iff_left hpanel]
    cases problems <;> simp

theorem verdict_concluded (format : Format) (problems : List String) (notice? : Option Notice) :
    Verdict format problems notice? (concluded format problems notice?) where
  ended := by cases notice? <;> rfl
  exitCode := exitCode_concluded format problems notice?
  json hformat := hformat ▸ jsonVerdict_concluded problems notice?
  console hformat := hformat ▸ consoleVerdict_concluded problems notice?

end Outcomes

theorem sessionOf_bound (setup : Setup) : (sessionOf setup).bound = [] :=
  Log.Session.configure_bound {} _ _

/-- What is said before the command runs comes before its verdict. -/
theorem addEnvFile_quiet {w : Surroundings} {s : Log.Session} {path : Files.Path}
    {env : List (String × String)} {said : Output} (h : addEnvFile w s path = .ok (env, said)) :
    Quiet said := by
  unfold addEnvFile at h
  split at h
  · cases h
    exact quiet_empty
  · obtain ⟨text, _, h⟩ := except_bind_eq_ok.mp h
    obtain ⟨env, _, h⟩ := except_bind_eq_ok.mp h
    cases h
    exact quiet_logged _

theorem prepare_quiet {w : Surroundings} {s : Log.Session} {setup : Setup}
    {env : List (String × String)} {said : Output} (h : prepare w s setup = .ok (env, said)) :
    Quiet said := by
  unfold prepare at h
  split at h
  next =>
    cases h
    exact quiet_empty
  next path _ =>
    split at h
    · cases h
      refine ⟨rfl, fun item hitem => Or.inr ?_⟩
      exact List.mem_singleton.mp hitem
    · split at h
      · cases h
      · cases h
      · exact addEnvFile_quiet h

theorem after_empty (out : Outcome) : out.after {} = out := by
  cases out with
  | mk exitCode output escaped =>
    change Outcome.mk exitCode ⟨"" ++ output.stdout, [] ++ output.stderr⟩ escaped = _
    rw [String.empty_append, List.nil_append]

theorem loadNamed_of_given {w : Surroundings} {o : RunOptions} {location : String}
    (hlocation : o.jobSpecUri = some location) (hgiven : location ≠ "") :
    loadNamed w o = some <$> loadForRun w.home w.files location := by
  rw [loadNamed, Options.given?_eq_some.mpr ⟨hlocation, hgiven⟩]

/-- A validation with known options ends, after log lines, with the outcome for its problems. -/
theorem validateOptions_eq {w : Surroundings} {s : Log.Session} (hbound : s.bound = [])
    (format : Format) {o : RunOptions} {spec? : Option JobSpec} {notice? : Option Notice}
    (hloading : Loading w o spec? notice?) :
    ∃ problems earlier, runMessages o spec? = .ok problems ∧ Quiet earlier ∧
      validateOptions w s format o = (concluded format problems notice?).after earlier := by
  cases hloading with
  | unnamed h =>
    have hnone : Options.given? o.jobSpecUri = none :=
      Option.isNone_iff_eq_none.mp (Options.given?_isNone.mpr h)
    refine ⟨_, logged [], rfl, quiet_logged [], ?_⟩
    rw [validateOptions, loadNamed, hnone]
    rfl
  | @loaded location spec hlocation hgiven hload =>
    obtain ⟨origin, raw, hread⟩ := Spec.loadForRun_eq_ok hload
    have hproblems := Options.runMessages_some o (JobSpec.ofDocument_modelled hread)
    have hloaded : loadNamed w o = .ok (some spec) := by
      rw [loadNamed_of_given hlocation hgiven, hload]
      rfl
    have hnotes := Log.Session.logNotes_fault hbound (Rules.notesOf spec)
    cases hlog : s.logNotes (Rules.notesOf spec) with
    | mk lines fault? =>
      rw [hlog] at hnotes
      cases hnotes
      refine ⟨_, logged lines, hproblems, quiet_logged lines, ?_⟩
      simp only [validateOptions, hloaded, notesFor, hlog, hproblems]
      rfl
  | @failed location n hlocation hgiven hload =>
    refine ⟨_, {}, rfl, quiet_empty, ?_⟩
    rw [validateOptions, loadNamed_of_given hlocation hgiven, hload, after_empty]
    rfl

theorem Loading.withEnv {w : Surroundings} {o : RunOptions} {spec? : Option JobSpec}
    {notice? : Option Notice} (h : Loading w o spec? notice?) (env : List (String × String)) :
    Loading { w with env } o spec? notice? := by
  cases h with
  | unnamed h => exact .unnamed h
  | loaded hlocation hgiven hload => exact .loaded hlocation hgiven hload
  | failed hlocation hgiven hload => exact .failed hlocation hgiven hload

/-- A run of the program that asks for a validation shows, after what comes before, the outcome
for the problems. -/
theorem run_eq {w : Surroundings} {args : List String} {format : Format} {o : RunOptions}
    {spec? : Option JobSpec} {notice? : Option Notice} (hasks : Asks w args format o)
    (hloading : Loading w o spec? notice?) :
    ∃ problems said earlier, runMessages o spec? = .ok problems ∧ Quiet said ∧ Quiet earlier ∧
      run w args = ((concluded format problems notice?).after earlier).after said := by
  obtain ⟨setup, rest, env, said, v, hrequest, hprepare, hread, rfl, hassemble⟩ := hasks
  obtain ⟨problems, earlier, hproblems, hearlier, houtcome⟩ :=
    validateOptions_eq (sessionOf_bound setup) v.format (hloading.withEnv env)
  refine ⟨problems, said, earlier, hproblems, prepare_quiet hprepare, hearlier, ?_⟩
  rw [run, hrequest]
  simp only [hprepare, hread, validate, hassemble, houtcome]

theorem verdict_of_loading {w : Surroundings} {args : List String} {format : Format}
    {o : RunOptions} {spec? : Option JobSpec} {notice? : Option Notice}
    (hasks : Asks w args format o) (hloading : Loading w o spec? notice?) :
    ∃ problems, runMessages o spec? = .ok problems ∧
      Verdict format problems notice? (run w args) := by
  obtain ⟨problems, said, earlier, hproblems, hsaid, hearlier, hrun⟩ := run_eq hasks hloading
  refine ⟨problems, hproblems, ?_⟩
  rw [hrun]
  exact ((verdict_concluded format problems notice?).after hearlier).after hsaid

/-- A run passes only with a job spec that was loaded and has no problems. -/
theorem Loading.exists_of_passes {w : Surroundings} {o : RunOptions} {spec? : Option JobSpec}
    {notice? : Option Notice} (h : Loading w o spec? notice?)
    (hproblems : runMessages o spec? = .ok []) (hnotice : notice? = none) :
    ∃ spec, spec? = some spec ∧ problemsOf spec = .ok [] := by
  cases h with
  | unnamed h =>
    have hnone : o.problems.map Options.Problem.message = [] := Except.ok.inj hproblems
    exact absurd (Options.problems_eq_nil.mp (List.map_eq_nil_iff.mp hnone)).jobSpec h
  | @loaded location spec hlocation hgiven hload =>
    obtain ⟨origin, raw, hread⟩ := Spec.loadForRun_eq_ok hload
    have hmodelled := JobSpec.ofDocument_modelled hread
    have hnone := Except.ok.inj ((Options.runMessages_some o hmodelled).symm.trans hproblems)
    refine ⟨spec, rfl, ?_⟩
    rw [Rules.problemsOf_eq_report hmodelled,
      List.map_eq_nil_iff.mp (List.append_eq_nil_iff.mp hnone).2]
  | failed => exact absurd hnotice (Option.some_ne_none _)

/-- Whenever the options are known and the job spec they name is loaded or put into a notice, the
run ends with the verdict on its problems. It passes only with a job spec that was loaded and has
no problems, and the format decides on nothing but the report. -/
theorem run_verdict (w : Surroundings) (args : List String) (format : Format) (o : RunOptions)
    (spec? : Option JobSpec) (notice? : Option Notice) (hasks : Asks w args format o)
    (hloading : Loading w o spec? notice?) :
    ∃ problems, runMessages o spec? = .ok problems ∧
      Verdict format problems notice? (run w args) ∧
      ((run w args).exitCode = 0 → ∃ spec, spec? = some spec ∧ problemsOf spec = .ok []) ∧
      ∀ otherArgs otherFormat, Asks w otherArgs otherFormat o →
        (run w otherArgs).exitCode = (run w args).exitCode := by
  obtain ⟨problems, hproblems, hverdict⟩ := verdict_of_loading hasks hloading
  refine ⟨problems, hproblems, hverdict, ?_, ?_⟩
  · intro hexit
    have hpasses : problems = [] ∧ notice? = none := by
      by_contra hfails
      rw [hverdict.exitCode, if_neg hfails] at hexit
      exact absurd hexit Nat.one_ne_zero
    exact hloading.exists_of_passes (hpasses.1 ▸ hproblems) hpasses.2
  · intro otherArgs otherFormat hother
    obtain ⟨others, hothers, hotherVerdict⟩ := verdict_of_loading hother hloading
    have hsame : others = problems := Except.ok.inj (hothers.symm.trans hproblems)
    rw [hotherVerdict.exitCode, hverdict.exitCode, hsame]

def rowsArguments (format : String) : List String :=
  ["validate", "-j", "job.yaml", "--connection-uri", "bolt://graph", "-f", format]

def rowsOptions : RunOptions where
  connectionUri := "bolt://graph"
  jobSpecUri := "job.yaml"

theorem asks_rows {word : String} {format : Format}
    (hrequest : (Request.read (rowsArguments word)).toOption =
      some (.command {} (rowsArguments word).tail))
    (hread : (Validation.read? (rowsArguments word).tail).toOption =
      some (some { explicit := rowsOptions, format }))
    (files : Files.Tree) : Asks { files } (rowsArguments word) format rowsOptions :=
  ⟨{}, _, [], {}, _, except_toOption_eq_some.mp hrequest, rfl,
    except_toOption_eq_some.mp hread, rfl, rfl⟩

/-- Without a settings file, the options do not depend on the files around. -/
theorem asks_rows_json (files : Files.Tree) :
    Asks { files } (rowsArguments "json") .json rowsOptions :=
  asks_rows (by decide +kernel) (by decide +kernel) files

theorem asks_queryless (name : String) :
    Asks (querylessDirectory name) (rowsArguments "console") .console rowsOptions :=
  asks_rows (by decide +kernel) (by decide +kernel) _

theorem LoadsQueryless.loading {written name : String} (h : LoadsQueryless written name) :
    ∃ spec, Loading (querylessDirectory written) rowsOptions (some spec) none ∧
      problemsOf spec = .ok [.noSource, .noQuery name] ∧
      runMessages rowsOptions (some spec) =
        .ok [Rules.Problem.noSource.message, (Rules.Problem.noQuery name).message] := by
  rw [LoadsQueryless] at h
  obtain ⟨spec, hload, hfound⟩ := (Option.any_eq_true _ _).mp h
  have hproblems := except_toOption_eq_some.mp (of_decide_eq_true hfound)
  refine ⟨spec, .loaded rfl (by decide) (except_toOption_eq_some.mp hload), hproblems, ?_⟩
  rw [runMessages, hproblems]
  rfl

theorem rows_pass_queryless_fails : ∃ spec other before,
    Loading rowsDirectory rowsOptions (some spec) none ∧
    Asks rowsDirectory (rowsArguments "json") .json rowsOptions ∧
    Asks rowsDirectory (rowsArguments "console") .console rowsOptions ∧
    JsonVerdict [] none (run rowsDirectory (rowsArguments "json")) ∧
    (run rowsDirectory (rowsArguments "json")).exitCode = 0 ∧
    (run rowsDirectory (rowsArguments "console")).exitCode = 0 ∧
    Loading (querylessDirectory "t") rowsOptions (some other) none ∧
    Asks (querylessDirectory "t") (rowsArguments "console") .console rowsOptions ∧
    (run (querylessDirectory "t") (rowsArguments "console")).exitCode = 1 ∧
    (run (querylessDirectory "t") (rowsArguments "console")).output.stderr = before ++
      [.text "Validation failed:",
        .text "  - Targets must include a 'source' attribute that maps to a 'source.name'.",
        .text "  - Custom target must define a query: t"] := by
  obtain ⟨spec, hload, hnone⟩ := (Option.any_eq_true _ _).mp rows_load
  have hloading : Loading rowsDirectory rowsOptions (some spec) none :=
    .loaded rfl (by decide) (except_toOption_eq_some.mp hload)
  have hjson : Asks rowsDirectory (rowsArguments "json") .json rowsOptions := asks_rows_json _
  have hconsole : Asks rowsDirectory (rowsArguments "console") .console rowsOptions :=
    asks_rows (by decide +kernel) (by decide +kernel) _
  obtain ⟨problems, hproblems, hverdict, _, hformat⟩ :=
    run_verdict _ _ _ _ _ _ hjson hloading
  have hempty : problems = [] := by
    rw [runMessages, except_toOption_eq_some.mp (of_decide_eq_true hnone)] at hproblems
    exact (Except.ok.inj hproblems).symm
  subst hempty
  have hexit : (run rowsDirectory (rowsArguments "json")).exitCode = 0 := hverdict.exitCode
  obtain ⟨other, hother, _, hmessages⟩ := plainName_loads.loading
  obtain ⟨found, hfound, hfails, -⟩ :=
    run_verdict _ _ _ _ _ _ (asks_queryless "t") hother
  cases hfound.symm.trans hmessages
  obtain ⟨before, _, hstderr⟩ := (hfails.console rfl).stderr
  refine ⟨spec, other, before, hloading, hjson, hconsole, hverdict.json rfl, hexit,
    (hformat _ _ hconsole).trans hexit, hother, asks_queryless "t", hfails.exitCode, ?_⟩
  rw [hstderr, List.append_assoc]
  rfl

/-- A sequence for a colour in a name keeps the message about it from being shown. -/
theorem styledName_not_shown : ¬ ∀ (w : Surroundings) (args : List String) (o : RunOptions)
    (spec? : Option JobSpec) (notice? : Option Notice) (problems : List String),
    Asks w args .console o → Loading w o spec? notice? → runMessages o spec? = .ok problems →
      ∀ p ∈ problems, ∃ s, .text s ∈ (run w args).output.stderr ∧ p.toList <:+: s.toList := by
  intro h
  obtain ⟨spec, hloading, _, hmessages⟩ := styledName_loads.loading
  have hasks := asks_queryless "t\\e[31mx"
  obtain ⟨s, hshown, hlisted⟩ := h _ _ _ _ _ _ hasks hloading hmessages
    (Rules.Problem.noQuery "t\x1b[31mx").message (by simp)
  obtain ⟨problems, hproblems, hverdict⟩ := verdict_of_loading hasks hloading
  cases hproblems.symm.trans hmessages
  obtain ⟨before, hbefore, hstderr⟩ := (hverdict.console rfl).stderr
  have hbare : '\x1b' ∉ s.toList := by
    rw [hstderr, List.mem_append, List.mem_append] at hshown
    rcases hshown with (hshown | hshown) | hshown
    · rcases hbefore _ hshown with ⟨line, hline⟩ | hwarning
      · cases hline
      · cases hwarning
        decide
    · simp only [if_neg (List.cons_ne_nil _ _), List.map_cons, List.map_nil, List.mem_cons,
        List.not_mem_nil, or_false, Item.text.injEq] at hshown
      rcases hshown with rfl | rfl | rfl <;> decide +kernel
    · exact absurd hshown List.not_mem_nil
  exact hbare (hlisted.subset (by decide +kernel))

end GraphImport.CommandLine
