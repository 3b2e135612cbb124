import GraphImport.Proofs.CommandLine.Switches
import GraphImport.Proofs.CommandLine.Verdict

/-!
# What the log switches decide on

The switches that ask for more of the log, or for another style of it, may be put in and left out
before the command as one likes. A run stays what it is but for its log lines. Unless more of the
log is asked for, these only tell of statements in the environment file that cannot be read.
-/

namespace GraphImport.CommandLine

open Files (Path)
open Options (RunOptions runMessages)
open Report (Format Item Output)
open Spec (JobSpec)
open Switch (StandsAlone)

/-- The options that decide on the log. -/
def isLogOption : ProgramOption → Bool
  | .verbose | .jsonLogs => true
  | _ => false

/-- How the options are written that decide on the log. -/
def logSwitches : List String := ["--verbose", "-v", "--json-logs"]

/-- Arguments that differ only in switches for the log, put in or left out between the options
before what is common to both. -/
inductive AlikeButForLog : List String → List String → Prop
  | same {rest : List String} (h : rest ≠ []) : AlikeButForLog rest rest
  | option {written args others : List String}
      {outcome : Except UsageFault (List (ProgramOption × Option String))}
      (h : StandsAlone programSwitches written outcome) (later : AlikeButForLog args others) :
      AlikeButForLog (written ++ args) (written ++ others)
  | more {switch : String} {args others : List String} (h : switch ∈ logSwitches)
      (later : AlikeButForLog args others) : AlikeButForLog (switch :: args) others
  | fewer {switch : String} {args others : List String} (h : switch ∈ logSwitches)
      (later : AlikeButForLog args others) : AlikeButForLog args (switch :: others)

section Requests

/-- What is parsed, without the options that decide on the log. -/
def Parsed.unlogged (p : Parsed ProgramOption) : Parsed ProgramOption :=
  { p with options := p.options.filter fun (option, _) => !isLogOption option }

/-- A setup that leaves the log as it is by itself. -/
def Setup.unlogged (setup : Setup) : Setup :=
  { setup with verbose := false, jsonLogs := false }

def Request.unlogged : Request → Request
  | .command setup arguments => .command setup.unlogged arguments
  | request => request

theorem standsAlone_logSwitch {switch : String} (h : switch ∈ logSwitches) :
    ∃ option, isLogOption option = true ∧
      StandsAlone programSwitches [switch] (.ok [(option, none)]) := by
  simp only [logSwitches, List.mem_cons, List.not_mem_nil, or_false] at h
  rcases h with rfl | rfl | rfl
  · exact ⟨.verbose, rfl, _, [], rfl, by decide +kernel, fun rest => rfl⟩
  · refine ⟨.verbose, rfl, _, [], rfl, by decide +kernel, fun rest => ?_⟩
    have hlong : "--".isPrefixOf "-v" = false := by decide +kernel
    rw [Switch.read]
    dsimp only
    rw [hlong]
    rfl
  · exact ⟨.jsonLogs, rfl, _, [], rfl, by decide +kernel, fun rest => rfl⟩

theorem unlogged_behind (options : List (ProgramOption × Option String))
    (p : Parsed ProgramOption) : (p.behind options).unlogged =
      p.unlogged.behind (options.filter fun (option, _) => !isLogOption option) := by
  simp [Parsed.unlogged, Parsed.behind]

theorem Switch.StandsAlone.unlogged_parse {written : List String}
    {outcome : Except UsageFault (List (ProgramOption × Option String))}
    (h : StandsAlone programSwitches written outcome) (args : List String) :
    Parsed.unlogged <$> Switch.parse programSwitches false (written ++ args) =
      outcome >>= fun options =>
        Parsed.behind (options.filter fun (option, _) => !isLogOption option) <$>
          Parsed.unlogged <$> Switch.parse programSwitches false args := by
  rw [h.parse_append]
  cases outcome with
  | error fault => rfl
  | ok options =>
    cases Switch.parse programSwitches false args with
    | error fault => rfl
    | ok p => exact congrArg Except.ok (unlogged_behind options p)

theorem unlogged_parse_logSwitch {switch : String} (h : switch ∈ logSwitches)
    (args : List String) :
    Parsed.unlogged <$> Switch.parse programSwitches false (switch :: args) =
      Parsed.unlogged <$> Switch.parse programSwitches false args := by
  obtain ⟨option, hoption, halone⟩ := standsAlone_logSwitch h
  have hnone : [(option, (none : Option String))].filter
      (fun (option, _) => !isLogOption option) = [] := by
    simp [hoption]
  have hparse := halone.unlogged_parse args
  dsimp only [bind, Except.bind] at hparse
  rw [hnone] at hparse
  refine hparse.trans ?_
  cases Switch.parse programSwitches false args <;> rfl

/-- Without the options that decide on the log, the same is parsed. -/
theorem AlikeButForLog.parse {args others : List String} (h : AlikeButForLog args others) :
    Parsed.unlogged <$> Switch.parse programSwitches false args =
      Parsed.unlogged <$> Switch.parse programSwitches false others := by
  induction h with
  | same h => rfl
  | option halone later ih => rw [halone.unlogged_parse, halone.unlogged_parse, ih]
  | more hswitch later ih => rw [unlogged_parse_logSwitch hswitch, ih]
  | fewer hswitch later ih => rw [unlogged_parse_logSwitch hswitch, ih]

theorem AlikeButForLog.ne_nil {args others : List String} (h : AlikeButForLog args others) :
    args ≠ [] ∧ others ≠ [] := by
  induction h with
  | same h => exact ⟨h, h⟩
  | option h later ih =>
    exact ⟨List.append_ne_nil_of_right_ne_nil _ ih.1, List.append_ne_nil_of_right_ne_nil _ ih.2⟩
  | more h later ih => exact ⟨List.cons_ne_nil _ _, ih.2⟩
  | fewer h later ih => exact ⟨ih.1, List.cons_ne_nil _ _⟩

/-- What is asked for by what was parsed. -/
def requestOf (p : Parsed ProgramOption) : Except UsageFault Request :=
  match urgent? p with
  | some request => .ok request
  | none => match p.arguments with
    | [] => .error .commandMissing
    | name :: rest =>
      if commandNames.contains name then .ok (.command (setupOf p) rest)
      else unknownCommand name rest

theorem read_eq_requestOf {args : List String} (h : args ≠ []) :
    Request.read args = Switch.parse programSwitches false args >>= requestOf := by
  have hargs : args.isEmpty = false := List.isEmpty_eq_false_iff.mpr h
  rw [Request.read, hargs]
  rfl

theorem arguments_ne_nil_of_command {p : Parsed ProgramOption} {setup : Setup}
    {rest : List String} (h : requestOf p = .ok (.command setup rest)) : p.arguments ≠ [] := by
  intro hnil
  unfold requestOf at h
  rw [hnil] at h
  cases hurgent : urgent? p with
  | none =>
    rw [hurgent] at h
    cases h
  | some request =>
    rw [hurgent] at h
    cases h
    obtain ⟨⟨option, value⟩, _, hoption⟩ := List.exists_of_findSome?_eq_some hurgent
    cases option <;> cases hoption

section Unlogged

variable (p : Parsed ProgramOption)

theorem urgent?_unlogged : urgent? p.unlogged = urgent? p := by
  unfold urgent? Parsed.unlogged
  dsimp only
  induction p.options with
  | nil => rfl
  | cons given rest ih =>
    obtain ⟨option, value⟩ := given
    cases option <;> first | rfl | exact ih

/-- Every other option is kept. -/
theorem kept_of_eq {option : ProgramOption} (h : isLogOption option = false)
    (given : ProgramOption × Option String) :
    (!isLogOption given.1 && given.1 == option) = (given.1 == option) := by
  by_cases heq : given.1 = option <;> simp [heq, h]

theorem has_unlogged {option : ProgramOption} (h : isLogOption option = false) :
    p.unlogged.has option = p.has option := by
  rw [Parsed.has, Parsed.unlogged, List.any_filter]
  simp only [kept_of_eq h, Parsed.has]

theorem not_has_unlogged {option : ProgramOption} (h : isLogOption option = true) :
    p.unlogged.has option = false := by
  rw [Parsed.has, Parsed.unlogged, List.any_filter, List.any_eq_false]
  rintro ⟨given, value⟩ _
  by_cases heq : given = option <;> simp [heq, h]

theorem value?_unlogged {option : ProgramOption} (h : isLogOption option = false) :
    p.unlogged.value? option = p.value? option := by
  rw [Parsed.value?, Parsed.unlogged, ← List.filter_reverse, List.find?_filter]
  simp only [← Bool.and_eq_true, Bool.decide_eq_true, kept_of_eq h, Parsed.value?]

theorem setupOf_unlogged : setupOf p.unlogged = (setupOf p).unlogged := by
  rw [setupOf, has_unlogged p rfl, value?_unlogged p rfl, not_has_unlogged p rfl,
    not_has_unlogged p rfl]
  rfl

theorem unlogged_requestOf :
    Request.unlogged <$> requestOf p.unlogged = Request.unlogged <$> requestOf p := by
  rw [requestOf, urgent?_unlogged, setupOf_unlogged]
  unfold requestOf
  cases urgent? p with
  | some request => rfl
  | none =>
    change Request.unlogged <$> (match p.arguments with | [] => _ | name :: rest => _) = _
    cases p.arguments with
    | nil => rfl
    | cons name rest =>
      dsimp only
      split <;> rfl

end Unlogged

theorem unlogged_bind_requestOf (parsed : Except UsageFault (Parsed ProgramOption)) :
    Request.unlogged <$> (parsed >>= requestOf) =
      Request.unlogged <$> ((Parsed.unlogged <$> parsed) >>= requestOf) := by
  cases parsed with
  | error fault => rfl
  | ok p => exact (unlogged_requestOf p).symm

/-- Arguments that are alike but for the log ask for the same but for the log. -/
theorem AlikeButForLog.request {args others : List String} (h : AlikeButForLog args others) :
    Request.unlogged <$> Request.read args = Request.unlogged <$> Request.read others := by
  rw [read_eq_requestOf h.ne_nil.1, read_eq_requestOf h.ne_nil.2, unlogged_bind_requestOf, h.parse,
    ← unlogged_bind_requestOf]

/-- A switch for the log may be put in behind any options. -/
theorem AlikeButForLog.put_in {blocks : List (List String)} {switch : String} {ending : List String}
    (hblocks : ∀ written ∈ blocks, ∃ options, StandsAlone programSwitches written (.ok options))
    (hswitch : switch ∈ logSwitches) (hending : ending ≠ []) :
    AlikeButForLog (blocks.flatten ++ ending) (blocks.flatten ++ switch :: ending) := by
  induction blocks with
  | nil => exact .fewer hswitch (.same hending)
  | cons written later ih =>
    obtain ⟨⟨options, halone⟩, hlater⟩ := List.forall_mem_cons.mp hblocks
    rw [List.flatten_cons, List.append_assoc, List.append_assoc]
    exact .option halone (ih hlater)

/-- However a command is written, a switch for the log may stand before each of its options, and
before what follows these. -/
theorem AlikeButForLog.of_command {args rest : List String} {setup : Setup}
    (h : Request.read args = .ok (.command setup rest)) :
    ∃ (blocks : List (List String)) (ending : List String), args = blocks.flatten ++ ending ∧
      ∀ switch ∈ logSwitches, ∀ before later, blocks = before ++ later →
        AlikeButForLog args (before.flatten ++ switch :: (later.flatten ++ ending)) := by
  have hargs : args ≠ [] := by
    rintro rfl
    cases h
  rw [read_eq_requestOf hargs] at h
  obtain ⟨p, hparse, hrequest⟩ := except_bind_eq_ok.mp h
  obtain ⟨blocks, ending, rfl, hblocks, hending⟩ := Switch.parse_splits hparse
  have hne : ending ≠ [] := by
    rcases hending with rfl | rfl
    · exact arguments_ne_nil_of_command hrequest
    · exact List.cons_ne_nil _ _
  refine ⟨blocks, ending, rfl, ?_⟩
  rintro switch hswitch before later rfl
  rw [List.forall_mem_append] at hblocks
  rw [List.flatten_append, List.append_assoc]
  exact .put_in hblocks.1 hswitch (List.append_ne_nil_of_right_ne_nil _ hne)

end Requests

/-- Whether an item is no log line. -/
def isSpoken : Item → Bool
  | .log _ => false
  | .text _ | .panel _ _ => true

/-- Output without its log lines. -/
def spoken (said : Output) : Output :=
  { said with stderr := said.stderr.filter isSpoken }

/-- The log lines of an output. -/
def logLines (said : Output) : List Log.Line :=
  said.stderr.filterMap fun
    | .log line => some line
    | .text _ | .panel _ _ => none

/-- An outcome without its log lines. -/
def Outcome.spoken (out : Outcome) : Outcome :=
  { out with output := CommandLine.spoken out.output }

section Outcomes

theorem spoken_append (said more : Output) : spoken (said ++ more) = spoken said ++ spoken more :=
  congrArg (Output.mk _) (List.filter_append _ _)

theorem spoken_logged (lines : List Log.Line) : spoken (logged lines) = {} := by
  have hnone : (lines.map Item.log).filter isSpoken = [] := by
    rw [List.filter_eq_nil_iff, List.forall_mem_map]
    exact fun _ _ => Bool.false_ne_true
  exact congrArg (Output.mk "") hnone

theorem spoken_after (earlier : Output) (out : Outcome) :
    (out.after earlier).spoken = out.spoken.after (spoken earlier) := by
  simp only [Outcome.spoken, Outcome.after, spoken_append]

theorem spoken_after_logged (lines : List Log.Line) (out : Outcome) :
    (out.after (logged lines)).spoken = out.spoken := by
  rw [spoken_after, spoken_logged, after_empty]

/-- What a preparation comes to, without log lines. -/
def spokenStep {α : Type} : Except Outcome (α × Output) → Except Outcome (α × Output)
  | .error out => .error out.spoken
  | .ok (a, said) => .ok (a, spoken said)

/-- Steps that go wrong and go on alike come to the same without log lines. -/
theorem spokenStep_congr {ε α β : Type} (step : Except ε α) {fail fail' : ε → Outcome}
    {next next' : α → Except Outcome (β × Output)}
    (hfail : ∀ fault, (fail fault).spoken = (fail' fault).spoken)
    (hnext : ∀ a, spokenStep (next a) = spokenStep (next' a)) :
    spokenStep (step.mapError fail >>= next) = spokenStep (step.mapError fail' >>= next') := by
  cases step with
  | error fault => exact congrArg Except.error (hfail fault)
  | ok a => exact hnext a

/-- Whatever the session, the same is said about the environment file but for log lines. -/
theorem addEnvFile_spoken (w : Surroundings) (s s' : Log.Session) (path : Path) :
    spokenStep (addEnvFile w s path) = spokenStep (addEnvFile w s' path) := by
  unfold addEnvFile
  split
  · rfl
  · apply spokenStep_congr _ fun _ => rfl
    intro text
    apply spokenStep_congr
    · intro fault
      rw [spoken_after_logged, spoken_after_logged]
    · intro env
      exact congrArg (fun said => Except.ok (env, said))
        ((spoken_logged _).trans (spoken_logged _).symm)

theorem prepare_spoken (w : Surroundings) (s s' : Log.Session) {setup setup' : Setup}
    (h : setup.unlogged = setup'.unlogged) :
    spokenStep (prepare w s setup) = spokenStep (prepare w s' setup') := by
  obtain ⟨huses, hfile, -, -⟩ := Setup.mk.inj h
  rw [prepare, prepare, hfile, huses]
  cases setup'.envFile with
  | none => rfl
  | some path =>
    dsimp only
    split
    · rfl
    · cases w.files.has path with
      | error fault => rfl
      | ok present =>
        cases present with
        | false => rfl
        | true => exact addEnvFile_spoken w s s' path

theorem notesFor_fault {s : Log.Session} (hbound : s.bound = []) (spec? : Option JobSpec) :
    (notesFor s spec?).2 = none := by
  cases spec? with
  | none => rfl
  | some spec => exact Log.Session.logNotes_fault hbound _

/-- Whatever the session, a validation ends in the same way but for log lines. -/
theorem validateOptions_spoken (w : Surroundings) {s s' : Log.Session} (hbound : s.bound = [])
    (hbound' : s'.bound = []) (format : Format) (o : RunOptions) :
    (validateOptions w s format o).spoken = (validateOptions w s' format o).spoken := by
  rw [validateOptions, validateOptions]
  cases loadNamed w o with
  | error fault => cases fault <;> rfl
  | ok spec? =>
    have hfault := notesFor_fault hbound spec?
    have hfault' := notesFor_fault hbound' spec?
    dsimp only
    rw [spoken_after_logged, spoken_after_logged, hfault, hfault']

theorem validate_spoken (w : Surroundings) {s s' : Log.Session} (hbound : s.bound = [])
    (hbound' : s'.bound = []) (v : Validation) :
    (validate w s v).spoken = (validate w s' v).spoken := by
  rw [validate, validate]
  cases Options.RunOptions.assemble w.files w.env v.settings v.explicit with
  | ok o => exact validateOptions_spoken w hbound hbound' v.format o
  | error fault => cases fault <;> rfl

/-- A command that is set up with another log runs in the same way but for log lines. -/
theorem command_spoken (w : Surroundings) {args others : List String} {setup setup' : Setup}
    {rest : List String} (hargs : Request.read args = .ok (.command setup rest))
    (hothers : Request.read others = .ok (.command setup' rest))
    (h : setup.unlogged = setup'.unlogged) : (run w args).spoken = (run w others).spoken := by
  have hprepare := prepare_spoken w (sessionOf setup) (sessionOf setup') h
  rw [run, run, hargs, hothers]
  dsimp only
  cases hstep : prepare w (sessionOf setup) setup with
  | error out =>
    cases hstep' : prepare w (sessionOf setup') setup' with
    | error out' =>
      rw [hstep, hstep'] at hprepare
      exact Except.error.inj hprepare
    | ok prepared =>
      rw [hstep, hstep'] at hprepare
      cases hprepare
  | ok prepared =>
    cases hstep' : prepare w (sessionOf setup') setup' with
    | error out' =>
      rw [hstep, hstep'] at hprepare
      cases hprepare
    | ok prepared' =>
      rw [hstep, hstep'] at hprepare
      obtain ⟨henv, hsaid⟩ := Prod.mk.inj (Except.ok.inj hprepare)
      dsimp only
      rw [spoken_after, spoken_after, hsaid, henv]
      refine congrArg (Outcome.after _) ?_
      cases Validation.read? rest with
      | error fault => rfl
      | ok v? =>
        cases v? with
        | none => rfl
        | some v => exact validate_spoken _ (sessionOf_bound setup) (sessionOf_bound setup') v

theorem Request.eq_of_unlogged_eq {request request' : Request}
    (h : request.unlogged = request'.unlogged) :
    request = request' ∨ ∃ setup setup' rest, request = .command setup rest ∧
      request' = .command setup' rest ∧ setup.unlogged = setup'.unlogged := by
  cases request with
  | version => cases request' <;> first | exact .inl rfl | cases h
  | help => cases request' <;> first | exact .inl rfl | cases h
  | command setup rest =>
    cases request' with
    | version => cases h
    | help => cases h
    | command setup' rest' =>
      obtain ⟨hsetup, rfl⟩ := Request.command.inj h
      exact .inr ⟨setup, setup', rest, rfl, rfl, hsetup⟩

/-- Runs that are asked for the same but for the log differ in log lines only. -/
theorem run_spoken (w : Surroundings) {args others : List String}
    (h : Request.unlogged <$> Request.read args = Request.unlogged <$> Request.read others) :
    (run w args).spoken = (run w others).spoken := by
  cases hargs : Request.read args with
  | error fault =>
    cases hothers : Request.read others with
    | error fault' =>
      rw [hargs, hothers] at h
      rw [run, run, hargs, hothers, Except.error.inj h]
    | ok request' =>
      rw [hargs, hothers] at h
      cases h
  | ok request =>
    cases hothers : Request.read others with
    | error fault' =>
      rw [hargs, hothers] at h
      cases h
    | ok request' =>
      rw [hargs, hothers] at h
      rcases Request.eq_of_unlogged_eq (Except.ok.inj h) with
        rfl | ⟨setup, setup', rest, rfl, rfl, hsetup⟩
      · rw [run, run, hargs, hothers]
      · exact command_spoken w hargs hothers hsetup

end Outcomes

section LogLines

theorem sessionOf_level {setup : Setup} (h : setup.verbose = false) :
    (sessionOf setup).level = .warning := by
  rw [sessionOf, h]
  rfl

theorem logLines_append (said more : Output) :
    logLines (said ++ more) = logLines said ++ logLines more :=
  List.filterMap_append

theorem logLines_logged (lines : List Log.Line) : logLines (logged lines) = lines := by
  change (lines.map Item.log).filterMap _ = lines
  rw [List.filterMap_map]
  exact List.filterMap_some

theorem logLines_after (earlier : Output) (out : Outcome) :
    logLines (out.after earlier).output = logLines earlier ++ logLines out.output :=
  logLines_append earlier out.output

theorem logLines_ofProblems (format : Format) (problems : List String) :
    logLines (Report.ofProblems format problems) = [] := by
  cases format with
  | json => rfl
  | console =>
    cases problems with
    | nil => rfl
    | cons p rest =>
      refine List.filterMap_eq_nil_iff.mpr fun item hitem => ?_
      rcases List.mem_cons.mp hitem with rfl | hitem
      · rfl
      · obtain ⟨problem, _, rfl⟩ := List.mem_map.mp hitem
        rfl

theorem logLines_conclude (format : Format) (problems : List String) :
    logLines (conclude format problems).output = [] :=
  logLines_ofProblems format problems

theorem logLines_concludeUnloaded (format : Format) (problems : List String) (n : Spec.Notice) :
    logLines (concludeUnloaded format problems n).output = [] := by
  cases format with
  | json => rfl
  | console =>
    cases problems with
    | nil => rfl
    | cons p rest =>
      change logLines (Report.ofProblems .console (p :: rest) ++ _) = []
      rw [logLines_append, logLines_ofProblems]
      rfl

/-- At the level of warnings a validation logs nothing. -/
theorem logLines_validateOptions (w : Surroundings) {s : Log.Session} (hbound : s.bound = [])
    (hlevel : s.level = .warning) (format : Format) (o : RunOptions) :
    logLines (validateOptions w s format o).output = [] := by
  rw [validateOptions]
  cases loadNamed w o with
  | error fault =>
    cases fault with
    | notice n => exact logLines_concludeUnloaded format _ n
    | _ => rfl
  | ok spec? =>
    have hnotes : notesFor s spec? = ([], none) := by
      cases spec? with
      | none => rfl
      | some spec => exact Log.Session.logNotes_of_warning hbound hlevel _
    dsimp only
    rw [logLines_after, hnotes]
    dsimp only
    cases runMessages o spec? with
    | error fault => rfl
    | ok problems => exact logLines_conclude format problems

theorem logLines_validate (w : Surroundings) {s : Log.Session} (hbound : s.bound = [])
    (hlevel : s.level = .warning) (v : Validation) : logLines (validate w s v).output = [] := by
  rw [validate]
  cases Options.RunOptions.assemble w.files w.env v.settings v.explicit with
  | ok o => exact logLines_validateOptions w hbound hlevel v.format o
  | error fault => cases fault <;> rfl

theorem logLines_usage (scope : Scope) (fault : UsageFault) :
    logLines (Outcome.usage scope fault).output = [] := by
  rw [Outcome.usage]
  dsimp only
  split <;> rfl

/-- The warnings about statements of an environment file that cannot be read. -/
def fileWarnings (s : Log.Session) (text : List Char) : List Log.Line :=
  (EnvFile.read text).unreadable.flatMap fun statement =>
    s.logPlain "envfile" (unreadableCall statement)

/-- Whether a line warns about the environment file that a run is set up with. -/
def WarnsOfFile (w : Surroundings) (setup : Setup) (line : Log.Line) : Prop :=
  ∃ path text, setup.envFile = some path ∧ w.files.read path = .ok text ∧
    line ∈ fileWarnings (sessionOf setup) text

/-- The lines that a preparation logs. -/
def preparedLines {α : Type} : Except Outcome (α × Output) → List Log.Line
  | .error out => logLines out.output
  | .ok (_, said) => logLines said

/-- What holds of the lines of a step that goes wrong, and of those of the steps after it. -/
theorem forall_mem_preparedLines {ε α β : Type} {step : Except ε α} {fail : ε → Outcome}
    {next : α → Except Outcome (β × Output)} {P : Log.Line → Prop}
    (hfail : ∀ fault, ∀ line ∈ logLines (fail fault).output, P line)
    (hnext : ∀ a, step = .ok a → ∀ line ∈ preparedLines (next a), P line) :
    ∀ line ∈ preparedLines (step.mapError fail >>= next), P line := by
  cases step with
  | error fault => exact hfail fault
  | ok a => exact hnext a rfl

theorem addEnvFile_lines (w : Surroundings) (s : Log.Session) (path : Path) :
    ∀ line ∈ preparedLines (addEnvFile w s path), ∃ text, w.files.read path = .ok text ∧
      line ∈ fileWarnings s text := by
  unfold addEnvFile
  split
  · exact List.forall_mem_nil _
  · apply forall_mem_preparedLines
    · exact fun _ => List.forall_mem_nil _
    · intro text hread
      have hwarnings : ∀ line ∈ logLines (logged (fileWarnings s text)),
          ∃ text, w.files.read path = .ok text ∧ line ∈ fileWarnings s text := by
        rw [logLines_logged]
        exact fun line hline => ⟨text, hread, hline⟩
      apply forall_mem_preparedLines
      · intro fault
        rw [logLines_after, List.forall_mem_append]
        exact ⟨hwarnings, List.forall_mem_nil _⟩
      · exact fun env _ => hwarnings

theorem prepare_lines (w : Surroundings) (setup : Setup) :
    ∀ line ∈ preparedLines (prepare w (sessionOf setup) setup), WarnsOfFile w setup line := by
  unfold prepare
  split
  · exact List.forall_mem_nil _
  next path hpath =>
    split
    · exact List.forall_mem_nil _
    · cases w.files.has path with
      | error fault => exact List.forall_mem_nil _
      | ok present =>
        cases present with
        | false => exact List.forall_mem_nil _
        | true =>
          intro line hline
          obtain ⟨text, hread, hwarns⟩ := addEnvFile_lines w _ path line hline
          exact ⟨path, text, hpath, hread, hwarns⟩

/-- A command that does not ask for more of the log is only warned about its environment file. -/
theorem command_lines (w : Surroundings) {args rest : List String} {setup : Setup}
    (hargs : Request.read args = .ok (.command setup rest)) (hquiet : setup.verbose = false) :
    ∀ line ∈ logLines (run w args).output, WarnsOfFile w setup line := by
  have hprepare := prepare_lines w setup
  rw [run, hargs]
  dsimp only
  cases hstep : prepare w (sessionOf setup) setup with
  | error out =>
    rw [hstep] at hprepare
    exact hprepare
  | ok prepared =>
    obtain ⟨env, said⟩ := prepared
    rw [hstep] at hprepare
    dsimp only
    rw [logLines_after]
    intro line hline
    rcases List.mem_append.mp hline with hsaid | hcommand
    · exact hprepare line hsaid
    · cases hread : Validation.read? rest with
      | error fault =>
        rw [hread] at hcommand
        dsimp only at hcommand
        rw [logLines_usage] at hcommand
        exact absurd hcommand List.not_mem_nil
      | ok v? =>
        rw [hread] at hcommand
        cases v? with
        | none => exact absurd hcommand List.not_mem_nil
        | some v =>
          dsimp only at hcommand
          rw [logLines_validate _ (sessionOf_bound setup) (sessionOf_level hquiet)] at hcommand
          exact absurd hcommand List.not_mem_nil

/-- Whether arguments ask for more of the log. -/
def AsksForMore (args : List String) : Prop :=
  ∃ setup rest, Request.read args = .ok (.command setup rest) ∧ setup.verbose = true

theorem run_lines (w : Surroundings) {args : List String} (hquiet : ¬ AsksForMore args) :
    ∀ line ∈ logLines (run w args).output, ∃ setup rest,
      Request.read args = .ok (.command setup rest) ∧ WarnsOfFile w setup line := by
  cases hargs : Request.read args with
  | error fault =>
    rw [run, hargs]
    dsimp only
    rw [logLines_usage]
    exact List.forall_mem_nil _
  | ok request =>
    cases request with
    | version =>
      rw [run, hargs]
      exact List.forall_mem_nil _
    | help =>
      rw [run, hargs]
      exact List.forall_mem_nil _
    | command setup rest =>
      have hverbose : setup.verbose = false :=
        Bool.eq_false_iff.mpr fun h => hquiet ⟨setup, rest, hargs, h⟩
      exact fun line hline => ⟨setup, rest, rfl, command_lines w hargs hverbose line hline⟩

end LogLines

/-- Switches for the log that are put in or left out before the command change neither the exit
code nor standard output, nor what ends a run early, nor what it says on standard error but for log
lines. Unless more of the log is asked for, the only log lines are warnings about the environment
file, and none tells what the rules note. -/
theorem run_alike_but_for_log (w : Surroundings) (args others : List String)
    (h : AlikeButForLog args others) :
    (run w args).exitCode = (run w others).exitCode ∧
    (run w args).output.stdout = (run w others).output.stdout ∧
    (run w args).escaped = (run w others).escaped ∧
    (run w args).output.stderr.filter isSpoken = (run w others).output.stderr.filter isSpoken ∧
    (¬ AsksForMore args → ∀ line ∈ logLines (run w args).output, ∃ setup rest,
      Request.read args = .ok (.command setup rest) ∧ WarnsOfFile w setup line) := by
  obtain ⟨hexitCode, houtput, hescaped⟩ := Outcome.mk.inj (run_spoken w h.request)
  obtain ⟨hstdout, hstderr⟩ := Output.mk.inj houtput
  exact ⟨hexitCode, hstdout, hescaped, hstderr, run_lines w⟩

/-- A directory with an environment file that holds a statement that cannot be read. -/
def strayDirectory : Surroundings where
  files := { entries := [({ names := ["stray.env"] }, .file "= 1".toUTF8.data.toList)] }

def strayArguments : List String :=
  ["--env-file", "stray.env", "validate", "-j", "job.yaml"]

def strayDetailed : List String :=
  ["-v", "--env-file", "stray.env", "--json-logs", "validate", "-j", "job.yaml"]

theorem stray_alike_but_for_log :
    AlikeButForLog strayArguments strayDetailed ∧ ¬ AsksForMore strayArguments ∧
    (run strayDirectory strayArguments).exitCode = (run strayDirectory strayDetailed).exitCode ∧
    (run strayDirectory strayArguments).output.stderr.filter isSpoken =
      (run strayDirectory strayDetailed).output.stderr.filter isSpoken ∧
    (logLines (run strayDirectory strayArguments).output).length = 1 ∧
    ∀ line ∈ logLines (run strayDirectory strayArguments).output, ∃ setup rest,
      Request.read strayArguments = .ok (.command setup rest) ∧
        WarnsOfFile strayDirectory setup line := by
  have hfile : StandsAlone programSwitches ["--env-file", "stray.env"]
      (.ok [(.envFile, some "stray.env")]) :=
    ⟨"--env-file", ["stray.env"], rfl, by decide +kernel, fun _ => rfl⟩
  have halike : AlikeButForLog strayArguments strayDetailed :=
    .fewer (by decide) (.option hfile (.fewer (by decide) (.same (by decide))))
  have hread : Request.read strayArguments =
      .ok (.command { envFile := some { names := ["stray.env"] } } ["-j", "job.yaml"]) :=
    except_toOption_eq_some.mp (by decide +kernel)
  have hquiet : ¬ AsksForMore strayArguments := by
    rintro ⟨setup, rest, hrequest, hverbose⟩
    cases hread.symm.trans hrequest
    cases hverbose
  obtain ⟨hexitCode, _, _, hspoken, hlines⟩ :=
    run_alike_but_for_log strayDirectory _ _ halike
  exact ⟨halike, hquiet, hexitCode, hspoken, by decide +kernel, hlines hquiet⟩

end GraphImport.CommandLine
