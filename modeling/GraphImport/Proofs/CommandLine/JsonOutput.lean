import GraphImport.Proofs.CommandLine.Loading

/-!
# Output for machines

A run that is asked for JSON writes one line with its verdict, or nothing at all. It writes
nothing when it ends before its options are known, as it does without the settings file it was
told to read, or on a job spec that can neither be loaded nor put into a notice.
-/

namespace GraphImport.CommandLine

open Document (Value)
open Options (RunOptions)
open Report (Output)

/-- Whether arguments ask for a validation that reports in JSON. -/
def AsksForJson (args : List String) : Prop :=
  ∃ setup rest v, Request.read args = .ok (.command setup rest) ∧
    Validation.read? rest = .ok (some v) ∧ v.format = .json

/-- One line of JSON with the problems, valid exactly when there are none and the run passes. -/
def ReportsJson (out : Outcome) : Prop :=
  ∃ line problems, out.output.stdout = line ++ "\n" ∧ '\n' ∉ line.toList ∧
    Json.read line = .ok (.record [
      ("valid", .bool (out.exitCode == 0)), ("problems", .list (problems.map .text))]) ∧
    (out.exitCode = 0 ↔ problems = [])

/-- Nothing on standard output, and the run fails. -/
structure Silent (out : Outcome) : Prop where
  stdout : out.output.stdout = ""
  exitCode : out.exitCode = 1

/-- Whether a run gets as far as its verdict: its options can be put together, and the job spec
that they name, if they name one, can be presented. -/
def Reportable (w : Surroundings) (args : List String) : Prop :=
  ∃ o, Asks w args .json o ∧ ∀ location, o.jobSpecUri = some location → location ≠ "" →
    Presentable w.home w.files location

theorem Asks.asksForJson {w : Surroundings} {args : List String} {o : RunOptions}
    (h : Asks w args .json o) : AsksForJson args := by
  obtain ⟨setup, rest, _, _, v, hrequest, _, hread, hformat, _⟩ := h
  exact ⟨setup, rest, v, hrequest, hread, hformat⟩

theorem Silent.not_reportsJson {out : Outcome} (h : Silent out) : ¬ ReportsJson out := by
  rintro ⟨line, problems, hstdout, -⟩
  rw [h.stdout, eq_comm, String.append_eq_empty_iff] at hstdout
  exact absurd hstdout.2 (by decide)

theorem silent_escape (e : Escape) : Silent (.escape e) := ⟨rfl, rfl⟩

theorem Silent.after {out : Outcome} (h : Silent out) {earlier : Output} (hquiet : Quiet earlier) :
    Silent (out.after earlier) :=
  ⟨(after_stdout hquiet out).trans h.stdout, h.exitCode⟩

/-- A verdict is reported. -/
theorem Verdict.reportsJson {problems : List String} {notice? : Option Spec.Notice}
    {out : Outcome} (h : Verdict .json problems notice? out) : ReportsJson out := by
  obtain ⟨line, hstdout, hline, hread⟩ := (h.json rfl).stdout
  refine ⟨line, problems ++ notice?.toList.map Spec.Notice.message, hstdout, hline, hread, ?_⟩
  rw [h.exitCode]
  cases notice? with
  | none => simp
  | some n => simp

theorem Reportable.reportsJson {w : Surroundings} {args : List String} (h : Reportable w args) :
    ReportsJson (run w args) := by
  obtain ⟨o, hasks, hpresentable⟩ := h
  have hloading : ∃ spec? notice?, Loading w o spec? notice? := by
    by_cases hgiven : Options.Given o.jobSpecUri
    · obtain ⟨location, hlocation, hne⟩ := hgiven
      exact loading_of_presentable hlocation hne (hpresentable location hlocation hne)
    · exact ⟨none, none, .unnamed hgiven⟩
  obtain ⟨spec?, notice?, hloading⟩ := hloading
  obtain ⟨problems, -, hverdict⟩ := verdict_of_loading hasks hloading
  exact hverdict.reportsJson

section Failures

variable {w : Surroundings} {s : Log.Session}

theorem addEnvFile_silent {path : Files.Path} {out : Outcome}
    (h : addEnvFile w s path = .error out) : Silent out := by
  unfold addEnvFile at h
  split at h
  · cases h
  · rcases except_bind_eq_error.mp h with hread | ⟨text, _, h⟩
    · obtain ⟨fault, _, rfl⟩ := except_mapError_eq_error.mp hread
      exact silent_escape _
    · rcases except_bind_eq_error.mp h with happly | ⟨env, _, h⟩
      · obtain ⟨fault, _, rfl⟩ := except_mapError_eq_error.mp happly
        exact (silent_escape _).after (quiet_logged _)
      · cases h

/-- What ends a run before its command is not reported. -/
theorem prepare_silent {setup : Setup} {out : Outcome} (h : prepare w s setup = .error out) :
    Silent out := by
  unfold prepare at h
  split at h
  next => cases h
  next path _ =>
    split at h
    · cases h
    · split at h
      · cases h
        exact silent_escape _
      · cases h
        exact ⟨rfl, rfl⟩
      · exact addEnvFile_silent h

/-- Options that cannot be put together are not reported. -/
theorem validate_silent {v : Validation} {fault : Options.SettingsFault}
    (h : Options.RunOptions.assemble w.files w.env v.settings v.explicit = .error fault) :
    Silent (validate w s v) := by
  rw [validate, h]
  cases fault with
  | absent path => exact ⟨rfl, rfl⟩
  | _ => exact silent_escape _

end Failures

/-- A run that does not get as far as its verdict writes nothing. -/
theorem silent_of_not_reportable {w : Surroundings} {args : List String} (hasks : AsksForJson args)
    (h : ¬ Reportable w args) : Silent (run w args) := by
  obtain ⟨setup, rest, v, hrequest, hread, hformat⟩ := hasks
  -- The run stops in the setup, at the options or at the job spec, whichever comes first.
  cases hprepare : prepare w (sessionOf setup) setup with
  | error out =>
    have hrun : run w args = out := by
      rw [run, hrequest]
      simp only [hprepare]
    exact hrun ▸ prepare_silent hprepare
  | ok prepared =>
    obtain ⟨env, said⟩ := prepared
    cases hassemble : Options.RunOptions.assemble w.files env v.settings v.explicit with
    | error fault =>
      have hrun : run w args = (validate { w with env } (sessionOf setup) v).after said := by
        rw [run, hrequest]
        simp only [hprepare, hread]
      rw [hrun]
      exact (validate_silent hassemble).after (prepare_quiet hprepare)
    | ok o =>
      have hasks : Asks w args .json o :=
        ⟨setup, rest, env, said, v, hrequest, hprepare, hread, hformat, hassemble⟩
      have hlost : ∃ location, o.jobSpecUri = some location ∧ location ≠ "" ∧
          ¬ Presentable w.home w.files location := by
        by_contra hnone
        refine h ⟨o, hasks, fun location hlocation hgiven => ?_⟩
        by_contra hnot
        exact hnone ⟨location, hlocation, hgiven, hnot⟩
      obtain ⟨location, hlocation, hgiven, hnot⟩ := hlost
      obtain ⟨fault, quiet, hquiet, hrun⟩ := run_eq_escape hasks hlocation hgiven hnot
      rw [hrun]
      exact (silent_escape _).after hquiet

/-- Arguments that name a settings file. -/
def settingsArguments : List String :=
  ["validate", "--connection-uri", "neo4j://db:7687", "--settings", "missing.yaml",
    "--format", "json"]

def settingsCommand : Validation where
  explicit := { connectionUri := "neo4j://db:7687" }
  settings := some { names := ["missing.yaml"] }
  format := .json

end GraphImport.CommandLine
