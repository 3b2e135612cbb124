import GraphImport.Proofs.CommandLine.Verdict

/-!
# Job specs that do not load

A run puts what keeps its job spec from loading into a notice, unless the path to it is not known,
something other than text lies there, or a number or time written in it has no value. Those faults
end the run before anything is reported.
-/

namespace GraphImport.CommandLine

open Files (FileFault Homes Path Tree)
open Options (RunOptions runMessages)
open Report (Format)
open Spec (JobSpec LoadFault Notice RunFault load loadForRun)

/-- A job spec, or a notice that says something. -/
def Shown (loaded : Except RunFault JobSpec) : Prop :=
  (∃ spec, loaded = .ok spec) ∨
    ∃ n : Notice, loaded = .error (.notice n) ∧ n.title ≠ "" ∧ n.message ≠ ""

/-- Whether a fault is put into a notice. -/
def IsNoticed : LoadFault → Prop
  | .file _ fault => fault = .absent
  | .yaml fault => fault.isOfFormat = true
  | .spec _ => True

/-- Whether a location leads to nothing at all, or to text in which every number and time that is
read has a value. -/
def Presentable (homes : Homes) (files : Tree) (location : String) : Prop :=
  ∃ path, (Path.ofText location).expandHome? homes = some path ∧
    (files.read path = .error .absent ∨
      ∃ text, files.read path = .ok text ∧
        ∀ fault, Yaml.read .v11 text = .error fault → fault.isOfFormat = true)

theorem shown_ok (spec : JobSpec) : Shown (.ok spec) := Or.inl ⟨spec, rfl⟩

theorem shown_notice {n : Notice} (htitle : n.title ≠ "") (hmessage : n.message ≠ "") :
    Shown (.error (.notice n)) :=
  Or.inr ⟨n, rfl, htitle, hmessage⟩

theorem not_shown_unknownHome : ¬ Shown (.error .unknownHome) := by
  rintro (⟨_, h⟩ | ⟨_, h, _⟩) <;> cases h

theorem not_shown_load (fault : LoadFault) : ¬ Shown (.error (.load fault)) := by
  rintro (⟨_, h⟩ | ⟨_, h, _⟩) <;> cases h

/-- Text with characters at its start is not empty, whatever follows. -/
theorem append_ne_empty {start : String} (h : start ≠ "") (rest : String) : start ++ rest ≠ "" :=
  fun hempty => h (String.append_eq_empty_iff.mp hempty).1

theorem message_notMapping_ne_empty (origin kind : String) :
    (Spec.SpecError.notMapping origin kind).message ≠ "" := by
  have h : "Job spec " ≠ "" := by decide
  exact append_ne_empty (append_ne_empty (append_ne_empty h origin) _) kind

/-- A notice always says something, and any other fault is kept as it is. -/
theorem shown_forRun (location : String) (path : Path) (fault : LoadFault)
    (h : IsNoticed fault) : Shown (.error (fault.forRun location path)) := by
  cases fault with
  | file other fault =>
    cases h
    have hmessage : "Job spec does not exist: " ≠ "" := by decide
    exact shown_notice (by simp) (append_ne_empty hmessage location)
  | yaml fault =>
    have hformat : fault.isOfFormat = true := h
    have hmessage : "Failed to parse " ≠ "" := by decide
    rw [LoadFault.forRun, if_pos hformat]
    exact shown_notice (by simp) (append_ne_empty hmessage path.name)
  | spec error =>
    cases error with
    | notMapping origin kind =>
      exact shown_notice (by simp) (message_notMapping_ne_empty origin kind)
    | flawed flaws =>
      have hmessage : "Invalid job spec in " ≠ "" := by decide
      exact shown_notice (by simp) (append_ne_empty hmessage path.name)

theorem forRun_of_not_noticed (location : String) (path : Path) {fault : LoadFault}
    (h : ¬ IsNoticed fault) : fault.forRun location path = .load fault := by
  cases fault with
  | file other fault =>
    cases fault with
    | absent => exact absurd rfl h
    | _ => rfl
  | yaml fault =>
    have hformat : ¬ fault.isOfFormat = true := h
    rw [LoadFault.forRun, if_neg hformat]
  | spec error => exact absurd trivial h

/-- Loading fails with the first of three faults: of the file, of the text in it, or of the
document in the text. -/
theorem load_eq_error {files : Tree} {path : Path} {fault : LoadFault} :
    load files path = .error fault ↔
      (∃ e, files.read path = .error e ∧ .file path e = fault) ∨
      ∃ text, files.read path = .ok text ∧
        ((∃ e, Yaml.read .v11 text = .error e ∧ .yaml e = fault) ∨
          ∃ raw, Yaml.read .v11 text = .ok raw ∧
            ∃ e, JobSpec.ofDocument path.text raw = .error e ∧ .spec e = fault) := by
  simp only [load, except_bind_eq_error, except_mapError_eq_error, except_mapError_eq_ok]

/-- All faults that can keep a job spec from loading go into notices exactly when nothing lies at
its path, or text in which every number and time has a value. -/
theorem load_noticed_iff {files : Tree} {path : Path} :
    (∀ fault, load files path = .error fault → IsNoticed fault) ↔
      files.read path = .error .absent ∨
        ∃ text, files.read path = .ok text ∧
          ∀ fault, Yaml.read .v11 text = .error fault → fault.isOfFormat = true := by
  constructor
  · intro h
    cases hread : files.read path with
    | error fault =>
      have habsent : fault = .absent :=
        h (.file path fault) (load_eq_error.mpr (.inl ⟨_, hread, rfl⟩))
      exact .inl (by rw [habsent])
    | ok text =>
      refine .inr ⟨text, rfl, fun fault hfault => ?_⟩
      exact h (.yaml fault) (load_eq_error.mpr (.inr ⟨text, hread, .inl ⟨fault, hfault, rfl⟩⟩))
  · intro h fault hfault
    rcases load_eq_error.mp hfault with ⟨e, hread, rfl⟩ | ⟨text, hread, hrest⟩
    · rcases h with h | ⟨_, h, _⟩
      · rw [h] at hread
        cases hread
        rfl
      · rw [h] at hread
        cases hread
    · rcases hrest with ⟨e, hyaml, rfl⟩ | ⟨_, _, e, _, rfl⟩
      · rcases h with h | ⟨_, h, hformat⟩
        · rw [h] at hread
          cases hread
        · rw [h] at hread
          cases hread
          exact hformat e hyaml
      · trivial

/-- What a run makes of a job spec that does not load is shown exactly when the location can be
presented. -/
theorem shown_loadForRun_iff {homes : Homes} {files : Tree} {location : String} :
    Shown (loadForRun homes files location) ↔ Presentable homes files location := by
  unfold loadForRun Presentable
  cases hpath : (Path.ofText location).expandHome? homes with
  | none => simp [not_shown_unknownHome]
  | some path =>
    simp only [Option.some.injEq, exists_eq_left', ← load_noticed_iff]
    cases hload : load files path with
    | ok spec =>
      constructor
      · intro _ fault hfault
        cases hfault
      · intro _
        exact shown_ok spec
    | error fault =>
      constructor
      · intro hshown other hother
        cases hother
        by_contra hnot
        rw [except_mapError_error, forRun_of_not_noticed location path hnot] at hshown
        exact not_shown_load fault hshown
      · intro h
        exact shown_forRun location path fault (h fault rfl)

/-- At a location that can be presented, a job spec is loaded or put into a notice. -/
theorem loading_of_presentable {w : Surroundings} {o : RunOptions} {location : String}
    (hlocation : o.jobSpecUri = some location) (hgiven : location ≠ "")
    (h : Presentable w.home w.files location) :
    ∃ spec? notice?, Loading w o spec? notice? := by
  rcases shown_loadForRun_iff.mpr h with ⟨spec, hload⟩ | ⟨n, hload, _, _⟩
  · exact ⟨some spec, none, .loaded hlocation hgiven hload⟩
  · exact ⟨none, some n, .failed hlocation hgiven hload⟩

/-- Elsewhere there is a fault that is no notice. -/
theorem loadForRun_of_not_presentable {homes : Homes} {files : Tree} {location : String}
    (h : ¬ Presentable homes files location) :
    ∃ fault, loadForRun homes files location = .error fault ∧ ∀ n, fault ≠ .notice n := by
  have hshown := mt shown_loadForRun_iff.mp h
  unfold loadForRun at hshown ⊢
  cases hpath : (Path.ofText location).expandHome? homes with
  | none => exact ⟨.unknownHome, rfl, fun _ => RunFault.noConfusion⟩
  | some path =>
    simp only [hpath] at hshown ⊢
    cases hload : load files path with
    | ok spec =>
      rw [hload] at hshown
      exact absurd (shown_ok spec) hshown
    | error fault =>
      rw [hload] at hshown
      have hnot : ¬ IsNoticed fault := fun hnoticed =>
        hshown (shown_forRun location path fault hnoticed)
      refine ⟨.load fault, ?_, fun _ => RunFault.noConfusion⟩
      rw [except_mapError_error, forRun_of_not_noticed location path hnot]

/-- Such a fault ends the run before anything is reported. -/
theorem run_eq_escape {w : Surroundings} {args : List String} {format : Format} {o : RunOptions}
    {location : String} (hasks : Asks w args format o) (hlocation : o.jobSpecUri = some location)
    (hgiven : location ≠ "") (h : ¬ Presentable w.home w.files location) :
    ∃ fault said, Quiet said ∧ run w args = (Outcome.escape (.jobSpec fault)).after said := by
  obtain ⟨setup, rest, env, said, v, hrequest, hprepare, hread, rfl, hassemble⟩ := hasks
  obtain ⟨fault, hload, hfault⟩ := loadForRun_of_not_presentable h
  have hvalidate : validateOptions { w with env } (sessionOf setup) v.format o =
      .escape (.jobSpec fault) := by
    rw [validateOptions, loadNamed_of_given hlocation hgiven, hload]
    cases fault with
    | notice n => exact absurd rfl (hfault n)
    | unknownHome => rfl
    | load fault => rfl
  refine ⟨fault, said, prepare_quiet hprepare, ?_⟩
  rw [run, hrequest]
  simp only [hprepare, hread, validate, hassemble, hvalidate]

theorem run_of_not_presentable {w : Surroundings} {args : List String} {format : Format}
    {o : RunOptions} {location : String} (hasks : Asks w args format o)
    (hlocation : o.jobSpecUri = some location) (hgiven : location ≠ "")
    (h : ¬ Presentable w.home w.files location) :
    ∃ fault, (run w args).escaped = some (.jobSpec fault) ∧
      (run w args).output.stdout = "" ∧
      ∀ item ∈ (run w args).output.stderr, Preliminary item := by
  obtain ⟨fault, said, hquiet, hrun⟩ := run_eq_escape hasks hlocation hgiven h
  rw [hrun]
  refine ⟨fault, rfl, after_stdout hquiet _, fun item hitem => ?_⟩
  rw [after_stderr, Outcome.escape, List.append_nil] at hitem
  exact hquiet.stderr item hitem

def datedText : String := "targets: 2024-02-30\n"

/-- A directory with a job spec in which there is a day that does not exist. -/
def datedDirectory : Surroundings where
  files := { entries := [({ names := ["job.yaml"] }, .file datedText.toUTF8.data.toList)] }

theorem loadForRun_dated : ∃ fault,
    loadForRun datedDirectory.home datedDirectory.files "job.yaml" = .error (.load fault) := by
  have hload : (match loadForRun datedDirectory.home datedDirectory.files "job.yaml" with
      | .error (.load _) => true
      | _ => false) = true := by decide +kernel
  split at hload
  next fault heq => exact ⟨fault, heq⟩
  next => exact absurd hload Bool.false_ne_true

theorem presentable_absent : Presentable {} {} "job.yaml" :=
  ⟨{ names := ["job.yaml"] }, by decide +kernel, .inl rfl⟩

end GraphImport.CommandLine
