import GraphImport.Proofs.Log.Notes

/-!
# Logging and the problems of a job spec

The level and the style of a session, and fields that are bound under most names, change nothing
about the problems that are found. Fields bound as arguments do: every note is given to them, and
unless its event may leave them unused, the examination ends with a fault of the log.
-/

namespace GraphImport.Log

open Document (Value)
open Rules (notesOf problemsOf)
open Spec (JobSpec)

/-- A change to a session. -/
inductive Adjustment
  | configure (style : Style) (level : String)
  | bind (fields : Fields)
  | unbind

/-- Whether a change leaves the arguments alone. -/
def Adjustment.BindsNoArguments : Adjustment → Prop
  | .bind fields => argumentsField ∉ fields.map Prod.fst
  | .configure _ _ | .unbind => True

namespace Session

def adjust (s : Session) : Adjustment → Session
  | .configure style level => (s.configure style level).1
  | .bind fields => s.bind fields
  | .unbind => s.unbind

/-- A session after changes. -/
def adjusted (s : Session) (changes : List Adjustment) : Session :=
  changes.foldl adjust s

/-- No configuration closes a session. -/
theorem isOpen_configure {s : Session} (h : s.isOpen = true) (style : Style) (name : String) :
    (s.configure style name).1.isOpen = true := by
  unfold configure
  cases Level.ofName? name with
  | some level => rfl
  | none =>
    dsimp only
    cases layoutFault? (Text.capitals name) with
    | some fault => rfl
    | none => exact h

theorem isOpen_adjusted {s : Session} (h : s.isOpen = true) (changes : List Adjustment) :
    (s.adjusted changes).isOpen = true := by
  induction changes generalizing s with
  | nil => exact h
  | cons change rest ih =>
    apply ih
    cases change with
    | configure style level => exact isOpen_configure h style level
    | bind fields => exact h
    | unbind => exact h

theorem boundArguments_bind (s : Session) {fields : Fields}
    (h : argumentsField ∉ fields.map Prod.fst) :
    (s.bind fields).boundArguments = s.boundArguments := by
  rw [boundArguments, bind, List.lookup_append, lookup_filter_unlisted h,
    lookup_eq_none_of_notMem h, Option.or_none, boundArguments]

/-- A change that binds no arguments keeps them idle. -/
theorem isIdle_adjust {s : Session} (hidle : IsIdle s.boundArguments) {change : Adjustment}
    (h : change.BindsNoArguments) : IsIdle (s.adjust change).boundArguments := by
  cases change with
  | configure style level =>
    rw [adjust, boundArguments, configure_bound]
    exact hidle
  | bind fields =>
    rw [adjust, boundArguments_bind s h]
    exact hidle
  | unbind => exact rfl

theorem isIdle_adjusted {s : Session} (hidle : IsIdle s.boundArguments)
    {changes : List Adjustment} (h : ∀ change ∈ changes, change.BindsNoArguments) :
    IsIdle (s.adjusted changes).boundArguments := by
  induction changes generalizing s with
  | nil => exact hidle
  | cons change rest ih =>
    rw [List.forall_mem_cons] at h
    exact ih (isIdle_adjust hidle h.1) h.2

theorem examine_of_idle {s : Session} (h : IsIdle s.boundArguments) (spec : JobSpec) :
    (s.examine spec).2 = (problemsOf spec).mapError .rules := by
  have hlogged := logNotes_of_idle h (notesOf spec)
  rw [examine]
  cases hlog : s.logNotes (notesOf spec) with
  | mk lines fault? =>
    rw [hlog] at hlogged
    cases hlogged
    rfl

/-- A walk without notes is not affected by the log. -/
theorem examine_of_notesOf_eq_nil (s : Session) {spec : JobSpec} (h : notesOf spec = []) :
    (s.examine spec).2 = (problemsOf spec).mapError .rules := by
  rw [examine, h]
  rfl

theorem examine_of_not_idle {s : Session} (h : ¬ IsIdle s.boundArguments) {spec : JobSpec}
    (hnotes : notesOf spec ≠ []) : ∃ fault, s.examine spec = ([], .error (.log fault)) := by
  obtain ⟨fault, hlog⟩ := logNotes_of_not_idle h hnotes
  exact ⟨fault, by rw [examine, hlog]⟩

/-- A fault of the log is none of the rules. -/
theorem mapError_rules_ne_log (spec : JobSpec) (fault : CallFault) :
    (problemsOf spec).mapError ExaminationFault.rules ≠ .error (.log fault) := by
  intro h
  obtain ⟨_, _, hfault⟩ := except_mapError_eq_error.mp h
  cases hfault

end Session

open Session

/-- An open session finds what the rules alone find, whatever its level and style are and whatever
is bound, except that bound arguments that are not idle end the examination at the first note.
Changes that bind no arguments keep the session open and its arguments idle, so that it goes on
finding the same. -/
theorem examine_eq_iff_idle (s : Session) (spec : JobSpec) (hopen : s.isOpen = true) :
    ((s.examine spec).2 = (problemsOf spec).mapError .rules ↔
        notesOf spec = [] ∨ IsIdle s.boundArguments) ∧
      (notesOf spec ≠ [] → ¬ IsIdle s.boundArguments →
        ∃ fault, s.examine spec = ([], .error (.log fault))) ∧
      ∀ changes : List Adjustment, (∀ change ∈ changes, change.BindsNoArguments) →
        IsIdle s.boundArguments → (s.adjusted changes).isOpen = true ∧
          ((s.adjusted changes).examine spec).2 = (problemsOf spec).mapError .rules := by
  refine ⟨⟨fun hsame => Classical.byContradiction fun hneither => ?_, ?_⟩,
    fun hnotes hnot => examine_of_not_idle hnot hnotes, fun changes hchanges hidle =>
      ⟨isOpen_adjusted hopen changes, examine_of_idle (isIdle_adjusted hidle hchanges) spec⟩⟩
  · rw [not_or] at hneither
    obtain ⟨fault, hfault⟩ := examine_of_not_idle hneither.2 hneither.1
    rw [hfault] at hsame
    exact mapError_rules_ne_log spec fault hsame.symm
  · rintro (hnone | hidle)
    · exact examine_of_notesOf_eq_nil s hnone
    · exact examine_of_idle hidle spec

/-- A session at the level of warnings. -/
def warned : Session :=
  ({} : Session).adjust (.configure .console "WARNING")

/-- Changes to it: one configures it anew and binds a number to a name, the other binds one as
arguments. -/
def labelled : List Adjustment := [.configure .json "INFO", .bind [("run", .int 7)]]

def numbered : List Adjustment := [.bind [(argumentsField, .int 5)]]

theorem labelled_examine :
    warned.isOpen = true ∧ (∀ change ∈ labelled, change.BindsNoArguments) ∧
      ((warned.adjusted labelled).examine {}).2 = .ok [.noActiveTarget] ∧
      (warned.adjusted numbered).isOpen = true ∧ notesOf {} ≠ [] ∧
      ¬ IsIdle (warned.adjusted numbered).boundArguments ∧
      ∃ fault, (warned.adjusted numbered).examine {} = ([], .error (.log fault)) := by
  have hopen : warned.isOpen = true := rfl
  have hlabelled : ∀ change ∈ labelled, change.BindsNoArguments := by
    simp [labelled, Adjustment.BindsNoArguments, argumentsField]
  have hidle : IsIdle warned.boundArguments := rfl
  have hnotes : notesOf {} ≠ [] := by decide
  have hbound : (warned.adjusted numbered).boundArguments = .int 5 := rfl
  have hnot : ¬ IsIdle (warned.adjusted numbered).boundArguments := by
    rw [hbound]
    exact Bool.false_ne_true
  obtain ⟨_, _, hsame⟩ := examine_eq_iff_idle warned {} hopen
  have hopened := isOpen_adjusted hopen numbered
  obtain ⟨_, hfault, _⟩ := examine_eq_iff_idle (warned.adjusted numbered) {} hopened
  exact ⟨hopen, hlabelled, (hsame labelled hlabelled hidle).2.trans rfl, hopened, hnotes, hnot,
    hfault hnotes hnot⟩

/-- A number bound as arguments ends the examination even of an empty job spec. -/
theorem numbered_not_examined : ¬ ∀ (changes : List Adjustment) (spec : JobSpec),
    ((warned.adjusted changes).examine spec).2 = (problemsOf spec).mapError .rules := by
  intro h
  have hfault : ((warned.adjusted numbered).examine {}).2 =
      .error (.log (.uncounted "int")) := rfl
  have hfound : (problemsOf {}).mapError ExaminationFault.rules = .ok [.noActiveTarget] := rfl
  cases hfault.symm.trans ((h numbered {}).trans hfound)

end GraphImport.Log
