import GraphImport.Options.Basic
import GraphImport.Proofs.Options.Secret
import GraphImport.Proofs.Rules.Soundness

/-!
# The verdict on a run

A run passes without a message exactly when its options and its job spec are sound. Options are
sound when they give one way to connect, a well-formed secret if that is the way, and a location.
-/

namespace GraphImport.Options

open Document (Value)
open Rules Spec

/-- Whether an option is set to a text that is not empty. -/
def Given (text? : Option String) : Prop :=
  ∃ text, text? = some text ∧ text ≠ ""

structure SoundOptions (o : RunOptions) : Prop where
  connection : Given o.connectionUri ↔ ¬ Given o.connectionSecretId
  secret : ∀ secret, o.connectionSecretId = some secret → secret ≠ "" →
    ∃ r : SecretVersion, r.Proper ∧ r.render = secret
  jobSpec : Given o.jobSpecUri

theorem given?_eq_some {text? : Option String} {text : String} :
    given? text? = some text ↔ text? = some text ∧ text ≠ "" := by
  cases text? with
  | none => simp [given?]
  | some s =>
    by_cases hs : s = ""
    · subst hs
      simp only [given?, beq_self_eq_true, if_true, reduceCtorEq, Option.some.injEq, false_iff]
      exact fun h => h.2 h.1.symm
    · simp only [given?, beq_iff_eq, hs, if_false, Option.some.injEq]
      constructor
      · rintro rfl
        exact ⟨rfl, hs⟩
      · exact fun h => h.1

theorem given?_isSome {text? : Option String} : (given? text?).isSome = true ↔ Given text? := by
  rw [Option.isSome_iff_exists, Given]
  simp only [given?_eq_some]

theorem given?_isNone {text? : Option String} : (given? text?).isNone = true ↔ ¬ Given text? := by
  rw [← given?_isSome, Option.isNone_iff_eq_none, Option.not_isSome_iff_eq_none]

theorem found_eq_nil {condition : Bool} {p : Problem} :
    found condition p = [] ↔ ¬ condition = true := by
  cases condition <;> simp [found]

/-- A secret passes the check when, if it is given, it renders a proper reference. -/
theorem not_malformed {secret? : Option String} :
    ¬ (given? secret?).any (fun s => (SecretVersion.parse? s).isNone) = true ↔
      ∀ secret, secret? = some secret → secret ≠ "" →
        ∃ r : SecretVersion, r.Proper ∧ r.render = secret := by
  have hparse (s : String) : ¬ (SecretVersion.parse? s).isNone = true ↔
      ∃ r : SecretVersion, r.Proper ∧ r.render = s := by
    rw [Option.isNone_iff_eq_none, ← ne_eq, Option.ne_none_iff_exists']
    simp only [SecretVersion.parse?_eq_some]
  rw [Option.any_eq_true, not_exists]
  simp only [given?_eq_some, not_and, hparse, and_imp]

theorem problems_eq_nil {o : RunOptions} : o.problems = [] ↔ SoundOptions o := by
  simp only [RunOptions.problems, List.append_eq_nil_iff, found_eq_nil, Bool.and_eq_true,
    not_malformed, given?_isSome, given?_isNone, Classical.not_not]
  constructor
  · rintro ⟨⟨⟨hsome, honce⟩, hsecret⟩, hjobSpec⟩
    refine ⟨⟨fun huri hsecret => honce ⟨huri, hsecret⟩, fun hsecret => ?_⟩, hsecret, hjobSpec⟩
    exact Classical.byContradiction fun huri => hsome ⟨huri, hsecret⟩
  · intro h
    refine ⟨⟨⟨?_, ?_⟩, h.secret⟩, h.jobSpec⟩
    · exact fun hneither => hneither.1 (h.connection.mpr hneither.2)
    · exact fun hboth => h.connection.mp hboth.1 hboth.2

theorem runMessages_some (o : RunOptions) {spec : JobSpec} (hmodelled : spec.Modelled) :
    runMessages o (some spec) =
      .ok (o.problems.map Problem.message ++ (report spec).map Rules.Problem.message) := by
  rw [runMessages, problemsOf_eq_report hmodelled]

/-- A run with a job spec that was read always ends with a list of messages, and the list is empty
exactly when the options and the job spec are sound. -/
theorem runMessages_eq_nil_iff (o : RunOptions) (origin : String) (raw : Value) (spec : JobSpec)
    (h : JobSpec.ofDocument origin raw = .ok spec) :
    ∃ messages, runMessages o (some spec) = .ok messages ∧
      (messages = [] ↔ SoundOptions o ∧ Sound spec) := by
  have hmodelled := JobSpec.ofDocument_modelled h
  refine ⟨_, runMessages_some o hmodelled, ?_⟩
  rw [List.append_eq_nil_iff, List.map_eq_nil_iff, List.map_eq_nil_iff, problems_eq_nil,
    report_eq_nil hmodelled]

/-- People who know each other, written from two sources and indexed afterwards. -/
def peopleDocument : Value := .record [
  ("sources", .list [
    .record [("name", .text "people"), ("query", .text "SELECT id, name FROM people")],
    .record [("name", .text "friendships")]]),
  ("targets", .list [
    .record [("name", .text "Person"), ("type", .text "node"), ("source", .text "people"),
      ("mappings", .list [
        .record [("name", .text "label"), ("constant", .text "Person"),
          ("fragment_type", .text "node"), ("role", .text "label")],
        .record [("name", .text "id"), ("field", .text "id"), ("fragment_type", .text "node"),
          ("role", .text "key")]])],
    .record [("name", .text "KNOWS"), ("type", .text "edge"), ("source", .text "friendships"),
      ("mappings", .list [
        .record [("name", .text "id"), ("field", .text "person"), ("fragment_type", .text "source"),
          ("role", .text "key")],
        .record [("name", .text "other"), ("field", .text "friend"),
          ("fragment_type", .text "target"), ("role", .text "key")],
        .record [("name", .text "KNOWS"), ("constant", .text "KNOWS"),
          ("fragment_type", .text "rel"), ("role", .text "type")]])],
    .record [("name", .text "totals"), ("type", .text "custom_query"), ("source", .text "people"),
      ("custom_query", .text "MATCH (p) RETURN count(p)")]]),
  ("actions", .list [
    .record [("name", .text "index"), ("type", .text "cypher"), ("execute_after", .text "node"),
      ("execute_after_name", .text "Person"),
      ("options", .record [("cypher", .text "CREATE INDEX")])]])]

def people : JobSpec where
  sources := [
    { name := "people", query := "SELECT id, name FROM people" },
    { name := "friendships" }]
  targets := [
    { name := "Person", type := .node, source := "people",
      mappings := [
        { name := "label", constant := "Person", fragment := .node, role := .label },
        { name := "id", field := "id", fragment := .node, role := .key }] },
    { name := "KNOWS", type := .edge, source := "friendships",
      mappings := [
        { name := "id", field := "person", fragment := .source, role := .key },
        { name := "other", field := "friend", fragment := .target, role := .key },
        { name := "KNOWS", constant := "KNOWS", fragment := .rel, role := .type }] },
    { name := "totals", type := .customQuery, source := "people",
      customQuery := "MATCH (p) RETURN count(p)" }]
  actions := [
    { name := "index", type := .cypher, executeAfter := some .node, executeAfterName := "Person",
      options := [("cypher", .text "CREATE INDEX")] }]

def peopleOptions : RunOptions where
  connectionSecretId := "projects/graph/secrets/uri/versions/1"
  jobSpecUri := "people.yaml"

theorem people_sound :
    JobSpec.ofDocument unnamedOrigin peopleDocument = .ok people ∧
      runMessages peopleOptions (some people) = .ok [] ∧
      SoundOptions peopleOptions ∧ Sound people := by
  have hread : JobSpec.ofDocument unnamedOrigin peopleDocument = .ok people := rfl
  have hrun : runMessages peopleOptions (some people) = .ok [] := rfl
  obtain ⟨messages, hmessages, hsound⟩ := runMessages_eq_nil_iff peopleOptions _ _ _ hread
  have hnone : messages = [] := Except.ok.inj (hmessages.symm.trans hrun)
  exact ⟨hread, hrun, hsound.mp hnone⟩

end GraphImport.Options
