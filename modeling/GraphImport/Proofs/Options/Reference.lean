import GraphImport.Proofs.Options.Verdict

/-!
# Which texts are secret references

A text refers to a version of a secret in one way at most, and what is read from it is that
version. A secret that is given to a run is told to be malformed exactly when it refers to none. An
empty one is not looked at: like an absent one it counts as not given.
-/

namespace GraphImport.Options

namespace SecretVersion

/-- What can stand for a project, a secret or a version. -/
def IsPart (part : String) : Prop :=
  part ≠ "" ∧ ∀ c ∈ part.toList, c ≠ '/' ∧ Text.isSpace c = false

/-- A text that is put together from the parts of a reference. -/
structure Refers (text : String) (r : SecretVersion) : Prop where
  text_eq : text =
    "projects/" ++ r.project ++ "/secrets/" ++ r.secret ++ "/versions/" ++ r.version
  project : IsPart r.project
  secret : IsPart r.secret
  version : IsPart r.version

theorem isPart_iff {part : String} : isPart part.toList = true ↔ IsPart part := by
  simp [isPart, IsPart]

theorem refers_iff {text : String} {r : SecretVersion} :
    Refers text r ↔ r.Proper ∧ r.render = text := by
  rw [Proper, isPart_iff, isPart_iff, isPart_iff]
  constructor
  · intro h
    exact ⟨⟨h.project, h.secret, h.version⟩, h.text_eq.symm⟩
  · rintro ⟨⟨hproject, hsecret, hversion⟩, hrender⟩
    exact ⟨hrender.symm, hproject, hsecret, hversion⟩

theorem parse?_eq_some_iff_refers {text : String} {r : SecretVersion} :
    parse? text = some r ↔ Refers text r := by
  rw [parse?_eq_some, refers_iff]

theorem parse?_isSome {text : String} : (parse? text).isSome = true ↔ ∃ r, Refers text r := by
  simp only [Option.isSome_iff_exists, parse?_eq_some_iff_refers]

end SecretVersion

open SecretVersion

theorem mem_found {condition : Bool} {p q : Problem} :
    q ∈ found condition p ↔ condition = true ∧ q = p := by
  cases condition <;> simp [found]

theorem malformedSecret_mem_problems {o : RunOptions} :
    .malformedSecret ∈ o.problems ↔
      ∃ text, o.connectionSecretId = some text ∧ text ≠ "" ∧ ¬ ∃ r, Refers text r := by
  have hparse (text : String) : (parse? text).isNone = true ↔ ¬ ∃ r, Refers text r := by
    rw [← parse?_isSome, Option.isNone_iff_eq_none, Option.not_isSome_iff_eq_none]
  simp [RunOptions.problems, mem_found, Option.any_eq_true, given?_eq_some, hparse, and_assoc]

/-- The message about a malformed secret is that of no other problem. -/
theorem Problem.message_eq_malformedSecret {p : Problem} :
    p.message = Problem.malformedSecret.message ↔ p = .malformedSecret := by
  cases p <;> decide

/-- A text is read as a secret reference exactly when it is put together from the three parts of
one. There is one way at most to take it apart, and this is what is read: whatever was read is
rendered as the text it was read from, and what a proper reference is rendered as is read as that
reference. The secret of a run is told to be malformed exactly when it is given, which an empty one
is not, and refers to nothing. -/
theorem secret_judged_by_grammar :
    (∀ text, (parse? text).isSome = true ↔ ∃ r, Refers text r) ∧
    (∀ text r, parse? text = some r ↔ Refers text r) ∧
    (∀ text r other, Refers text r → Refers text other → r = other) ∧
    (∀ text r, parse? text = some r → r.render = text) ∧
    (∀ r : SecretVersion, IsPart r.project → IsPart r.secret → IsPart r.version →
      parse? r.render = some r) ∧
    ∀ o : RunOptions, Problem.malformedSecret.message ∈ o.problems.map Problem.message ↔
      ∃ text, o.connectionSecretId = some text ∧ text ≠ "" ∧ ¬ ∃ r, Refers text r := by
  refine ⟨fun _ => parse?_isSome, fun _ _ => parse?_eq_some_iff_refers, ?_, ?_, ?_, ?_⟩
  · intro text r other hr hother
    have hread := parse?_eq_some_iff_refers.mpr hr
    rw [parse?_eq_some_iff_refers.mpr hother] at hread
    exact (Option.some.inj hread).symm
  · intro text r hread
    exact (parse?_eq_some.mp hread).2
  · intro r hproject hsecret hversion
    exact parse?_eq_some_iff_refers.mpr ⟨rfl, hproject, hsecret, hversion⟩
  · intro o
    rw [← malformedSecret_mem_problems, List.mem_map]
    simp only [Problem.message_eq_malformedSecret, exists_eq_right]

/-- The words between the parts can be parts themselves. -/
def keywords : SecretVersion where
  project := "projects"
  secret := "secrets"
  version := "versions"

/-- A secret with a wide space in the name of its project. -/
def spaced : RunOptions where
  connectionSecretId := "projects/a\u3000b/secrets/c/versions/1"

theorem keywords_judged :
    parse? "projects/projects/secrets/secrets/versions/versions" = some keywords ∧
      keywords.render = "projects/projects/secrets/secrets/versions/versions" ∧
      (∀ r, Refers "projects/projects/secrets/secrets/versions/versions" r → r = keywords) ∧
      Problem.malformedSecret.message ∈ spaced.problems.map Problem.message := by
  obtain ⟨hsome, hrefers, hunique, hrender, hread, hmalformed⟩ := secret_judged_by_grammar
  have hkeywords : parse? keywords.render = some keywords :=
    hread keywords (isPart_iff.mp (by decide)) (isPart_iff.mp (by decide))
      (isPart_iff.mp (by decide))
  have hparsed : parse? "projects/projects/secrets/secrets/versions/versions" = some keywords :=
    hkeywords
  refine ⟨hparsed, hrender _ _ hparsed, ?_, ?_⟩
  · intro r hr
    exact hunique _ _ _ hr ((hrefers _ _).mp hparsed)
  · refine (hmalformed _).mpr ⟨_, rfl, by decide, ?_⟩
    rw [← hsome]
    decide +kernel

/-- A secret that refers to nothing is not always told to be malformed: an empty one is not. -/
theorem empty_not_judged_by_grammar :
    ¬ ∀ (o : RunOptions) (text : String), o.connectionSecretId = some text →
      (Problem.malformedSecret.message ∈ o.problems.map Problem.message ↔
        ¬ ∃ r, Refers text r) := by
  intro claim
  have hnothing : ¬ ∃ r, Refers "" r := by
    rw [← parse?_isSome]
    decide
  have htold := (claim { connectionSecretId := "" } "" rfl).mpr hnothing
  rw [List.mem_map] at htold
  simp only [Problem.message_eq_malformedSecret, exists_eq_right] at htold
  exact absurd htold (by decide)

end GraphImport.Options
