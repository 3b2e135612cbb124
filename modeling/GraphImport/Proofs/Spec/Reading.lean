import GraphImport.Spec.Reader

/-!
# What can be read

A part that was read was read field by field, so what the readers of its fields promise holds of
it. In particular the type of every target of a job spec that was read is a member of the
vocabulary of types.
-/

namespace GraphImport.Spec

open Document (Value)

variable {α β : Type}

namespace Checked

theorem map_eq_ok {f : α → β} {c : Checked α} {b : β} :
    f <$> c = .ok b ↔ ∃ a, c = .ok a ∧ f a = b := by
  change map f c = .ok b ↔ _
  cases c <;> simp [map]

theorem seq_eq_ok {f : Checked (α → β)} {c : Checked α} {b : β} :
    f <*> c = .ok b ↔ ∃ g a, f = .ok g ∧ c = .ok a ∧ g a = b := by
  change seq f c = .ok b ↔ _
  cases f <;> cases c <;> simp [seq]

theorem under_eq_ok {step : Step} {c : Checked α} {a : α} :
    c.under step = .ok a ↔ c = .ok a := by
  cases c <;> simp [under]

end Checked

namespace Reader

theorem model_eq_ok {title : String} {fields : List (Value × Value) → Checked α} {v : Value}
    {a : α} (h : model title fields v = .ok a) : ∃ entries, fields entries = .ok a := by
  cases v with
  | map entries => exact ⟨entries, h⟩
  | cycle ofList =>
    cases ofList with
    | false => exact ⟨[], h⟩
    | true => simp [model, Checked.mismatch] at h
  | _ => simp [model, Checked.mismatch] at h

theorem required_eq_ok {name : String} {reader : Reader α} {entries : List (Value × Value)} {a : α}
    (h : required name reader entries = .ok a) : ∃ v, reader v = .ok a := by
  unfold required at h
  split at h
  next v _ => exact ⟨v, Checked.under_eq_ok.mp h⟩
  next => simp [Checked.mismatch, Checked.under] at h

theorem withDefault_eq_ok {name : String} {reader : Reader α} {default : α}
    {entries : List (Value × Value)} {a : α}
    (h : withDefault name reader default entries = .ok a) :
    a = default ∨ ∃ v, reader v = .ok a := by
  unfold withDefault at h
  split at h
  next v _ => exact Or.inr ⟨v, Checked.under_eq_ok.mp h⟩
  next => exact Or.inl (Checked.ok.inj h).symm

theorem itemsFrom_eq_ok {reader : Reader α} {index : Nat} {values : List Value} {as : List α}
    (h : itemsFrom reader index values = .ok as) : ∀ a ∈ as, ∃ v, reader v = .ok a := by
  induction values generalizing index as with
  | nil =>
    cases Checked.ok.inj h
    simp
  | cons v rest ih =>
    rw [itemsFrom, Checked.seq_eq_ok] at h
    obtain ⟨g, later, hhead, hlater, rfl⟩ := h
    obtain ⟨first, hfirst, rfl⟩ := Checked.map_eq_ok.mp hhead
    intro a ha
    rcases List.mem_cons.mp ha with rfl | ha
    · exact ⟨v, Checked.under_eq_ok.mp hfirst⟩
    · exact ih hlater a ha

theorem items_eq_ok {reader : Reader α} {v : Value} {as : List α} (h : items reader v = .ok as) :
    ∀ a ∈ as, ∃ item, reader item = .ok a := by
  cases v with
  | list values => exact itemsFrom_eq_ok h
  | set values => exact itemsFrom_eq_ok h
  | cycle ofList =>
    cases ofList with
    | true =>
      cases Checked.ok.inj h
      simp
    | false => simp [items, Checked.mismatch] at h
  | _ => simp [items, Checked.mismatch] at h

/-- A field that lists parts, absent or read, holds only parts that were read. -/
theorem withDefault_items_eq_ok {name : String} {reader : Reader α}
    {entries : List (Value × Value)} {as : List α}
    (h : withDefault name (items reader) [] entries = .ok as) :
    ∀ a ∈ as, ∃ item, reader item = .ok a := by
  rcases withDefault_eq_ok h with rfl | ⟨v, hv⟩
  · simp
  · exact items_eq_ok hv

theorem member_eq_ok [Vocabulary α] {v : Value} {a : α} (h : member v = .ok a) :
    a ∈ (Vocabulary.members : List α) := by
  unfold member at h
  extract_lets word? at h
  cases hfound : word?.bind (ofWord? (α := α)) with
  | none => simp [hfound, Checked.mismatch] at h
  | some found =>
    rw [hfound] at h
    cases Checked.ok.inj h
    obtain ⟨w, _, hw⟩ := Option.bind_eq_some_iff.mp hfound
    exact List.mem_of_find?_eq_some hw

theorem member_of_ofWord? [Vocabulary α] {s : String} {a : α} (h : ofWord? s = some a) :
    member (.text s) = .ok a := by
  unfold member
  dsimp only [Option.bind_some]
  rw [h]

theorem member_of_unknown [Vocabulary α] {s : String} (h : (ofWord? s : Option α) = none) :
    (member : Reader α) (.text s) =
      .mismatch (.notMember ((Vocabulary.members : List α).map word)) := by
  unfold member
  dsimp only [Option.bind_some]
  rw [h]

end Reader

open Reader

theorem Target.read_type {v : Value} {t : Target} (h : Target.read v = .ok t) :
    t.type ∈ (Vocabulary.members : List TargetType) := by
  obtain ⟨entries, h⟩ := model_eq_ok h
  simp only [Checked.seq_eq_ok, Checked.map_eq_ok] at h
  obtain ⟨_, _, ⟨_, _, ⟨_, _, ⟨_, _, ⟨_, _, ⟨_, _, ⟨_, type, ⟨_, _, ⟨_, _, rfl⟩, _, rfl⟩, htype,
    rfl⟩, _, rfl⟩, _, rfl⟩, _, rfl⟩, _, rfl⟩, _, rfl⟩, _, rfl⟩ := h
  obtain ⟨w, hw⟩ := required_eq_ok htype
  exact member_eq_ok hw

/-- Whether the types of all targets are members of the vocabulary of types. -/
def JobSpec.Modelled (spec : JobSpec) : Prop :=
  ∀ t ∈ spec.targets, t.type ∈ (Vocabulary.members : List TargetType)

theorem JobSpec.read_modelled {v : Value} {spec : JobSpec} (h : JobSpec.read v = .ok spec) :
    spec.Modelled := by
  obtain ⟨entries, h⟩ := model_eq_ok h
  simp only [Checked.seq_eq_ok, Checked.map_eq_ok] at h
  obtain ⟨_, _, ⟨_, targets, ⟨_, _, rfl⟩, htargets, rfl⟩, _, rfl⟩ := h
  intro t ht
  obtain ⟨item, hitem⟩ := withDefault_items_eq_ok htargets t ht
  exact Target.read_type hitem

theorem JobSpec.ofDocument_modelled {origin : String} {raw : Value} {spec : JobSpec}
    (h : JobSpec.ofDocument origin raw = .ok spec) : spec.Modelled := by
  have hread : ∃ v, JobSpec.read v = .ok spec := by
    unfold ofDocument at h
    extract_lets ofValue at h
    have hvalue (v : Value) (hv : ofValue v = .ok spec) : JobSpec.read v = .ok spec := by
      simp only [ofValue] at hv
      split at hv
      next _ hok => rw [hok, Except.ok.inj hv]
      next => simp at hv
    split at h
    · exact ⟨.map [], hvalue _ h⟩
    · exact ⟨_, hvalue _ h⟩
    · exact ⟨.cycle false, hvalue (.cycle false) h⟩
    · simp at h
  obtain ⟨v, hv⟩ := hread
  exact JobSpec.read_modelled hv

theorem JobSpec.ofDocument_map {entries : List (Value × Value)} {spec : JobSpec}
    (h : JobSpec.read (.map entries) = .ok spec) (origin : String) :
    JobSpec.ofDocument origin (.map entries) = .ok spec := by
  unfold ofDocument
  dsimp only
  rw [h]

theorem JobSpec.ofDocument_flawed {entries : List (Value × Value)} {flaws : List Flaw}
    (h : JobSpec.read (.map entries) = .flawed flaws) (origin : String) :
    JobSpec.ofDocument origin (.map entries) = .error (.flawed flaws) := by
  unfold ofDocument
  dsimp only
  rw [h]

end GraphImport.Spec
