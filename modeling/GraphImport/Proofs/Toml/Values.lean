import GraphImport.Proofs.Except
import GraphImport.Toml.Reader

/-!
# Values of a TOML text

What a TOML text writes is a scalar, a list or a table, so no field of its document is null.
-/

namespace GraphImport.Toml

open Document (Value)
open Text (Cursor)

section Values

variable {c next : Cursor} {v : Value}

theorem moment?_ne_null (h : moment? c = some (v, next)) : v ≠ .null := by
  obtain ⟨⟨date, c⟩, -, h⟩ := Option.bind_eq_some_iff.mp h
  dsimp only at h
  split at h
  · cases h
    exact nofun
  · split at h
    · cases h
      exact nofun
    · cases h
      exact nofun

theorem based?_ne_null (h : based? c = some (v, next)) : v ≠ .null := by
  have hread {isEmpty : Bool} {n : Int} {d : Cursor}
      (h : (if isEmpty then none else some (Value.int n, d)) = some (v, next)) : v ≠ .null := by
    split at h
    · cases h
    · cases h
      exact nofun
  unfold based? at h
  dsimp only at h
  split at h
  · exact hread h
  · exact hread h
  · exact hread h
  · cases h

theorem decimal?_ne_null (h : decimal? c = some (v, next)) : v ≠ .null := by
  unfold decimal? at h
  extract_lets at h
  split at h
  · cases h
  · split at h
    next =>
      split at h
      · obtain ⟨rfl, -⟩ := Prod.mk.inj (Option.some.inj h)
        exact nofun
      · obtain ⟨rfl, -⟩ := Prod.mk.inj (Option.some.inj h)
        exact nofun

theorem words_ne_null : ∀ entry ∈ words, entry.2 ≠ .null := by
  simp [words]

theorem word?_ne_null (h : word? c = some (v, next)) : v ≠ .null := by
  obtain ⟨entry, hentry, h⟩ := List.exists_of_findSome?_eq_some h
  obtain ⟨_, -, h⟩ := Option.map_eq_some_iff.mp h
  cases h
  exact words_ne_null entry hentry

theorem bareScalar_ne_null (h : bareScalar c = .ok (v, next)) : v ≠ .null := by
  unfold bareScalar at h
  split at h
  · split at h
    · cases h
    · cases h
      exact nofun
  · split at h
    · cases h
    · cases h
      exact nofun
  · cases h
    exact moment?_ne_null ‹_›
  · dsimp only at h
    split at h
    next read hread =>
      cases h
      obtain ⟨choice, hchoice, hsome⟩ := List.exists_of_findSome?_eq_some hread
      obtain rfl : choice = some (v, next) := hsome
      simp only [List.mem_cons, List.not_mem_nil, or_false] at hchoice
      rcases hchoice with h | h | h | h
      · obtain ⟨_, -, h⟩ := Option.map_eq_some_iff.mp h.symm
        cases h
        exact nofun
      · exact based?_ne_null h.symm
      · exact decimal?_ne_null h.symm
      · exact word?_ne_null h.symm
    next => cases h

theorem items_ne_null {fuel : Nat} {known : List Value} (h : items fuel known c = .ok (v, next)) :
    v ≠ .null := by
  induction fuel generalizing known c with
  | zero => cases h
  | succ fuel ih =>
    obtain ⟨⟨item, c⟩, -, h⟩ := except_bind_eq_ok.mp h
    obtain ⟨c, -, h⟩ := except_bind_eq_ok.mp h
    split at h
    · cases h
      exact nofun
    · obtain ⟨c, -, h⟩ := except_bind_eq_ok.mp h
      split at h
      · cases h
        exact nofun
      · exact ih h
    · cases h

theorem pairs_ne_null {fuel : Nat} {known : Fields} (h : pairs fuel known c = .ok (v, next)) :
    v ≠ .null := by
  induction fuel generalizing known c with
  | zero => cases h
  | succ fuel ih =>
    obtain ⟨⟨names, c⟩, -, h⟩ := except_bind_eq_ok.mp h
    obtain ⟨⟨item, c⟩, -, h⟩ := except_bind_eq_ok.mp h
    dsimp only at h
    split at h
    · cases h
    · split at h
      · cases h
        exact nofun
      · exact ih h
      · cases h

theorem value_ne_null {fuel : Nat} (h : value fuel c = .ok (v, next)) : v ≠ .null := by
  cases fuel with
  | zero => cases h
  | succ fuel =>
    rw [value] at h
    split at h
    · obtain ⟨d, -, h⟩ := except_bind_eq_ok.mp h
      split at h
      · cases h
        exact nofun
      · exact items_ne_null h
    · dsimp only at h
      split at h
      · cases h
        exact nofun
      · exact pairs_ne_null h
    · split at h
      · cases hstring : string _ c with
        | error fault =>
          rw [hstring] at h
          cases h
        | ok read =>
          rw [hstring] at h
          cases h
          exact nofun
      · exact bareScalar_ne_null h
    · cases h

end Values

/-- Fields without a null value among them. -/
def Filled (fields : Fields) : Prop :=
  ∀ field ∈ fields, field.2 ≠ .value .null

section Fields

variable {fields after : Fields} {item : Item}

theorem Filled.putField (h : Filled fields) (hitem : item ≠ .value .null) (name : String) :
    Filled (putField fields name item) := by
  intro field hfield
  unfold Toml.putField at hfield
  split at hfield
  · obtain ⟨⟨known, old⟩, hold, rfl⟩ := List.mem_map.mp hfield
    dsimp only
    split
    · exact hitem
    · exact h _ hold
  · rcases List.mem_append.mp hfield with hfield | hfield
    · exact h field hfield
    · rw [List.mem_singleton.mp hfield]
      exact hitem

/-- A table or an array is put in place of an item once what it holds is known. -/
theorem Filled.enter {toItem : Fields → Item} {inner : Except Cause Fields} {name : String}
    (h : Filled fields)
    (hafter : (do let item ← toItem <$> inner; return Toml.putField fields name item) = .ok after)
    (hitem : ∀ fields, toItem fields ≠ .value .null) : Filled after := by
  cases inner with
  | error cause => cases hafter
  | ok inner =>
    cases hafter
    exact h.putField (hitem inner) name

theorem Filled.alter {closed : Cause} {change : Fields → Except Cause Fields} {key : Key}
    (hchange : ∀ {fields after}, Filled fields → change fields = .ok after → Filled after)
    (h : Filled fields) (hafter : alter closed change key fields = .ok after) : Filled after := by
  cases key with
  | nil => exact hchange h hafter
  | cons name rest =>
    rw [Toml.alter] at hafter
    split at hafter
    · exact h.enter hafter (by exact nofun)
    · exact h.enter hafter (by exact nofun)
    · exact h.enter hafter (by exact nofun)
    · cases hafter

theorem Filled.declare {key : Key} (h : Filled fields) (hafter : declare key fields = .ok after) :
    Filled after := by
  refine h.alter (fun {fields after} h hafter => ?_) hafter
  split at hafter
  · cases hafter
    exact h.putField (by exact nofun) _
  · cases hafter
    exact h.putField (by exact nofun) _
  · cases hafter
  · cases hafter

theorem Filled.extend {key : Key} (h : Filled fields) (hafter : extend key fields = .ok after) :
    Filled after := by
  refine h.alter (fun {fields after} h hafter => ?_) hafter
  split at hafter
  · cases hafter
    exact h.putField (by exact nofun) _
  · cases hafter
    exact h.putField (by exact nofun) _
  · cases hafter
  · cases hafter

theorem Filled.assignFrom {header : Nat} {passed key : Key} {closed : Cause} {v : Value}
    (h : Filled fields) (hv : v ≠ .null)
    (hafter : assignFrom header passed closed v key fields = .ok after) : Filled after := by
  unfold Toml.assignFrom at hafter
  split at hafter
  · cases hafter
    exact h
  · split at hafter
    · cases hafter
    · cases hafter
      exact h.putField (fun hitem => hv (Item.value.inj hitem)) _
  · split at hafter
    · exact h.enter hafter (by exact nofun)
    · split at hafter
      · exact h.enter hafter (by exact nofun)
      · cases hafter
    · cases hafter
    · cases hafter

end Fields

section Documents

variable {p q : Progress} {c next : Cursor}

theorem Progress.put_eq_ok {fields : Except Cause Fields} (h : p.put c fields = .ok q) :
    ∃ after, fields = .ok after ∧ q = { p with fields := after } := by
  cases fields with
  | error cause => cases h
  | ok after => exact ⟨after, rfl, (Except.ok.inj h).symm⟩

theorem header_filled {ofArray : Bool} (hp : Filled p.fields)
    (h : header p ofArray c = .ok (q, next)) : Filled q.fields := by
  obtain ⟨⟨names, c⟩, -, h⟩ := except_bind_eq_ok.mp h
  obtain ⟨p, hput, h⟩ := except_bind_eq_ok.mp h
  obtain ⟨after, hafter, rfl⟩ := Progress.put_eq_ok hput
  split at h
  · cases h
    cases ofArray with
    | true => exact hp.extend hafter
    | false => exact hp.declare hafter
  · cases h

theorem assignment_filled (hp : Filled p.fields) (h : assignment p c = .ok (q, next)) :
    Filled q.fields := by
  obtain ⟨⟨names, c⟩, -, h⟩ := except_bind_eq_ok.mp h
  obtain ⟨⟨v, c⟩, hvalue, h⟩ := except_bind_eq_ok.mp h
  obtain ⟨p, hput, h⟩ := except_bind_eq_ok.mp h
  obtain ⟨after, hafter, rfl⟩ := Progress.put_eq_ok hput
  cases h
  exact hp.alter (fun h hafter => h.assignFrom (value_ne_null hvalue) hafter) hafter

theorem statement_filled (hp : Filled p.fields) (h : statement p c = .ok (q, next)) :
    Filled q.fields := by
  unfold statement at h
  split at h
  · exact header_filled hp h
  · exact header_filled hp h
  · split at h
    · exact assignment_filled hp h
    · split at h
      · cases h
        exact hp
      · cases h
  · cases h
    exact hp

theorem linesFrom_filled {fuel : Nat} (hp : Filled p.fields) (h : linesFrom fuel p c = .ok q) :
    Filled q.fields := by
  induction fuel generalizing p c with
  | zero =>
    cases h
    exact hp
  | succ fuel ih =>
    obtain ⟨⟨p, c⟩, hstatement, h⟩ := except_bind_eq_ok.mp h
    obtain ⟨c, -, h⟩ := except_bind_eq_ok.mp h
    have hfilled := statement_filled hp hstatement
    split at h
    · cases h
      exact hfilled
    · exact ih hfilled h
    · cases h

theorem Item.toValue_ne_null {item : Item} (h : item ≠ .value .null) : item.toValue ≠ .null := by
  cases item with
  | value v => exact fun hv => h (congrArg Item.value hv)
  | table => exact nofun
  | array => exact nofun

theorem Filled.entriesOf {fields : Fields} (h : Filled fields) :
    ∀ entry ∈ entriesOf fields, entry.2 ≠ .null := by
  induction fields with
  | nil => exact List.forall_mem_nil _
  | cons field rest ih =>
    obtain ⟨hfield, hrest⟩ := List.forall_mem_cons.mp h
    exact List.forall_mem_cons.mpr ⟨Item.toValue_ne_null hfield, ih hrest⟩

theorem read_ne_null {text : List Char} {entries : List (Value × Value)}
    (h : read text = .ok (.map entries)) : ∀ entry ∈ entries, entry.2 ≠ .null := by
  unfold read at h
  cases hlines : linesFrom (text.length + 1) {} { rest := text } with
  | error fault =>
    rw [hlines] at h
    cases h
  | ok p =>
    rw [hlines] at h
    cases h
    have hempty : Filled (Progress.fields {}) := List.forall_mem_nil _
    exact (linesFrom_filled hempty hlines).entriesOf

end Documents

end GraphImport.Toml
