import GraphImport.Proofs.Text.LineEnds
import GraphImport.Text.Styling

/-!
# Texts without their sequences

A text keeps all its characters exactly when it holds no sequence. Parts of a text can be looked at
one by one as long as none of them ends within a sequence: behind a part without an escape
character, and before a character that cuts a sequence off.
-/

namespace GraphImport.Text

/-- A sequence for terminals: an escape character, a bracket, parameters and a letter. -/
def IsSequence (cs : List Char) : Prop :=
  ∃ parameters letter, cs = '\x1b' :: '[' :: (parameters ++ [letter]) ∧
    (∀ c ∈ parameters, isParameter c = true) ∧ letter.isAlpha = true

/-- Whether a sequence stands in a text. -/
def HoldsSequence (s : String) : Prop :=
  ∃ cs, IsSequence cs ∧ cs <:+: s.toList

/-- Characters that cannot follow in a sequence that has begun. -/
def cutsSequence (c : Char) : Bool :=
  c != '[' && !isParameter c && !c.isAlpha

section Lengths

theorem sequenceLength_of_ne {c : Char} (h : c ≠ '\x1b') (rest : List Char) :
    sequenceLength (c :: rest) = 0 := by
  cases rest with
  | nil => rfl
  | cons d rest => simp [sequenceLength, h]

theorem isDigit_of_isAlpha {c : Char} (h : c.isAlpha = true) : c.isDigit = false := by
  have hbehind : '9'.toNat < c.toNat := by
    rcases (Bool.or_eq_true _ _).mp h with hupper | hlower
    · have hbounds : 'A'.val ≤ c.val ∧ c.val ≤ 'Z'.val := of_decide_eq_true hupper
      exact Nat.lt_of_lt_of_le (by decide) (UInt32.le_iff_toNat_le.mp hbounds.1)
    · have hbounds := (Bool.and_eq_true _ _).mp hlower
      exact Nat.lt_of_lt_of_le (by decide)
        (UInt32.le_iff_toNat_le.mp (of_decide_eq_true hbounds.1) : 'a'.toNat ≤ c.toNat)
  have hnot : ¬ c.val ≤ '9'.val := fun hle =>
    Nat.not_lt.mpr (UInt32.le_iff_toNat_le.mp hle) hbehind
  exact Bool.and_eq_false_iff.mpr (.inr (decide_eq_false hnot))

/-- A letter is no parameter, so the parameters of a sequence end where its letter stands. -/
theorem isParameter_of_isAlpha {c : Char} (h : c.isAlpha = true) : isParameter c = false := by
  rw [isParameter, isDigit_of_isAlpha h, Bool.false_or, Bool.or_eq_false_iff,
    beq_eq_false_iff_ne, beq_eq_false_iff_ne]
  constructor <;> rintro rfl <;> exact absurd h (by decide)

theorem sequenceLength_append {sequence : List Char} (h : IsSequence sequence)
    (rest : List Char) : sequenceLength (sequence ++ rest) = sequence.length := by
  obtain ⟨parameters, letter, rfl, hparameters, hletter⟩ := h
  have hend : isParameter letter ≠ true := by
    rw [isParameter_of_isAlpha hletter]
    exact Bool.false_ne_true
  have hrest : (parameters ++ [letter] ++ rest) = parameters ++ letter :: rest := by simp
  rw [List.cons_append, List.cons_append, hrest, sequenceLength,
    List.takeWhile_append_of_pos hparameters, List.takeWhile_cons_of_neg hend,
    List.dropWhile_append_of_pos hparameters, List.dropWhile_cons_of_neg hend]
  simp [hletter]

theorem exists_sequence {cs : List Char} (h : sequenceLength cs ≠ 0) :
    ∃ sequence rest, IsSequence sequence ∧ cs = sequence ++ rest := by
  match cs, h with
  | [], h => exact absurd rfl h
  | [_], h => exact absurd rfl h
  | c :: d :: rest, h =>
    rw [sequenceLength] at h
    have hbegins := Classical.not_not.mp (mt (if_neg ·) h)
    simp only [Bool.and_eq_true, beq_iff_eq] at hbegins
    obtain ⟨⟨rfl, rfl⟩, hletter⟩ := hbegins
    cases hrest : rest.dropWhile isParameter with
    | nil => simp [hrest] at hletter
    | cons letter rest' =>
      rw [hrest] at hletter
      refine ⟨'\x1b' :: '[' :: (rest.takeWhile isParameter ++ [letter]), rest',
        ⟨_, letter, rfl, List.all_eq_true.mp List.all_takeWhile, hletter⟩, ?_⟩
      have hall := List.takeWhile_append_dropWhile (p := isParameter) (l := rest)
      rw [hrest] at hall
      rw [List.cons_append, List.cons_append, List.append_assoc, List.singleton_append, hall]

theorem sequenceLength_le (cs : List Char) : sequenceLength cs ≤ cs.length := by
  by_cases h : sequenceLength cs = 0
  · rw [h]
    exact Nat.zero_le _
  · obtain ⟨sequence, rest, hsequence, rfl⟩ := exists_sequence h
    rw [sequenceLength_append hsequence, List.length_append]
    exact Nat.le_add_right _ _

theorem IsSequence.cutsSequence_tail {sequence : List Char} (h : IsSequence sequence) :
    ∀ c ∈ sequence.tail, cutsSequence c = false := by
  obtain ⟨parameters, letter, rfl, hparameters, hletter⟩ := h
  rw [List.tail_cons, List.forall_mem_cons, List.forall_mem_append, List.forall_mem_singleton]
  refine ⟨rfl, fun c hc => ?_, ?_⟩
  · rw [cutsSequence, hparameters c hc, Bool.not_true, Bool.and_false, Bool.false_and]
  · rw [cutsSequence, hletter, Bool.not_true, Bool.and_false]

/-- What a text begins with does not depend on a character that cuts sequences off, nor on what
follows it. -/
theorem sequenceLength_append_cut {cs : List Char} (hcs : cs ≠ []) {c : Char}
    (hc : cutsSequence c = true) (rest : List Char) :
    sequenceLength (cs ++ c :: rest) = sequenceLength cs := by
  by_cases hnone : sequenceLength (cs ++ c :: rest) = 0
  · refine Classical.byContradiction fun hsome => ?_
    rw [hnone] at hsome
    obtain ⟨sequence, inner, hsequence, rfl⟩ := exists_sequence (Ne.symm hsome)
    rw [sequenceLength_append hsequence] at hsome
    rw [List.append_assoc, sequenceLength_append hsequence] at hnone
    exact hsome hnone.symm
  · obtain ⟨sequence, after, hsequence, heq⟩ := exists_sequence hnone
    rw [heq, sequenceLength_append hsequence]
    rcases List.append_eq_append_iff.mp heq with ⟨inner, rfl, hinner⟩ | ⟨inner, rfl, _⟩
    · cases inner with
      | nil =>
        have halone := sequenceLength_append hsequence []
        rw [List.append_nil, List.append_nil] at halone
        rw [List.append_nil, halone]
      | cons d inner =>
        have hd : d = c := (List.cons.inj hinner).1.symm
        have htail : d ∈ (cs ++ d :: inner).tail := by
          rw [List.tail_append_of_ne_nil hcs]
          exact List.mem_append_right _ List.mem_cons_self
        exact absurd hc (hd ▸ hsequence.cutsSequence_tail d htail ▸ Bool.false_ne_true)
    · exact (sequenceLength_append hsequence inner).symm

end Lengths

section Parts

theorem length_unstyledFrom_le (skipped : Nat) (cs : List Char) :
    (unstyledFrom skipped cs).length ≤ cs.length := by
  induction cs generalizing skipped with
  | nil => cases skipped <;> exact Nat.le_refl _
  | cons c rest ih =>
    cases skipped with
    | succ skipped => exact Nat.le_succ_of_le (ih skipped)
    | zero =>
      rw [unstyledFrom]
      split
      · exact Nat.succ_le_succ (ih 0)
      · exact Nat.le_succ_of_le (ih _)

/-- Before a character that cuts sequences off a text ends like one that stands alone. -/
theorem unstyledFrom_append_cut {c : Char} (hc : cutsSequence c = true) (rest : List Char)
    {skipped : Nat} {cs : List Char} (h : skipped ≤ cs.length) :
    unstyledFrom skipped (cs ++ c :: rest) =
      unstyledFrom skipped cs ++ unstyledFrom 0 (c :: rest) := by
  induction cs generalizing skipped with
  | nil =>
    obtain rfl := Nat.le_zero.mp h
    rfl
  | cons d cs ih =>
    cases skipped with
    | succ skipped => exact ih (Nat.le_of_succ_le_succ h)
    | zero =>
      have hlength := sequenceLength_append_cut (List.cons_ne_nil d cs) hc rest
      have hle := sequenceLength_le (d :: cs)
      rw [List.cons_append] at hlength
      rw [List.cons_append, unstyledFrom, hlength]
      rw [unstyledFrom.eq_def 0 (d :: cs)]
      dsimp only
      cases hd : sequenceLength (d :: cs) with
      | zero => exact congrArg (d :: ·) (ih (Nat.zero_le _))
      | succ skipped =>
        rw [hd] at hle
        exact ih (Nat.le_of_succ_le_succ hle)

/-- Characters other than the escape character stay. -/
theorem unstyledFrom_append_of_notMem {cs : List Char} (h : '\x1b' ∉ cs) (rest : List Char) :
    unstyledFrom 0 (cs ++ rest) = cs ++ unstyledFrom 0 rest := by
  induction cs with
  | nil => rfl
  | cons c cs ih =>
    rw [List.mem_cons, not_or] at h
    rw [List.cons_append, unstyledFrom, sequenceLength_of_ne (Ne.symm h.1), ih h.2]
    rfl

variable {s t : String}

theorem unstyled_append_of_notMem (h : '\x1b' ∉ s.toList) (t : String) :
    unstyled (s ++ t) = s ++ unstyled t := by
  rw [unstyled, String.toList_append, unstyledFrom_append_of_notMem h, String.ofList_append,
    String.ofList_toList]
  rfl

/-- A text without an escape character holds no sequence. -/
theorem unstyled_of_notMem (h : '\x1b' ∉ s.toList) : unstyled s = s := by
  have happend := unstyled_append_of_notMem h ""
  have hempty : unstyled "" = "" := rfl
  rwa [hempty, String.append_empty] at happend

theorem unstyled_append_cut (s : String) {c : Char} {rest : List Char} (ht : t.toList = c :: rest)
    (hc : cutsSequence c = true) : unstyled (s ++ t) = unstyled s ++ unstyled t := by
  rw [unstyled, String.toList_append, ht, unstyledFrom_append_cut hc rest (Nat.zero_le _),
    String.ofList_append, ← ht]
  rfl

theorem length_unstyled_le (s : String) : (unstyled s).toList.length ≤ s.toList.length := by
  rw [unstyled, String.toList_ofList]
  exact length_unstyledFrom_le 0 _

end Parts

/-- Nothing is left out of a text exactly when it holds no sequence. -/
theorem unstyledFrom_eq_self_iff {cs : List Char} :
    unstyledFrom 0 cs = cs ↔ ∀ sequence, IsSequence sequence → ¬ sequence <:+: cs := by
  induction cs with
  | nil =>
    refine iff_of_true rfl ?_
    rintro _ ⟨parameters, letter, rfl, _⟩ hinfix
    exact absurd (List.eq_nil_of_infix_nil hinfix) (List.cons_ne_nil _ _)
  | cons c rest ih =>
    rw [unstyledFrom]
    cases hlength : sequenceLength (c :: rest) with
    | zero =>
      dsimp only
      rw [List.cons_inj_right, ih]
      refine forall₂_congr fun sequence hsequence => not_congr ?_
      rw [List.infix_cons_iff, or_iff_right]
      rintro ⟨after, heq⟩
      rw [← heq, sequenceLength_append hsequence] at hlength
      obtain ⟨parameters, letter, rfl, _⟩ := hsequence
      exact absurd hlength (Nat.succ_ne_zero _)
    | succ skipped =>
      refine iff_of_false (fun heq => ?_) fun hnone => ?_
      · have hle := length_unstyledFrom_le skipped rest
        change unstyledFrom skipped rest = c :: rest at heq
        rw [heq, List.length_cons] at hle
        exact absurd hle (Nat.not_succ_le_self _)
      · have hbegins : sequenceLength (c :: rest) ≠ 0 := by
          rw [hlength]
          exact Nat.succ_ne_zero skipped
        obtain ⟨sequence, after, hsequence, heq⟩ := exists_sequence hbegins
        exact hnone sequence hsequence ⟨[], after, heq.symm⟩

theorem unstyled_eq_self_iff {s : String} : unstyled s = s ↔ ¬ HoldsSequence s := by
  rw [unstyled, ← String.toList_inj, String.toList_ofList, unstyledFrom_eq_self_iff]
  simp only [HoldsSequence, not_exists, not_and]

section Joining

variable {s t sep : String}

theorem Plain.notMem_escape (h : Plain s) : '\x1b' ∉ s.toList :=
  fun hmem => absurd (h _ hmem) (by decide)

theorem Plain.unstyled_eq (h : Plain s) : unstyled s = s :=
  unstyled_of_notMem h.notMem_escape

/-- A text that does not end within a sequence, whatever follows. -/
def IsClosed (s : String) : Prop :=
  ∀ t, unstyled (s ++ t) = unstyled s ++ unstyled t

/-- A text whose first character cuts sequences off. -/
def BeginsApart (s : String) : Prop :=
  s.toList.head?.any cutsSequence = true

theorem BeginsApart.ofList {cs : List Char} (h : cs.head?.any cutsSequence = true) :
    BeginsApart (String.ofList cs) := by
  rwa [BeginsApart, String.toList_ofList]

theorem BeginsApart.unstyled_append (h : BeginsApart t) (s : String) :
    unstyled (s ++ t) = unstyled s ++ unstyled t := by
  rw [BeginsApart] at h
  cases ht : t.toList with
  | nil => simp [ht] at h
  | cons c rest => exact unstyled_append_cut s ht (by simpa [ht] using h)

theorem BeginsApart.append (h : BeginsApart s) (t : String) : BeginsApart (s ++ t) := by
  rw [BeginsApart] at h ⊢
  rw [String.toList_append]
  cases hs : s.toList with
  | nil => simp [hs] at h
  | cons c rest => simpa [hs] using h

theorem Plain.isClosed (h : Plain s) : IsClosed s := by
  intro t
  rw [unstyled_append_of_notMem h.notMem_escape, h.unstyled_eq]

theorem IsClosed.append (hs : IsClosed s) (ht : IsClosed t) : IsClosed (s ++ t) := by
  intro u
  rw [String.append_assoc, hs, ht, hs, String.append_assoc]

theorem Plain.isClosed_append (h : Plain t) (hapart : BeginsApart t) (s : String) :
    IsClosed (s ++ t) := by
  intro u
  rw [String.append_assoc, (hapart.append u).unstyled_append, hapart.unstyled_append, h.isClosed,
    String.append_assoc]

theorem unstyled_intercalate (hplain : Plain sep) (hapart : BeginsApart sep)
    (parts : List String) :
    unstyled (sep.intercalate parts) = sep.intercalate (parts.map unstyled) := by
  induction parts with
  | nil => rfl
  | cons part rest ih =>
    cases rest with
    | nil => rw [List.map_singleton, String.intercalate_singleton, String.intercalate_singleton]
    | cons next rest =>
      rw [String.intercalate_cons_cons, hplain.isClosed_append hapart, hapart.unstyled_append,
        hplain.unstyled_eq, ih]
      exact String.intercalate_cons_cons.symm

/-- Nothing is left out of two parts exactly when nothing is left out of either. -/
theorem unstyled_append_eq_iff :
    unstyled s ++ unstyled t = s ++ t ↔ unstyled s = s ∧ unstyled t = t := by
  constructor
  · intro h
    have hlist := congrArg String.toList h
    rw [String.toList_append, String.toList_append] at hlist
    have hlength := congrArg List.length hlist
    rw [List.length_append, List.length_append] at hlength
    have hs := length_unstyled_le s
    have ht := length_unstyled_le t
    have hparts := List.append_inj hlist (by omega)
    exact ⟨String.toList_injective hparts.1, String.toList_injective hparts.2⟩
  · rintro ⟨hs, ht⟩
    rw [hs, ht]

theorem unstyled_intercalate_eq_iff (hplain : Plain sep) (hapart : BeginsApart sep)
    (parts : List String) :
    unstyled (sep.intercalate parts) = sep.intercalate parts ↔
      ∀ part ∈ parts, unstyled part = part := by
  induction parts with
  | nil => exact iff_of_true rfl (List.forall_mem_nil _)
  | cons part rest ih =>
    cases rest with
    | nil => rw [String.intercalate_singleton, List.forall_mem_singleton]
    | cons next rest =>
      rw [String.intercalate_cons_cons, hplain.isClosed_append hapart, unstyled_append_eq_iff,
        hapart.unstyled_append, unstyled_append_eq_iff, ih, and_iff_left hplain.unstyled_eq]
      exact (List.forall_mem_cons (p := fun t => unstyled t = t)).symm

end Joining

section Lines

variable {ends : Char → Bool} {s : String}

/-- Whether a text is shown as it stands, on one line. -/
structure StandsOnLine (ends : Char → Bool) (s : String) : Prop where
  unbroken : Unbroken ends s
  bare : ¬ HoldsSequence s

theorem standsOnLine_iff :
    StandsOnLine ends s ↔ Unbroken ends (unstyled s) ∧ unstyled s = s := by
  constructor
  · rintro ⟨hunbroken, hbare⟩
    have hself := unstyled_eq_self_iff.mpr hbare
    exact ⟨hself.symm ▸ hunbroken, hself⟩
  · rintro ⟨hunbroken, hself⟩
    exact ⟨hself ▸ hunbroken, unstyled_eq_self_iff.mp hself⟩

theorem Plain.standsOnLine (hends : EndsLines ends) (h : Plain s) : StandsOnLine ends s :=
  ⟨h.unbroken hends, unstyled_eq_self_iff.mp h.unstyled_eq⟩

end Lines

end GraphImport.Text
