import GraphImport.Proofs.Text.Spans
import GraphImport.Yaml.Place

/-!
# Moving through a YAML text

Where a place lies after some characters were passed. As long as none of them is a line break, the
line stays the same.
-/

namespace GraphImport.Yaml

open Text (takeWhile_taken)

/-- Characters that pass a test no line break passes are none. -/
theorem not_break_of (test : Char → Bool) {c : Char}
    (hbreaks : ∀ b ∈ ['\r', '\n', '\u0085', '\u2028', '\u2029'], test b = false)
    (h : test c = true) : isBreak c = false := by
  rw [Bool.eq_false_iff]
  intro hbreak
  have hmem : c ∈ ['\r', '\n', '\u0085', '\u2028', '\u2029'] := by
    simpa [isBreak, or_assoc] using hbreak
  rw [hbreaks c hmem] at h
  exact Bool.false_ne_true h

/-- Whether a place lies some characters after another one, on the same line. -/
structure Along (p : Place) (taken : List Char) (q : Place) : Prop where
  rest : p.rest = taken ++ q.rest
  index : q.index = p.index + taken.length
  line : q.line = p.line

namespace Along

variable {p q r : Place} {a b : List Char}

theorem refl (p : Place) : Along p [] p :=
  ⟨rfl, rfl, rfl⟩

theorem trans (h : Along p a q) (h' : Along q b r) : Along p (a ++ b) r where
  rest := by rw [h.rest, h'.rest, List.append_assoc]
  index := by rw [h'.index, h.index, List.length_append, Nat.add_assoc]
  line := h'.line.trans h.line

/-- What comes after some characters is known from what came before them. -/
theorem rest_eq {rest : List Char} (h : Along p a q) (hrest : p.rest = a ++ rest) :
    q.rest = rest := by
  have hsame := h.rest
  rw [hrest] at hsame
  exact (List.append_cancel_left hsame).symm

end Along

namespace Place

variable {p : Place} {c : Char} {taken rest : List Char}

theorem step_rest (h : p.rest = c :: rest) : p.step.rest = rest := by
  rw [step, h]
  dsimp only
  split
  · rfl
  · split
    · rfl
    · split <;> rfl

theorem along_step (h : p.rest = c :: rest) (hbreak : isBreak c = false) :
    Along p [c] p.step := by
  have hreturn : c ≠ '\r' := by
    rintro rfl
    exact absurd hbreak (by decide)
  refine ⟨by rw [step_rest h, h]; rfl, ?_, ?_⟩ <;>
  · rw [step, h]
    simp only [hbreak, beq_eq_false_iff_ne.mpr hreturn, Bool.false_and, Bool.false_eq_true,
      if_false]
    split <;> rfl

theorem advance_rest (h : p.rest = taken ++ rest) : (p.advance taken.length).rest = rest := by
  induction taken generalizing p with
  | nil => exact h
  | cons c taken ih => exact ih (step_rest h)

theorem along_advance (h : p.rest = taken ++ rest) (hbreak : ∀ c ∈ taken, isBreak c = false) :
    Along p taken (p.advance taken.length) := by
  induction taken generalizing p with
  | nil => exact .refl p
  | cons c taken ih =>
    rw [List.forall_mem_cons] at hbreak
    exact (along_step h hbreak.1).trans (ih (step_rest h) hbreak.2)

section Spans

variable {test : Char → Bool} (h : p.rest = taken ++ rest) (htaken : ∀ c ∈ taken, test c = true)
  (hrest : ∀ c ∈ rest.head?, test c = false)

include h htaken hrest

theorem span_eq : p.span test = (taken, p.advance taken.length) := by
  rw [span, h, takeWhile_taken htaken hrest]

theorem skipWhile_rest : (p.skipWhile test).rest = rest := by
  rw [skipWhile, span_eq h htaken hrest]
  exact advance_rest h

theorem along_skipWhile (hbreak : ∀ c ∈ taken, isBreak c = false) :
    Along p taken (p.skipWhile test) := by
  rw [skipWhile, span_eq h htaken hrest]
  exact along_advance h hbreak

end Spans

theorem head_of_cons (h : p.rest = c :: rest) : p.head = c := by
  rw [head, h]
  rfl

theorem head_of_nil (h : p.rest = []) : p.head = endMark := by
  rw [head, h]
  rfl

theorem lineBreak?_eq_none (h : isBreak p.head = false) : p.lineBreak? = none := by
  have hreturn : p.head ≠ '\r' := by
    intro heq
    rw [heq] at h
    exact absurd h (by decide)
  have hline : p.head ≠ '\u2028' := by
    intro heq
    rw [heq] at h
    exact absurd h (by decide)
  have hparagraph : p.head ≠ '\u2029' := by
    intro heq
    rw [heq] at h
    exact absurd h (by decide)
  simp [lineBreak?, h, hreturn, hline, hparagraph]

end Place

/-- Blanks and line breaks, without tabs. -/
def Blanks (cs : List Char) : Prop :=
  ∀ c ∈ cs, c = ' ' ∨ c = '\n' ∨ c = '\r'

theorem blanks_nil : Blanks [] :=
  List.forall_mem_nil _

/-- Whether a text ends, or goes on with what is passed neither as a blank nor as a comment. -/
def Solid (rest : List Char) : Prop :=
  ∀ c ∈ rest.head?, isGap c = false ∧ c ≠ '#' ∧ c ≠ '\uFEFF'

section Blanks

variable {c : Char} {blanks rest : List Char}

theorem Blanks.tail (h : Blanks (c :: blanks)) : Blanks blanks :=
  fun d hd => h d (List.mem_cons_of_mem c hd)

theorem Solid.not_space (h : Solid rest) : ∀ c ∈ rest.head?, (c == ' ') = false := by
  intro c hc
  obtain ⟨hgap, -, -⟩ := h c hc
  rw [isGap, Bool.or_eq_false_iff] at hgap
  exact hgap.2

theorem Solid.not_break (h : Solid rest) : ∀ c ∈ rest.head?, isBreak c = false := by
  intro c hc
  obtain ⟨hgap, -, -⟩ := h c hc
  rw [isGap, isBreakOrEnd, Bool.or_eq_false_iff, Bool.or_eq_false_iff] at hgap
  exact hgap.1.1

theorem head_of_headD {p : Place} {q : Char → Prop} (hend : q endMark)
    (h : ∀ c ∈ p.rest.head?, q c) : q p.head := by
  rw [Place.head]
  cases hrest : p.rest with
  | nil => exact hend
  | cons c rest => exact h c (by rw [hrest]; rfl)

theorem Solid.head {p : Place} (h : Solid p.rest) :
    isBreak p.head = false ∧ p.head ≠ ' ' ∧ p.head ≠ '#' ∧ p.head ≠ '\uFEFF' := by
  apply head_of_headD
    (q := fun c => isBreak c = false ∧ c ≠ ' ' ∧ c ≠ '#' ∧ c ≠ '\uFEFF') (by decide)
  intro c hc
  exact ⟨h.not_break c hc, beq_eq_false_iff_ne.mp (h.not_space c hc), (h c hc).2⟩

/-- A text of blanks starts with spaces, and then goes on with a line break or with what follows
the blanks. -/
theorem Blanks.split (h : Blanks blanks) : ∃ spaces more, blanks = spaces ++ more ∧
    (∀ c ∈ spaces, (c == ' ') = true) ∧
    (more = [] ∨ ∃ c lines, more = c :: lines ∧ (c = '\n' ∨ c = '\r') ∧ Blanks lines) := by
  induction blanks with
  | nil => exact ⟨[], [], rfl, by simp, .inl rfl⟩
  | cons c blanks ih =>
    rcases h c List.mem_cons_self with rfl | hbreak
    · obtain ⟨spaces, more, rfl, hspaces, hmore⟩ := ih h.tail
      exact ⟨' ' :: spaces, more, rfl, by simpa using hspaces, hmore⟩
    · exact ⟨[], c :: blanks, rfl, by simp, .inr ⟨c, blanks, rfl, hbreak, h.tail⟩⟩

/-- A line break is passed, perhaps one of two characters. -/
theorem lineBreak?_eq_some {p : Place} (h : p.rest = c :: (blanks ++ rest))
    (hbreak : c = '\n' ∨ c = '\r') (hblanks : Blanks blanks) (hsolid : Solid rest) :
    ∃ next more, p.lineBreak? = some ('\n', next) ∧ next.rest = more ++ rest ∧ Blanks more ∧
      more.length ≤ blanks.length := by
  have hhead := Place.head_of_cons h
  have hstep := Place.step_rest h
  rcases hbreak with rfl | rfl
  · exact ⟨p.step, blanks, by simp [Place.lineBreak?, hhead, isBreak], hstep, hblanks,
      Nat.le_refl _⟩
  · by_cases hpair : ∃ more, blanks = '\n' :: more
    · obtain ⟨more, rfl⟩ := hpair
      refine ⟨p.advance 2, more, ?_, Place.step_rest hstep, hblanks.tail,
        by simp⟩
      simp [Place.lineBreak?, hhead, Place.peek, h]
    · have hnext : (blanks ++ rest)[0]?.getD endMark ≠ '\n' := by
        cases blanks with
        | nil =>
          cases rest with
          | nil => simp [endMark]
          | cons d rest =>
            intro heq
            have hbreak := hsolid.not_break d rfl
            rw [show d = '\n' from heq] at hbreak
            exact absurd hbreak (by decide)
        | cons d blanks =>
          rintro heq
          exact hpair ⟨blanks, by rw [show d = '\n' from heq]⟩
      refine ⟨p.step, blanks, ?_, hstep, hblanks, Nat.le_refl _⟩
      simp [Place.lineBreak?, hhead, Place.peek, h, hnext, isBreak]

end Blanks

end GraphImport.Yaml
