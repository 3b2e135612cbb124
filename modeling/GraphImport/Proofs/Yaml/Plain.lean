import GraphImport.Proofs.Yaml.Places
import GraphImport.Yaml.Scalar

/-!
# Plain text on its own

A word without blanks and indicators is read as plain text up to its end. The blanks and line
breaks after it are passed too, so that what follows the value comes next.
-/

namespace GraphImport.Yaml

/-- Whether what follows a value ends the text, or within brackets ends the item. -/
def Closes (inFlow : Bool) (rest : List Char) : Prop :=
  if inFlow then ∃ c more, rest = c :: more ∧ c ∈ [',', ']', '\x7d'] else rest = []

section Follow

variable {inFlow : Bool} {rest blanks : List Char} {p : Place}

theorem Closes.head_mem (h : Closes inFlow rest) : ∀ c ∈ rest.head?, c ∈ [',', ']', '\x7d'] := by
  cases inFlow with
  | false =>
    obtain rfl : rest = [] := h
    simp
  | true =>
    obtain ⟨c, more, rfl, hc⟩ := h
    exact fun d hd => Option.some.inj hd ▸ hc

theorem Closes.solid (h : Closes inFlow rest) : Solid rest := by
  have hclosing : ∀ c ∈ [',', ']', '\x7d'], isGap c = false ∧ c ≠ '#' ∧ c ≠ '\uFEFF' :=
    Text.forall_mem_of_all (by decide)
  exact fun c hc => hclosing c (h.head_mem c hc)

/-- What can come next after a value. -/
theorem Closes.head (h : Closes inFlow rest) (hblanks : Blanks blanks)
    (hrest : p.rest = blanks ++ rest) :
    p.head ∈ [' ', '\n', '\r', ',', ']', '\x7d', endMark] := by
  have hclosing : ∀ c ∈ [',', ']', '\x7d'],
      c ∈ [' ', '\n', '\r', ',', ']', '\x7d', endMark] := Text.forall_mem_of_all (by decide)
  apply head_of_headD (q := (· ∈ [' ', '\n', '\r', ',', ']', '\x7d', endMark])) (by decide)
  rw [hrest]
  intro c hc
  cases blanks with
  | nil => exact hclosing c (h.head_mem c hc)
  | cons d blanks =>
    obtain rfl : d = c := Option.some.inj hc
    rcases hblanks d List.mem_cons_self with rfl | rfl | rfl <;> decide

theorem Closes.not_atSeparator (h : Closes inFlow rest) (hblanks : Blanks blanks)
    (hrest : p.rest = blanks ++ rest) : p.atSeparator = false := by
  have hmarks : ∀ c ∈ [' ', '\n', '\r', ',', ']', '\x7d', endMark],
      (c == '-') = false ∧ (c == '.') = false := Text.forall_mem_of_all (by decide)
  obtain ⟨hdash, hdot⟩ := hmarks _ (h.head hblanks hrest)
  simp [Place.atSeparator, Place.marks, hdash, hdot]

/-- All blanks after a line break are passed. -/
theorem plainBreaks_blanks (h : Closes inFlow rest) (fuel : Nat) (known : List Char)
    (hblanks : Blanks blanks) (hrest : p.rest = blanks ++ rest) (hfuel : blanks.length < fuel) :
    ∃ more next, plainBreaks fuel known p = (some more, next) ∧ next.rest = rest := by
  induction fuel generalizing known p blanks with
  | zero => exact absurd hfuel (Nat.not_lt_zero _)
  | succ fuel ih =>
    cases blanks with
    | nil =>
      have hrest' : p.rest = rest := hrest
      obtain ⟨hbreak, hspace, -⟩ := Solid.head (hrest' ▸ h.solid)
      refine ⟨known.reverse, p, ?_, hrest⟩
      rw [plainBreaks, if_neg (by simpa using hspace), Place.lineBreak?_eq_none hbreak]
    | cons c blanks =>
      rw [List.length_cons] at hfuel
      rcases hblanks c List.mem_cons_self with rfl | hbreak
      · obtain ⟨more, next, hread, hnext⟩ :=
          ih known hblanks.tail (Place.step_rest hrest) (by omega)
        refine ⟨more, next, ?_, hnext⟩
        rw [plainBreaks, if_pos (by simp [Place.head_of_cons hrest]), hread]
      · obtain ⟨place, others, hline, hplace, hothers, hlength⟩ :=
          lineBreak?_eq_some hrest hbreak hblanks.tail h.solid
        obtain ⟨more, next, hread, hnext⟩ := ih ('\n' :: known) hothers hplace (by omega)
        have hspace : p.head ≠ ' ' := by
          rw [Place.head_of_cons hrest]
          rcases hbreak with rfl | rfl <;> decide
        refine ⟨more, next, ?_, hnext⟩
        rw [plainBreaks, if_neg (by simpa using hspace), hline]
        simp only [h.not_atSeparator hothers hplace, Bool.false_eq_true, if_false, hread]

theorem plainGap_blanks (h : Closes inFlow rest) (hblanks : Blanks blanks)
    (hrest : p.rest = blanks ++ rest) : (plainGap p).place.rest = rest := by
  obtain ⟨spaces, more, rfl, hspaces, hmore⟩ := hblanks.split
  rw [List.append_assoc] at hrest
  have hnext : (p.advance spaces.length).rest = more ++ rest := Place.advance_rest hrest
  rcases hmore with rfl | ⟨c, lines, rfl, hbreak, hlines⟩
  · have hspan := Place.span_eq hrest hspaces h.solid.not_space
    obtain ⟨hbreak, -⟩ := Solid.head (p := p.advance spaces.length) (hnext ▸ h.solid)
    rw [plainGap, hspan]
    simp only [Place.lineBreak?_eq_none hbreak]
    exact hnext
  · have hspan := Place.span_eq hrest hspaces fun d hd => by
      rw [← Option.some.inj hd]
      rcases hbreak with rfl | rfl <;> decide
    obtain ⟨place, others, hline, hplace, hothers, -⟩ :=
      lineBreak?_eq_some hnext hbreak hlines h.solid
    obtain ⟨_, next, hread, hend⟩ := plainBreaks_blanks h (place.rest.length + 1) [] hothers hplace
      (by rw [hplace, List.length_append]; omega)
    rw [plainGap, hspan]
    simp only [hline, h.not_atSeparator hothers hplace, hread, Bool.false_eq_true, if_false]
    exact hend

end Follow

/-- Whether a character belongs to a word wherever it stands. -/
def isWordChar (c : Char) : Bool :=
  !isWideGap c && c != ':' && !",?[]\x7b\x7d".toList.contains c

section Words

variable {inFlow : Bool} {word rest blanks : List Char} {p : Place}

/-- What follows a value ends a run of plain text. -/
theorem Closes.plainRun (h : Closes inFlow rest) (hblanks : Blanks blanks) :
    plainRun inFlow (blanks ++ rest) = [] := by
  cases blanks with
  | nil =>
    cases inFlow with
    | false =>
      obtain rfl : rest = [] := h
      rfl
    | true =>
      obtain ⟨c, more, rfl, hc⟩ := h
      have hcontains : ",?[]\x7b\x7d".toList.contains c = true := by
        have hclosing : ∀ c ∈ [',', ']', '\x7d'], ",?[]\x7b\x7d".toList.contains c = true :=
          Text.forall_mem_of_all (by decide)
        exact hclosing c hc
      rw [List.nil_append, Yaml.plainRun, if_pos]
      rw [hcontains, Bool.and_self, Bool.or_true]
  | cons c blanks =>
    have hgap : isWideGap c = true := by
      rcases hblanks c List.mem_cons_self with rfl | rfl | rfl <;> decide
    simp [Yaml.plainRun, hgap]

theorem plainRun_word (hword : ∀ c ∈ word, isWordChar c = true) (h : Closes inFlow rest)
    (hblanks : Blanks blanks) : plainRun inFlow (word ++ (blanks ++ rest)) = word := by
  induction word with
  | nil => exact h.plainRun hblanks
  | cons c word ih =>
    rw [List.forall_mem_cons] at hword
    have hc := hword.1
    simp only [isWordChar, Bool.and_eq_true, Bool.not_eq_true', bne_iff_ne] at hc
    obtain ⟨⟨hgap, hcolon⟩, hflow⟩ := hc
    rw [List.cons_append, plainRun, if_neg, ih hword.2]
    rw [hgap, beq_eq_false_iff_ne.mpr hcolon, hflow, Bool.and_false]
    exact Bool.false_ne_true

/-- A word is read with the blanks after it. -/
theorem plainText_word (hword : ∀ c ∈ word, isWordChar c = true) (hnonempty : word ≠ [])
    (h : Closes inFlow rest) (hblanks : Blanks blanks) (hrest : p.rest = word ++ (blanks ++ rest))
    (hcomment : p.head ≠ '#') :
    (plainText inFlow 0 p).chars = word ∧ (plainText inFlow 0 p).place.rest = rest := by
  have hrun : plainRun inFlow p.rest = word := by
    rw [hrest, plainRun_word hword h hblanks]
  have hnext := plainGap_blanks h hblanks (Place.advance_rest hrest)
  obtain ⟨fuel, hfuel⟩ : ∃ fuel, p.rest.length = fuel + 1 := by
    have hlength := List.length_pos_iff.mpr hnonempty
    exact ⟨p.rest.length - 1, by rw [hrest, List.length_append]; omega⟩
  have hsome : word.isEmpty = false := by simpa using hnonempty
  have hend : plainRun inFlow (plainGap (p.advance word.length)).place.rest = [] := by
    rw [hnext]
    exact h.plainRun blanks_nil
  have hcolumn : ¬ ((plainGap (p.advance word.length)).place.column : Int) < 0 := by omega
  rw [plainText, hfuel]
  simp only [plainFrom, beq_eq_false_iff_ne.mpr hcomment, Bool.false_eq_true, if_false, hrun, hsome,
    List.nil_append, hend]
  split
  · exact ⟨rfl, hnext⟩
  · split
    · exact ⟨rfl, hnext⟩
    · exact ⟨rfl, hnext⟩

end Words

end GraphImport.Yaml
