import GraphImport.Proofs.Json.Strings
import GraphImport.Proofs.Yaml.Places
import GraphImport.Proofs.Yaml.Shared
import GraphImport.Yaml.Scalar

/-!
# Quoted text that is JSON

A string whose characters are shared is read in double quotes as the text that is meant, and ends
on the line it starts on.
-/

namespace GraphImport.Yaml

open Json (CodeUnit Piece quotedChars)

section Contents

theorem content_append_empty (a : Content) : a ++ ({} : Content) = a := by
  cases a with
  | mk chars broken =>
    change Content.mk (chars ++ []) (broken || false) = _
    rw [List.append_nil, Bool.or_false]

theorem content_append_assoc (a b c : Content) : a ++ b ++ c = a ++ (b ++ c) := by
  change Content.mk (a.chars ++ b.chars ++ c.chars) (a.broken || b.broken || c.broken) =
    Content.mk (a.chars ++ (b.chars ++ c.chars)) (a.broken || (b.broken || c.broken))
  rw [List.append_assoc, Bool.or_assoc]

theorem content_append_chars (cs ds : List Char) :
    ({ chars := cs } : Content) ++ { chars := ds } = { chars := cs ++ ds } := rfl

end Contents

section Runs

variable {p : Place} {rest : List Char} {c : Char} (fuel : Nat) (known : Content)

/-- A run ends before its first character if that is a blank or the quote. -/
theorem quotedRun_stop (h : p.rest = c :: rest) (hstop : c = '\x22' ∨ c = ' ') :
    quotedRun true (fuel + 1) known p = .ok (known, p) := by
  have hends : endsRun c = true := by
    rcases hstop with rfl | rfl <;> decide
  have hspan : p.span (fun c => !endsRun c) = ([], p) := by
    simp [Place.span, h, hends, Place.advance]
  have hquote : c ≠ '\x27' ∧ c ≠ '\\' := by
    rcases hstop with rfl | rfl <;> decide
  rw [quotedRun, hspan]
  simp [Place.head_of_cons h, hquote, content_append_empty]

theorem quotedRun_char (h : p.rest = c :: rest) (hc : endsRun c = false) :
    quotedRun true (fuel + 1) known p =
      quotedRun true (fuel + 1) (known ++ { chars := [c] }) p.step := by
  have hspan : p.span (fun c => !endsRun c) =
      (c :: (p.step.span fun c => !endsRun c).1, (p.step.span fun c => !endsRun c).2) := by
    simp [Place.span, h, hc, Place.step_rest h, Place.advance]
  rw [quotedRun, quotedRun, hspan]
  simp only [content_append_assoc, content_append_chars, List.singleton_append]

theorem quotedRun_apostrophe (h : p.rest = '\x27' :: rest) :
    quotedRun true (fuel + 1) known p =
      quotedRun true fuel (known ++ { chars := ['\x27'] }) p.step := by
  have hends : endsRun '\x27' = true := by decide
  have hspan : p.span (fun c => !endsRun c) = ([], p) := by
    simp [Place.span, h, hends, Place.advance]
  rw [quotedRun, hspan]
  simp [Place.head_of_cons h, content_append_empty]

theorem quotedRun_escape {content : Content} {q : Place} (h : p.rest = '\\' :: rest)
    (hescape : escaped p.step = .ok (content, q)) :
    quotedRun true (fuel + 1) known p = quotedRun true fuel (known ++ content) q := by
  have hends : endsRun '\\' = true := by decide
  have hspan : p.span (fun c => !endsRun c) = ([], p) := by
    simp [Place.span, h, hends, Place.advance]
  rw [quotedRun, hspan]
  simp [Place.head_of_cons h, content_append_empty, hescape, bind, Except.bind]

end Runs

section Escapes

variable {p : Place} {rest : List Char}

theorem escape?_of_json {e c : Char} (h : Json.escape? e = some c) : escape? e = some c := by
  unfold Json.escape? at h
  split at h <;> cases h <;> rfl

theorem escaped_letter {e c : Char} (h : p.rest = e :: rest) (he : Json.escape? e = some c) :
    escaped p = .ok ({ chars := [c] }, p.step) := by
  rw [escaped, Place.head_of_cons h, escape?_of_json he]

theorem digitValue_lt (c : Char) : Number.digitValue c < 16 := by
  unfold Number.digitValue
  extract_lets n
  split
  · rename_i h
    simp only [Bool.and_eq_true, decide_eq_true_eq] at h
    omega
  · split
    · rename_i h
      simp only [Bool.and_eq_true, decide_eq_true_eq] at h
      omega
    · split
      · rename_i h
        simp only [Bool.and_eq_true, decide_eq_true_eq] at h
        omega
      · decide

/-- A code unit has four hexadecimal digits. -/
theorem CodeUnit.value_lt (u : CodeUnit) : u.value < 0x10000 := by
  obtain ⟨digits, hlength, hhex⟩ := u
  match digits, hlength with
  | [a, b, c, d], _ =>
    have ha := digitValue_lt a
    have hb := digitValue_lt b
    have hc := digitValue_lt c
    have hd := digitValue_lt d
    simp only [CodeUnit.value, Number.natOfDigits, List.foldl_cons, List.foldl_nil]
    omega

theorem peek_digits (u : CodeUnit) (h : p.rest = u.digits ++ rest) :
    (List.range 4).map p.peek = u.digits := by
  obtain ⟨digits, hlength, hhex⟩ := u
  match digits, hlength with
  | [a, b, c, d], _ =>
    simp [Place.peek, h, List.range_succ]

theorem escaped_unit {u : CodeUnit} (h : p.rest = 'u' :: (u.digits ++ rest))
    (hhigh : Json.isHighSurrogate u.value = false) (hlow : Json.isLowSurrogate u.value = false) :
    escaped p = .ok ({ chars := [Char.ofNat u.value] }, p.step.advance u.digits.length) := by
  have hdigits := peek_digits u (Place.step_rest h)
  have hhex : u.digits.find? (fun c => !Number.isHexDigit c) = none := by
    simpa using u.hex
  have hbound := CodeUnit.value_lt u
  have hsurrogate : ¬ (0xD800 ≤ u.value ∧ u.value ≤ 0xDFFF) := by
    simp only [Json.isHighSurrogate, Json.isLowSurrogate, Bool.and_eq_false_iff,
      decide_eq_false_iff_not] at hhigh hlow
    omega
  have hescape : escape? 'u' = none := by decide
  have hwidth : escapeWidth? 'u' = some 4 := by decide
  rw [escaped, Place.head_of_cons h, hescape, hwidth, u.length]
  have hvalue : Number.natOfDigits 16 u.digits = u.value := rfl
  simp only [codePoint, hdigits, hhex, hvalue]
  rw [if_neg (by omega), if_neg (by simpa using hsurrogate)]

end Escapes

section Gaps

variable {p : Place} {spaces rest : List Char} {c : Char}

/-- Spaces between two runs are kept if the line goes on. -/
theorem quotedGap_spaces (h : p.rest = spaces ++ c :: rest) (hspaces : ∀ c ∈ spaces, c = ' ')
    (hc : isWideGap c = false) :
    quotedGap p = .ok ({ chars := spaces }, p.advance spaces.length) := by
  have hnot : c ≠ ' ' ∧ c ≠ '\t' ∧ c ≠ endMark ∧ isBreak c = false := by
    simp only [isWideGap, isGap, isBreakOrEnd, Bool.or_eq_false_iff, beq_eq_false_iff_ne] at hc
    obtain ⟨⟨⟨hbreak, hend⟩, hspace⟩, htab⟩ := hc
    exact ⟨hspace, htab, hend, hbreak⟩
  obtain ⟨hspace, htab, hend, hbreak⟩ := hnot
  have hspan : p.span (fun c => c == ' ' || c == '\t') = (spaces, p.advance spaces.length) :=
    Place.span_eq h (fun d hd => by simp [hspaces d hd])
      (fun d hd => by rw [← Option.some.inj hd]; simp [hspace, htab])
  have hhead : (p.advance spaces.length).head = c := Place.head_of_cons (Place.advance_rest h)
  have hline : (p.advance spaces.length).lineBreak? = none :=
    Place.lineBreak?_eq_none (by rw [hhead]; exact hbreak)
  rw [quotedGap, hspan]
  simp only [hhead, beq_eq_false_iff_ne.mpr hend, hline, Bool.false_eq_true, if_false]

end Gaps

/-- What is done after a run of quoted text. -/
def afterRun (fuel : Nat) : Content × Place → Except Fault (Content × Place)
  | (run, p) => do
    if p.head == '\x22' then return (run, p.step)
    let (gap, p) ← quotedGap p
    quotedFrom true fuel (run ++ gap) p

theorem quotedFrom_succ (fuel : Nat) (known : Content) (p : Place) :
    quotedFrom true (fuel + 1) known p =
      quotedRun true (p.rest.length + 1) known p >>= afterRun fuel := rfl

/-- Whether the rest of a string is read from within a run of quoted text. -/
def ReadsRun (s : List Piece) : Prop :=
  ∀ (fuel steps : Nat) (known : Content) (p : Place) (rest : List Char),
    p.rest = s.flatMap Piece.chars ++ '\x22' :: rest → s.length ≤ fuel → s.length < steps →
      ∃ q, Along p (s.flatMap Piece.chars ++ ['\x22']) q ∧
        quotedRun true steps known p >>= afterRun fuel =
          .ok (known ++ { chars := s.map Piece.value }, q)

/-- Whether the rest of a string is read from spaces between two runs on. -/
def ReadsGap (s : List Piece) : Prop :=
  ∀ (fuel : Nat) (known : Content) (p : Place) (spaces rest : List Char),
    p.rest = spaces ++ (s.flatMap Piece.chars ++ '\x22' :: rest) → (∀ c ∈ spaces, c = ' ') →
      s.length < fuel →
      ∃ q, Along p (spaces ++ (s.flatMap Piece.chars ++ ['\x22'])) q ∧
        (quotedGap p >>= fun (gap, p) => quotedFrom true fuel (known ++ gap) p) =
          .ok (known ++ { chars := spaces ++ s.map Piece.value }, q)

theorem readsRun_nil : ReadsRun [] := by
  intro fuel steps known p rest h _ hsteps
  obtain ⟨steps, rfl⟩ : ∃ less, steps = less + 1 := ⟨steps - 1, by omega⟩
  refine ⟨p.step, Place.along_step h (by decide), ?_⟩
  have hhead : p.head = '\x22' := Place.head_of_cons h
  rw [quotedRun_stop steps known h (.inl rfl), List.map_nil, content_append_empty]
  simp only [bind, Except.bind, afterRun, hhead]
  rfl

theorem readsGap_of_readsRun {s : List Piece} (hrun : ReadsRun s)
    (hstart : ∀ rest, ∃ c more,
      s.flatMap Piece.chars ++ '\x22' :: rest = c :: more ∧ isWideGap c = false) :
    ReadsGap s := by
  intro fuel known p spaces rest h hspaces hfuel
  obtain ⟨fuel, rfl⟩ : ∃ less, fuel = less + 1 := ⟨fuel - 1, by omega⟩
  obtain ⟨c, more, hmore, hc⟩ := hstart rest
  have hgap := quotedGap_spaces (hmore ▸ h) hspaces hc
  have hrest : (p.advance spaces.length).rest = _ := Place.advance_rest h
  have hlength := Json.length_le_flatMap_chars s
  obtain ⟨q, halong, hread⟩ := hrun fuel ((p.advance spaces.length).rest.length + 1)
    (known ++ { chars := spaces }) _ rest hrest (by omega)
    (by rw [hrest, List.length_append]; omega)
  refine ⟨q, (Place.along_advance h fun c hc => by rw [hspaces c hc]; decide).trans halong, ?_⟩
  rw [hgap]
  simp only [bind, Except.bind, quotedFrom_succ] at hread ⊢
  rw [hread, content_append_assoc, content_append_chars]

theorem readsRun_space {s : List Piece} {h : 0x20 ≤ ' '.toNat ∧ ' ' ≠ '\x22' ∧ ' ' ≠ '\\'}
    (hgap : ReadsGap s) : ReadsRun (.char ' ' h :: s) := by
  intro fuel steps known p rest hp hfuel hsteps
  obtain ⟨steps, rfl⟩ : ∃ less, steps = less + 1 := ⟨steps - 1, by omega⟩
  have hhead : p.head = ' ' := Place.head_of_cons hp
  obtain ⟨q, halong, hread⟩ := hgap fuel known p [' '] rest hp (by simp) hfuel
  refine ⟨q, halong, ?_⟩
  rw [quotedRun_stop steps known hp (.inr rfl)]
  simp only [bind, Except.bind, afterRun, hhead] at hread ⊢
  exact hread

theorem readsGap_space {s : List Piece} {h : 0x20 ≤ ' '.toNat ∧ ' ' ≠ '\x22' ∧ ' ' ≠ '\\'}
    (hgap : ReadsGap s) : ReadsGap (.char ' ' h :: s) := by
  intro fuel known p spaces rest hp hspaces hfuel
  have htext : spaces ++ ((Piece.char ' ' h :: s).flatMap Piece.chars ++ '\x22' :: rest) =
      spaces ++ [' '] ++ (s.flatMap Piece.chars ++ '\x22' :: rest) := by
    simp [Piece.chars]
  obtain ⟨q, halong, hread⟩ := hgap fuel known p (spaces ++ [' ']) rest (htext ▸ hp)
    (by simpa [or_imp, forall_and] using hspaces) (by simp at hfuel; omega)
  refine ⟨q, by simpa [Piece.chars] using halong, hread.trans ?_⟩
  simp [Piece.value]

theorem readsRun_char {s : List Piece} {c : Char} {h : 0x20 ≤ c.toNat ∧ c ≠ '\x22' ∧ c ≠ '\\'}
    (hbreak : isBreak c = false) (hgap : isWideGap c = false) (hrun : ReadsRun s) :
    ReadsRun (.char c h :: s) := by
  intro fuel steps known p rest hp hfuel hsteps
  obtain ⟨steps, rfl⟩ : ∃ less, steps = less + 1 := ⟨steps - 1, by omega⟩
  have hrest := Place.step_rest hp
  rw [List.length_cons] at hfuel hsteps
  by_cases hquote : c = '\x27'
  · subst hquote
    obtain ⟨q, halong, hread⟩ := hrun fuel steps (known ++ { chars := ['\x27'] }) p.step rest hrest
      (by omega) (by omega)
    refine ⟨q, (Place.along_step hp hbreak).trans halong, ?_⟩
    rw [quotedRun_apostrophe steps known hp, hread, content_append_assoc]
    rfl
  · have hends : endsRun c = false := by
      simp [endsRun, hquote, h.2.1, h.2.2, hgap]
    obtain ⟨q, halong, hread⟩ := hrun fuel (steps + 1) (known ++ { chars := [c] }) p.step rest hrest
      (by omega) (by omega)
    refine ⟨q, (Place.along_step hp hbreak).trans halong, ?_⟩
    rw [quotedRun_char steps known hp hends, hread, content_append_assoc]
    rfl

theorem readsRun_escape {s : List Piece} {piece : Piece} {tail : List Char}
    (hchars : piece.chars = '\\' :: tail) (htail : ∀ c ∈ tail, isBreak c = false)
    (hescape : ∀ (p : Place) (rest : List Char), p.rest = tail ++ rest →
      escaped p = .ok ({ chars := [piece.value] }, p.advance tail.length))
    (hrun : ReadsRun s) : ReadsRun (piece :: s) := by
  intro fuel steps known p rest hp hfuel hsteps
  obtain ⟨steps, rfl⟩ : ∃ less, steps = less + 1 := ⟨steps - 1, by omega⟩
  have hstart : p.rest = '\\' :: (tail ++ (s.flatMap Piece.chars ++ '\x22' :: rest)) := by
    rw [hp, List.flatMap_cons, hchars]
    simp
  rw [List.length_cons] at hfuel hsteps
  have htailRest := Place.step_rest hstart
  obtain ⟨q, halong, hread⟩ := hrun fuel steps (known ++ { chars := [piece.value] })
    (p.step.advance tail.length) rest (Place.advance_rest htailRest) (by omega) (by omega)
  refine ⟨q, ?_, ?_⟩
  · have hwhole := ((Place.along_step hstart (by decide)).trans
      (Place.along_advance htailRest htail)).trans halong
    rw [List.flatMap_cons, hchars]
    simpa using hwhole
  · rw [quotedRun_escape steps known hstart (hescape _ _ htailRest), hread, content_append_assoc]
    rfl

theorem not_wideGap {c : Char} (hcontrol : 0x20 ≤ c.toNat) (hspace : c ≠ ' ')
    (hbreak : isBreak c = false) : isWideGap c = false := by
  have hend : c ≠ endMark := by
    rintro rfl
    exact absurd hcontrol (by decide)
  have htab : c ≠ '\t' := by
    rintro rfl
    exact absurd hcontrol (by decide)
  simp [isWideGap, isGap, isBreakOrEnd, hbreak, hend, hspace, htab]

/-- A shared character is read wherever it stands. -/
theorem reads_cons {piece : Piece} {s : List Piece} (hshared : piece.IsShared)
    (h : ReadsRun s ∧ ReadsGap s) : ReadsRun (piece :: s) ∧ ReadsGap (piece :: s) := by
  obtain ⟨hrun, hgap⟩ := h
  cases piece with
  | char c hc =>
    obtain ⟨hallowed, hbreak⟩ := hshared
    by_cases hspace : c = ' '
    · subst hspace
      exact ⟨readsRun_space hgap, readsGap_space hgap⟩
    · have hwide := not_wideGap hc.1 hspace hbreak
      have hread := readsRun_char (h := hc) hbreak hwide hrun
      exact ⟨hread, readsGap_of_readsRun hread fun rest => ⟨c, _, rfl, hwide⟩⟩
  | letter e c he =>
    have hbreak : isBreak e = false :=
      not_break_of (fun e => (Json.escape? e).isSome) (Text.forall_mem_of_all (by decide))
        (by rw [he]; rfl)
    have hread : ReadsRun (.letter e c he :: s) := readsRun_escape rfl (by simpa using hbreak)
      (fun p rest hp => escaped_letter hp he) hrun
    exact ⟨hread, readsGap_of_readsRun hread fun rest => ⟨'\\', _, rfl, by decide⟩⟩
  | unit u hhigh hlow =>
    have hbreak : ∀ c ∈ 'u' :: u.digits, isBreak c = false := by
      rw [List.forall_mem_cons]
      refine ⟨by decide, fun c hc => ?_⟩
      exact not_break_of Number.isHexDigit (Text.forall_mem_of_all (by decide)) (u.hex c hc)
    have hread : ReadsRun (.unit u hhigh hlow :: s) := readsRun_escape rfl hbreak
      (fun p rest hp => escaped_unit hp hhigh hlow) hrun
    exact ⟨hread, readsGap_of_readsRun hread fun rest => ⟨'\\', _, rfl, by decide⟩⟩
  | pair u v => exact absurd hshared id

theorem reads_pieces {s : List Piece} (hshared : ∀ p ∈ s, p.IsShared) :
    ReadsRun s ∧ ReadsGap s := by
  induction s with
  | nil =>
    refine ⟨readsRun_nil, readsGap_of_readsRun readsRun_nil fun rest => ?_⟩
    exact ⟨'\x22', rest, rfl, by decide⟩
  | cons p s ih =>
    rw [List.forall_mem_cons] at hshared
    exact reads_cons hshared.1 (ih hshared.2)

/-- A shared string is read in double quotes as it is meant. -/
theorem quotedText_quotedChars {s : List Piece} (hshared : ∀ p ∈ s, p.IsShared) {p : Place}
    {rest : List Char} (h : p.rest = quotedChars s ++ rest) :
    ∃ q, Along p (quotedChars s) q ∧
      quotedText true p = .ok ({ chars := s.map Piece.value }, q) := by
  have htext : p.rest = '\x22' :: (s.flatMap Piece.chars ++ '\x22' :: rest) := by
    simp [h, quotedChars]
  have hrest := Place.step_rest htext
  have hlength := Json.length_le_flatMap_chars s
  obtain ⟨q, halong, hread⟩ := (reads_pieces hshared).1 p.rest.length (p.step.rest.length + 1) {}
    p.step rest hrest (by rw [htext, List.length_cons, List.length_append]; omega)
    (by rw [hrest, List.length_append]; omega)
  refine ⟨q, (Place.along_step htext (by decide)).trans halong, ?_⟩
  rw [quotedText, quotedFrom_succ, hread]
  rfl

end GraphImport.Yaml
