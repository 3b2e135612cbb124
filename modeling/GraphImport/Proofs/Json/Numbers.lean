import GraphImport.Proofs.Json.Written
import GraphImport.Proofs.Text.Spans

/-!
# Numbers in JSON

A number is read up to its end, whatever can follow a value, as the number that is meant.
-/

namespace GraphImport.Json

open Document (Value)
open Text (Cursor span_taken)

/-- Blanks are passed up to what is none. -/
theorem skipBlanks_gap {rest : List Char} (gap : Gap) (index : Nat)
    (hrest : ∀ c ∈ rest.head?, isBlank c = false) :
    skipBlanks ⟨gap.chars ++ rest, index⟩ = ⟨rest, index + gap.chars.length⟩ := by
  rw [skipBlanks, Cursor.skipWhile, span_taken index gap.blank hrest]

theorem isDigit_mem {c : Char} (h : c.isDigit = true) : c ∈ "0123456789".toList := by
  have hrange : 48 ≤ c.toNat ∧ c.toNat ≤ 57 := by
    simpa [Char.isDigit, UInt32.le_iff_toNat_le] using h
  have hdigits : ∀ n < 58, 48 ≤ n → Char.ofNat n ∈ "0123456789".toList := by decide
  have hchar := hdigits c.toNat (by omega) hrange.1
  rwa [Char.ofNat_toNat] at hchar

theorem Exponent.mem_chars (e : Exponent) : ∀ c ∈ e.chars, c ∈ "0123456789-+.eE".toList := by
  have hdigits : ∀ c ∈ "0123456789".toList, c ∈ "0123456789-+.eE".toList :=
    Text.forall_mem_of_all (by decide)
  rw [Exponent.chars, List.cons_append, List.forall_mem_cons, List.forall_mem_append]
  refine ⟨?_, ?_, fun c hc => hdigits c (isDigit_mem (e.isDigit c hc))⟩
  · rcases e.isLetter with h | h <;> rw [h] <;> decide
  · intro c hc
    rcases e.isSign c (Option.mem_toList.mp hc) with rfl | rfl <;> decide

namespace Numeral

variable (n : Numeral)

theorem unsignedChars_eq_cons :
    ∃ d more, n.unsignedChars = d :: more ∧ d.isDigit = true := by
  obtain ⟨d, ds, hwhole⟩ := List.exists_cons_of_ne_nil n.nonempty
  refine ⟨d, ds ++ n.placesChars ++ n.exponentChars, ?_, ?_⟩
  · simp [Numeral.unsignedChars, hwhole]
  · exact n.wholeDigit d (hwhole ▸ List.mem_cons_self)

theorem chars_eq_cons :
    ∃ c more, n.chars = c :: more ∧ c ∈ '-' :: "0123456789".toList := by
  obtain ⟨d, more, hchars, hdigit⟩ := n.unsignedChars_eq_cons
  unfold Numeral.chars
  split
  · exact ⟨'-', n.unsignedChars, rfl, List.mem_cons_self⟩
  · exact ⟨d, more, hchars, List.mem_cons_of_mem _ (isDigit_mem hdigit)⟩

/-- What is written before the exponent. -/
theorem mem_mantissa : ∀ c ∈ n.whole ++ n.placesChars, c ∈ "0123456789.".toList := by
  have hdigits : ∀ c ∈ "0123456789".toList, c ∈ "0123456789.".toList :=
    Text.forall_mem_of_all (by decide)
  rw [List.forall_mem_append]
  refine ⟨fun c hc => hdigits c (isDigit_mem (n.wholeDigit c hc)), ?_⟩
  unfold placesChars
  split
  · simp
  · rw [List.forall_mem_cons]
    exact ⟨by decide, fun c hc => hdigits c (isDigit_mem (n.placesDigit c hc))⟩

theorem mem_unsignedChars : ∀ c ∈ n.unsignedChars, c ∈ "0123456789-+.eE".toList := by
  have hmantissa : ∀ c ∈ "0123456789.".toList, c ∈ "0123456789-+.eE".toList :=
    Text.forall_mem_of_all (by decide)
  rw [unsignedChars, List.forall_mem_append]
  refine ⟨fun c hc => hmantissa c (n.mem_mantissa c hc), ?_⟩
  unfold exponentChars
  cases n.exponent with
  | none => simp
  | some e => exact e.mem_chars

theorem mem_chars : ∀ c ∈ n.chars, c ∈ "0123456789-+.eE".toList := by
  unfold chars
  split
  · rw [List.forall_mem_cons]
    exact ⟨by decide, n.mem_unsignedChars⟩
  · exact n.mem_unsignedChars

end Numeral

/-- A character that can follow a value. -/
def follows (c : Char) : Bool :=
  isBlank c || c == ',' || c == ']' || c == '\x7d'

/-- Whether a text ends or goes on with a character that can follow a value. -/
def Ends (rest : List Char) : Prop :=
  ∀ c ∈ rest.head?, follows c = true

theorem follows_mem {c : Char} (h : follows c = true) :
    c ∈ [' ', '\t', '\n', '\r', ',', ']', '\x7d'] := by
  simpa [follows, isBlank, or_assoc] using h

theorem Ends.head_eq_false {rest : List Char} (h : Ends rest) {p : Char → Bool}
    (hp : ∀ c ∈ [' ', '\t', '\n', '\r', ',', ']', '\x7d'], p c = false) :
    ∀ c ∈ rest.head?, p c = false :=
  fun c hc => hp c (follows_mem (h c hc))

theorem places_none {rest : List Char} (h : ∀ c ∈ rest.head?, (c == '.') = false) (index : Nat) :
    places ⟨rest, index⟩ = ([], ⟨rest, index⟩) := by
  cases rest with
  | nil => rfl
  | cons c rest =>
    have hc : c ≠ '.' := by simpa using h c rfl
    cases rest with
    | nil => simp [places]
    | cons d rest => simp [places, hc]

theorem placesChars_read (n : Numeral) {rest : List Char} (index : Nat)
    (hdigit : ∀ c ∈ rest.head?, c.isDigit = false) (hpoint : ∀ c ∈ rest.head?, (c == '.') = false) :
    ∃ next, places ⟨n.placesChars ++ rest, index⟩ = (n.places, ⟨rest, next⟩) := by
  cases hplaces : n.places with
  | nil =>
    refine ⟨index, ?_⟩
    rw [Numeral.placesChars, if_pos hplaces, List.nil_append, places_none hpoint]
  | cons d ds =>
    have hdigits := n.placesDigit
    rw [hplaces] at hdigits
    have hspan := span_taken (index + 1) hdigits hdigit
    refine ⟨index + 1 + (d :: ds).length, ?_⟩
    rw [Numeral.placesChars, hplaces, if_neg (List.cons_ne_nil d ds)]
    simp only [places, List.cons_append, hdigits d (List.mem_cons_self), if_true]
    exact hspan

theorem exponent_none {rest : List Char} (h : ∀ c ∈ rest.head?, (c == 'e' || c == 'E') = false)
    (index : Nat) : exponent ⟨rest, index⟩ = (none, ⟨rest, index⟩) := by
  unfold exponent
  cases rest with
  | nil => rfl
  | cons c rest =>
    have hc := h c rfl
    extract_lets mark from?
    have hmark : mark c = false := hc
    split
    next heq => simp only [List.cons.injEq] at heq; simp [← heq.1, hmark]
    next heq => simp only [List.cons.injEq] at heq; simp [← heq.1, hmark]
    next heq => simp only [List.cons.injEq] at heq; simp [← heq.1, hmark]
    next => rfl

theorem exponent_some (e : Exponent) {rest : List Char}
    (hdigit : ∀ c ∈ rest.head?, c.isDigit = false) (index : Nat) :
    ∃ next, exponent ⟨e.chars ++ rest, index⟩ = (some e.value, ⟨rest, next⟩) := by
  obtain ⟨letter, sign, digits, hletter, hsign, hnonempty, hdigits⟩ := e
  have hmark : (letter == 'e' || letter == 'E') = true := by simpa using hletter
  have hsome : digits.isEmpty = false := by simpa using hnonempty
  cases sign with
  | none =>
    obtain ⟨d, ds, rfl⟩ := List.exists_cons_of_ne_nil hnonempty
    have hd := hdigits d (List.mem_cons_self)
    have hminus : d ≠ '-' := by rintro rfl; exact absurd hd (by decide)
    have hplus : d ≠ '+' := by rintro rfl; exact absurd hd (by decide)
    have hspan := span_taken (index + 1) hdigits hdigit
    rw [List.cons_append] at hspan
    refine ⟨index + 1 + (d :: ds).length, ?_⟩
    simp [exponent, Exponent.chars, Exponent.value, hmark, hminus, hplus, Cursor.skip, hspan]
  | some c =>
    have hspan := span_taken (index + 2) hdigits hdigit
    refine ⟨index + 2 + digits.length, ?_⟩
    rcases hsign c rfl with rfl | rfl <;>
      simp [exponent, Exponent.chars, Exponent.value, hmark, hsome, Cursor.skip, hspan]

theorem exponentChars_read (n : Numeral) {rest : List Char} (hends : Ends rest) (index : Nat) :
    ∃ next, exponent ⟨n.exponentChars ++ rest, index⟩ =
      (n.exponent.map Exponent.value, ⟨rest, next⟩) := by
  have hmark : ∀ c ∈ rest.head?, (c == 'e' || c == 'E') = false :=
    hends.head_eq_false (Text.forall_mem_of_all (by decide))
  have hdigit : ∀ c ∈ rest.head?, c.isDigit = false :=
    hends.head_eq_false (Text.forall_mem_of_all (by decide))
  unfold Numeral.exponentChars
  cases n.exponent with
  | none => exact ⟨index, exponent_none hmark index⟩
  | some e => exact exponent_some e hdigit index

section Heads

variable (n : Numeral) {rest : List Char} (hends : Ends rest) {p : Char → Bool}
  (hletter : p 'e' = false ∧ p 'E' = false)
  (hp : ∀ c ∈ [' ', '\t', '\n', '\r', ',', ']', '\x7d'], p c = false)

include hends hletter hp

theorem exponentChars_head : ∀ c ∈ (n.exponentChars ++ rest).head?, p c = false := by
  unfold Numeral.exponentChars
  cases n.exponent with
  | none => exact hends.head_eq_false hp
  | some e =>
    intro c hc
    obtain rfl : e.letter = c := Option.some.inj hc
    rcases e.isLetter with h | h
    · rw [h]; exact hletter.1
    · rw [h]; exact hletter.2

theorem placesChars_head (hpoint : p '.' = false) :
    ∀ c ∈ (n.placesChars ++ (n.exponentChars ++ rest)).head?, p c = false := by
  unfold Numeral.placesChars
  split
  · exact exponentChars_head n hends hletter hp
  · intro c hc
    obtain rfl : '.' = c := Option.some.inj hc
    exact hpoint

end Heads

theorem after?_minus (n : Numeral) (rest : List Char) (index : Nat) : ∃ start,
    Cursor.after? ⟨n.chars ++ rest, index⟩ ['-'] =
        (if n.negative then some ⟨n.unsignedChars ++ rest, start⟩ else none) ∧
      (n.negative = false →
        (⟨n.unsignedChars ++ rest, start⟩ : Cursor) = ⟨n.chars ++ rest, index⟩) := by
  unfold Numeral.chars
  cases n.negative with
  | true => exact ⟨index + 1, rfl, Bool.noConfusion⟩
  | false =>
    obtain ⟨d, ds, hwhole⟩ := List.exists_cons_of_ne_nil n.nonempty
    have hd : d.isDigit = true := n.wholeDigit d (hwhole ▸ List.mem_cons_self)
    have hminus : '-' ≠ d := by
      rintro rfl
      exact absurd hd (by decide)
    refine ⟨index, ?_, fun _ => rfl⟩
    simp [Cursor.after?, Numeral.unsignedChars, hwhole, hminus]

/-- The digits before the point: a lone zero, or all digits up to what is none. -/
def WholeAt (c : Cursor) (whole : List Char) (next : Cursor) : Prop :=
  (∃ more, c.rest = '0' :: more ∧ whole = ['0'] ∧ next = c.skip 1) ∨
    (∀ more, c.rest ≠ '0' :: more) ∧ c.span Char.isDigit = (whole, next)

theorem whole_read (n : Numeral) {rest : List Char} (index : Nat)
    (hdigit : ∀ c ∈ rest.head?, c.isDigit = false) :
    ∃ next, WholeAt ⟨n.whole ++ rest, index⟩ n.whole ⟨rest, next⟩ := by
  obtain ⟨d, ds, hwhole⟩ := List.exists_cons_of_ne_nil n.nonempty
  by_cases hd : d = '0'
  · have hzero : n.whole = ['0'] := n.leadingZero (by rw [hwhole, hd]; rfl)
    exact ⟨index + 1, .inl ⟨rest, by rw [hzero]; rfl, hzero, by rw [hzero]; rfl⟩⟩
  · refine ⟨_, .inr ⟨fun more hmore => ?_, span_taken index n.wholeDigit hdigit⟩⟩
    rw [hwhole] at hmore
    exact hd (List.cons_eq_cons.mp hmore).1

/-- A number is put together from its parts. -/
theorem number?_of_parts {c afterSign afterWhole afterPlaces next : Cursor} {negative : Bool}
    {whole places' : List Char} {e? : Option Int}
    (hsign : c.after? ['-'] = if negative then some afterSign else none)
    (hunsigned : negative = false → afterSign = c) (hwhole : WholeAt afterSign whole afterWhole)
    (hnonempty : whole ≠ []) (hplaces : places afterWhole = (places', afterPlaces))
    (hexponent : exponent afterPlaces = (e?, next)) :
    number? c = some (if places' = [] ∧ e? = none then
        .int (if negative then -Number.natOfDigits 10 whole else Number.natOfDigits 10 whole)
      else .float (Number.ofDecimal negative (Number.natOfDigits 10 (whole ++ places'))
        (e?.getD 0 - places'.length)), next) := by
  unfold number?
  cases negative with
  | true =>
    simp only [hsign, if_true]
    rcases hwhole with ⟨more, hrest, rfl, rfl⟩ | ⟨hrest, hspan⟩
    · simp only [hrest, hplaces, hexponent]
      cases places' <;> cases e? <;> simp
    · simp only [hspan, hplaces, hexponent]
      cases places' <;> cases e? <;> simp [hnonempty]
  | false =>
    obtain rfl := hunsigned rfl
    simp only [hsign, Bool.false_eq_true, if_false]
    rcases hwhole with ⟨more, hrest, rfl, rfl⟩ | ⟨hrest, hspan⟩
    · simp only [hrest, hplaces, hexponent]
      cases places' <;> cases e? <;> simp
    · simp only [hspan, hplaces, hexponent]
      cases places' <;> cases e? <;> simp [hnonempty]

/-- A number is read up to its end. -/
theorem number?_chars (n : Numeral) {rest : List Char} (hends : Ends rest) (index : Nat) :
    ∃ next, number? ⟨n.chars ++ rest, index⟩ = some (n.value, ⟨rest, next⟩) := by
  obtain ⟨start, hsign, hunsigned⟩ := after?_minus n rest index
  have htext : n.unsignedChars ++ rest =
      n.whole ++ (n.placesChars ++ (n.exponentChars ++ rest)) := by
    simp [Numeral.unsignedChars]
  obtain ⟨a, hwhole⟩ := whole_read n start
    (placesChars_head n hends ⟨by decide, by decide⟩ (Text.forall_mem_of_all (by decide))
      (by decide))
  obtain ⟨b, hplaces⟩ := placesChars_read n a
    (exponentChars_head n hends ⟨by decide, by decide⟩ (Text.forall_mem_of_all (by decide)))
    (exponentChars_head n hends ⟨by decide, by decide⟩ (Text.forall_mem_of_all (by decide)))
  obtain ⟨next, hexponent⟩ := exponentChars_read n hends b
  rw [htext] at hsign hunsigned
  refine ⟨next, ?_⟩
  rw [number?_of_parts hsign hunsigned hwhole n.nonempty hplaces hexponent]
  cases he : n.exponent <;> simp [Numeral.value, he]

end GraphImport.Json
