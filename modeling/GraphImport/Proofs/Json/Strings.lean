import GraphImport.Json.Printer
import GraphImport.Proofs.Json.Written
import GraphImport.Proofs.Text.Spans

/-!
# Strings in JSON

A string is read as it is meant, in whatever form its characters stand. The printer writes one in
printable ASCII characters, so it never breaks a line, and it is read back as the same string.
-/

namespace GraphImport.Json

open Document (Value)
open Text (Cursor)

/-- Printable ASCII characters. -/
def IsPlain (c : Char) : Prop :=
  0x20 ≤ c.toNat ∧ c.toNat < 0x7F

instance (c : Char) : Decidable (IsPlain c) :=
  inferInstanceAs (Decidable (_ ∧ _))

theorem toNat_lt_bound (c : Char) : c.toNat < 0xD800 ∨ 0xDFFF < c.toNat ∧ c.toNat < 0x110000 :=
  c.valid

section Digits

theorem hexDigit_plain : ∀ n < 16, IsPlain (Text.hexDigit n) := by decide

theorem isHexDigit_hexDigit : ∀ n < 16, Number.isHexDigit (Text.hexDigit n) = true := by decide

theorem digitValue_hexDigit : ∀ n < 16, Number.digitValue (Text.hexDigit n) = n := by decide

theorem length_hexDigits (width n : Nat) : (Text.hexDigits width n).length = width := by
  induction width generalizing n with
  | zero => rfl
  | succ width ih => simp [Text.hexDigits, ih]

/-- The hexadecimal digits of a number are those of numbers below sixteen. -/
theorem mem_hexDigits {width n : Nat} {c : Char} (h : c ∈ Text.hexDigits width n) :
    ∃ d < 16, c = Text.hexDigit d := by
  induction width generalizing n with
  | zero => simp [Text.hexDigits] at h
  | succ width ih =>
    rw [Text.hexDigits, List.mem_append, List.mem_singleton] at h
    rcases h with h | h
    · exact ih h
    · exact ⟨n % 16, Nat.mod_lt n (by decide), h⟩

/-- The last digit counts once, and those before it sixteen times. -/
theorem natOfDigits_hexDigits_succ (width n : Nat) :
    Number.natOfDigits 16 (Text.hexDigits (width + 1) n) =
      16 * Number.natOfDigits 16 (Text.hexDigits width (n / 16)) + n % 16 := by
  have hlast : Number.digitValue (Text.hexDigit (n % 16)) = n % 16 :=
    digitValue_hexDigit _ (Nat.mod_lt n (by decide))
  rw [Text.hexDigits, Number.natOfDigits, List.foldl_append, List.foldl_cons, List.foldl_nil,
    hlast]
  rfl

/-- Four digits are enough for a code unit. -/
theorem natOfDigits_hexDigits {n : Nat} (h : n < 0x10000) :
    Number.natOfDigits 16 (Text.hexDigits 4 n) = n := by
  have hnone (m : Nat) : Number.natOfDigits 16 (Text.hexDigits 0 m) = 0 := rfl
  simp only [natOfDigits_hexDigits_succ, hnone]
  omega

end Digits

theorem unitEscape_plain {n : Nat} : ∀ c ∈ unitEscape n, IsPlain c := by
  intro c hc
  simp only [unitEscape, List.mem_cons] at hc
  rcases hc with rfl | rfl | hc
  · decide
  · decide
  · obtain ⟨d, hd, rfl⟩ := mem_hexDigits hc
    exact hexDigit_plain d hd

theorem stringChar_plain (c : Char) : ∀ x ∈ stringChar c, IsPlain x := by
  unfold stringChar
  split
  iterate 7 exact Text.forall_mem_of_all (by decide)
  extract_lets n m
  split
  next hplain =>
    intro x hx
    rw [List.mem_singleton.mp hx]
    simpa [IsPlain] using hplain
  next =>
    split
    · exact unitEscape_plain
    · intro x hx
      rcases List.mem_append.mp hx with hx | hx <;> exact unitEscape_plain x hx

theorem stringText_plain (s : String) : ∀ c ∈ stringText s, IsPlain c := by
  intro c hc
  simp only [stringText, List.cons_append, List.mem_cons, List.mem_append, List.mem_flatMap,
    List.not_mem_nil, or_false] at hc
  rcases hc with rfl | ⟨x, _, hc⟩ | rfl
  · decide
  · exact stringChar_plain x c hc
  · decide

section Characters

/-- Whether a character is a visible one of ASCII, or a space. -/
def IsGraphic (c : Char) : Prop :=
  0x20 ≤ c.toNat ∧ c.toNat ≤ 0x7E

instance (c : Char) : Decidable (IsGraphic c) :=
  inferInstanceAs (Decidable (_ ∧ _))

theorem isGraphic_of_isHexDigit {c : Char} (h : Number.isHexDigit c = true) : IsGraphic c := by
  simp only [Number.isHexDigit, Char.isDigit, Bool.or_eq_true, Bool.and_eq_true,
    decide_eq_true_eq, Char.le_def, UInt32.le_iff_toNat_le] at h
  unfold IsGraphic
  rcases h with (h | h) | h
  · change 48 ≤ c.toNat ∧ c.toNat ≤ 57 at h
    omega
  · change 97 ≤ c.toNat ∧ c.toNat ≤ 102 at h
    omega
  · change 65 ≤ c.toNat ∧ c.toNat ≤ 70 at h
    omega

theorem isGraphic_of_escape {e c : Char} (h : escape? e = some c) : IsGraphic e := by
  unfold escape? at h
  split at h <;> first | decide | exact absurd h (Option.some_ne_none c).symm

/-- Escapes are written in ASCII. -/
theorem Piece.mem_chars (p : Piece) {c : Char} (hc : c ∈ p.chars) :
    (∃ h, p = .char c h) ∨ IsGraphic c := by
  have hunit (u : CodeUnit) : ∀ c ∈ '\\' :: 'u' :: u.digits, IsGraphic c := by
    rw [List.forall_mem_cons, List.forall_mem_cons]
    exact ⟨by decide, by decide, fun c hc => isGraphic_of_isHexDigit (u.hex c hc)⟩
  cases p with
  | char d h =>
    obtain rfl := List.mem_singleton.mp hc
    exact .inl ⟨h, rfl⟩
  | letter e d h =>
    have hletter : ∀ c ∈ ['\\', e], IsGraphic c := by
      rw [List.forall_mem_cons, List.forall_mem_singleton]
      exact ⟨by decide, isGraphic_of_escape h⟩
    exact .inr (hletter c hc)
  | unit u => exact .inr (hunit u c hc)
  | pair u v => exact .inr ((List.mem_append.mp hc).elim (hunit u c) (hunit v c))

end Characters

section Cursors

theorem codeUnit?_digits (u : CodeUnit) (rest : List Char) (index : Nat) :
    codeUnit? ⟨u.digits ++ rest, index⟩ = some u.value := by
  have htake : (u.digits ++ rest).take 4 = u.digits := List.take_left' u.length
  have hall : u.digits.all Number.isHexDigit = true := List.all_eq_true.mpr u.hex
  simp only [codeUnit?, htake, hall, u.length, beq_self_eq_true, Bool.and_self, if_true]
  rfl

theorem skip_digits (u : CodeUnit) (rest : List Char) (index : Nat) :
    Cursor.skip ⟨u.digits ++ rest, index⟩ 4 = ⟨rest, index + 4⟩ := by
  have h := Text.skip_append u.digits rest index
  rwa [u.length] at h

end Cursors

section Reading

variable (start fuel : Nat) (soFar : StringSoFar) (rest : List Char) (index : Nat)

theorem stringFrom_char {c : Char} (h : 0x20 ≤ c.toNat ∧ c ≠ '\x22' ∧ c ≠ '\\') :
    stringFrom start (fuel + 1) soFar ⟨c :: rest, index⟩ =
      stringFrom start fuel (soFar.push c) ⟨rest, index + 1⟩ := by
  obtain ⟨hcontrol, hquote, hslash⟩ := h
  rw [stringFrom]
  split
  next h => simp at h
  next h => exact absurd (List.cons_eq_cons.mp h).1 hquote
  next h => exact absurd (List.cons_eq_cons.mp h).1 hslash
  next h => exact absurd (List.cons_eq_cons.mp h).1 hslash
  next h => exact absurd (List.cons_eq_cons.mp h).1 hslash
  next x _ _ _ _ _ h =>
    obtain ⟨rfl, rfl⟩ := List.cons_eq_cons.mp h
    rw [if_neg (Nat.not_lt.mpr hcontrol)]
    rfl

theorem stringFrom_letter {e c : Char} (h : escape? e = some c) :
    stringFrom start (fuel + 1) soFar ⟨'\\' :: e :: rest, index⟩ =
      stringFrom start fuel (soFar.push c) ⟨rest, index + 2⟩ := by
  have hunit : e ≠ 'u' := by
    rintro rfl
    simp [escape?] at h
  simp only [stringFrom, h]
  rfl

theorem stringFrom_unit {u : CodeUnit} (hhigh : isHighSurrogate u.value = false)
    (hlow : isLowSurrogate u.value = false) :
    stringFrom start (fuel + 1) soFar ⟨'\\' :: 'u' :: (u.digits ++ rest), index⟩ =
      stringFrom start fuel (soFar.push (Char.ofNat u.value)) ⟨rest, index + 6⟩ := by
  have hskip : Cursor.skip ⟨'\\' :: 'u' :: (u.digits ++ rest), index⟩ 2 =
      ⟨u.digits ++ rest, index + 2⟩ := rfl
  simp only [stringFrom, hskip, codeUnit?_digits, skip_digits, hhigh, hlow, Bool.false_eq_true,
    if_false]

theorem lowSurrogate?_digits {v : CodeUnit} (hlow : isLowSurrogate v.value = true) :
    lowSurrogate? ⟨'\\' :: 'u' :: (v.digits ++ rest), index⟩ = some v.value := by
  have hafter : Cursor.after? ⟨'\\' :: 'u' :: (v.digits ++ rest), index⟩ ['\\', 'u'] =
      some ⟨v.digits ++ rest, index + 2⟩ := rfl
  simp only [lowSurrogate?, hafter, codeUnit?_digits, Option.filter_some, hlow, if_true]

theorem stringFrom_pair {u v : CodeUnit} (hhigh : isHighSurrogate u.value = true)
    (hlow : isLowSurrogate v.value = true) :
    stringFrom start (fuel + 1) soFar
        ⟨'\\' :: 'u' :: (u.digits ++ '\\' :: 'u' :: (v.digits ++ rest)), index⟩ =
      stringFrom start fuel
        (soFar.push (Char.ofNat (0x10000 + (u.value - 0xD800) * 0x400 + (v.value - 0xDC00))))
        ⟨rest, index + 12⟩ := by
  have hlowSkip : Cursor.skip ⟨'\\' :: 'u' :: (v.digits ++ rest), index + 6⟩ 6 =
      ⟨rest, index + 12⟩ := skip_digits v rest (index + 8)
  have hskip : Cursor.skip
      ⟨'\\' :: 'u' :: (u.digits ++ '\\' :: 'u' :: (v.digits ++ rest)), index⟩ 2 =
        ⟨u.digits ++ '\\' :: 'u' :: (v.digits ++ rest), index + 2⟩ := rfl
  simp only [stringFrom, hskip, codeUnit?_digits, skip_digits, hhigh, if_true,
    lowSurrogate?_digits rest _ hlow, hlowSkip]

/-- A character is read in any of its forms. -/
theorem stringFrom_piece (p : Piece) : ∃ next,
    stringFrom start (fuel + 1) soFar ⟨p.chars ++ rest, index⟩ =
      stringFrom start fuel (soFar.push p.value) ⟨rest, next⟩ := by
  cases p with
  | char c h => exact ⟨_, stringFrom_char start fuel soFar rest index h⟩
  | letter e c h => exact ⟨_, stringFrom_letter start fuel soFar rest index h⟩
  | unit u hhigh hlow => exact ⟨_, stringFrom_unit start fuel soFar rest index hhigh hlow⟩
  | pair u v hhigh hlow =>
    refine ⟨_, Eq.trans ?_ (stringFrom_pair start fuel soFar rest index hhigh hlow)⟩
    simp [Piece.chars]

/-- Characters are read one by one, up to the quote that closes the string. -/
theorem stringFrom_pieces (s : List Piece) (hfuel : s.length < fuel) : ∃ next,
    stringFrom start fuel soFar ⟨s.flatMap Piece.chars ++ '\x22' :: rest, index⟩ =
      .ok ({ soFar with chars := (s.map Piece.value).reverse ++ soFar.chars }, ⟨rest, next⟩) := by
  induction s generalizing fuel soFar index with
  | nil =>
    obtain ⟨fuel, rfl⟩ := Nat.exists_eq_add_of_lt hfuel
    exact ⟨index + 1, rfl⟩
  | cons p s ih =>
    obtain ⟨fuel, rfl⟩ : ∃ less, fuel = less + 1 := ⟨fuel - 1, by simp at hfuel; omega⟩
    obtain ⟨middle, hstep⟩ := stringFrom_piece start fuel soFar
      (s.flatMap Piece.chars ++ '\x22' :: rest) index p
    obtain ⟨next, hrest⟩ := ih fuel (soFar.push p.value) middle (by simpa using hfuel)
    refine ⟨next, ?_⟩
    rw [List.flatMap_cons, List.append_assoc, hstep, hrest]
    simp [StringSoFar.push]

end Reading

theorem length_le_flatMap_chars (s : List Piece) : s.length ≤ (s.flatMap Piece.chars).length := by
  induction s with
  | nil => exact Nat.le_refl 0
  | cons p s ih =>
    have hp : 0 < p.chars.length := by cases p <;> simp [Piece.chars]
    rw [List.flatMap_cons, List.length_append, List.length_cons]
    omega

/-- A string is read as the text that is meant. -/
theorem string_quotedChars (s : List Piece) (rest : List Char) (index : Nat) :
    ∃ next, string ⟨quotedChars s ++ rest, index⟩ = .ok (.text (stringOf s), ⟨rest, next⟩) := by
  have htext : quotedChars s ++ rest = '\x22' :: (s.flatMap Piece.chars ++ '\x22' :: rest) := by
    simp [quotedChars]
  have hfuel : s.length < (quotedChars s ++ rest).length + 1 := by
    have hlength := length_le_flatMap_chars s
    rw [htext, List.length_cons, List.length_append]
    omega
  have hskip : Cursor.skip ⟨'\x22' :: (s.flatMap Piece.chars ++ '\x22' :: rest), index⟩ 1 =
      ⟨s.flatMap Piece.chars ++ '\x22' :: rest, index + 1⟩ := rfl
  obtain ⟨next, hread⟩ := stringFrom_pieces index _ {} rest (index + 1) s hfuel
  refine ⟨next, ?_⟩
  rw [htext] at hread ⊢
  rw [string, hskip, hread]
  change Except.ok (_, _) = Except.ok (_, _)
  rw [StringSoFar.value, List.append_nil, List.reverse_reverse]
  rfl

section Printing

/-- The code unit that the printer writes for a number. -/
def CodeUnit.ofNat (n : Nat) : CodeUnit where
  digits := Text.hexDigits 4 n
  length := length_hexDigits 4 n
  hex c hc := by
    obtain ⟨d, hd, rfl⟩ := mem_hexDigits hc
    exact isHexDigit_hexDigit d hd

theorem CodeUnit.value_ofNat {n : Nat} (h : n < 0x10000) : (CodeUnit.ofNat n).value = n :=
  natOfDigits_hexDigits h

/-- What the printer writes for a character is one of its forms. -/
theorem exists_piece (c : Char) : ∃ p : Piece, p.chars = stringChar c ∧ p.value = c := by
  unfold stringChar
  split
  iterate 7 exact ⟨.letter _ _ rfl, rfl, rfl⟩
  next hquote hslash _ _ _ _ _ =>
    extract_lets n m
    have hchar : Char.ofNat n = c := Char.ofNat_toNat c
    have hbound := toNat_lt_bound c
    split
    next hplain =>
      have hcontrol : 0x20 ≤ c.toNat := by
        simp only [Bool.and_eq_true, decide_eq_true_eq] at hplain
        exact hplain.1
      exact ⟨.char c ⟨hcontrol, hquote, hslash⟩, rfl, rfl⟩
    next =>
      split
      next hunit =>
        have hvalue := CodeUnit.value_ofNat hunit
        refine ⟨.unit (.ofNat n) ?_ ?_, rfl, ?_⟩
        · simp only [hvalue, isHighSurrogate, Bool.and_eq_false_iff, decide_eq_false_iff_not]
          omega
        · simp only [hvalue, isLowSurrogate, Bool.and_eq_false_iff, decide_eq_false_iff_not]
          omega
        · rw [Piece.value, hvalue, hchar]
      next hwide =>
        have hhigh := CodeUnit.value_ofNat (n := 0xD800 + m / 0x400) (by omega)
        have hlow := CodeUnit.value_ofNat (n := 0xDC00 + m % 0x400) (by omega)
        have hpoint : 0x10000 + (0xD800 + m / 0x400 - 0xD800) * 0x400 +
            (0xDC00 + m % 0x400 - 0xDC00) = n := by omega
        refine ⟨.pair (.ofNat (0xD800 + m / 0x400)) (.ofNat (0xDC00 + m % 0x400)) ?_ ?_, rfl, ?_⟩
        · simp only [hhigh, isHighSurrogate, Bool.and_eq_true, decide_eq_true_eq]
          omega
        · simp only [hlow, isLowSurrogate, Bool.and_eq_true, decide_eq_true_eq]
          omega
        · rw [Piece.value, hhigh, hlow, hpoint, hchar]

theorem exists_pieces (cs : List Char) :
    ∃ s : List Piece, s.flatMap Piece.chars = cs.flatMap stringChar ∧ s.map Piece.value = cs := by
  induction cs with
  | nil => exact ⟨[], rfl, rfl⟩
  | cons c cs ih =>
    obtain ⟨p, hchars, hvalue⟩ := exists_piece c
    obtain ⟨s, hrest, hvalues⟩ := ih
    exact ⟨p :: s, by simp [hchars, hrest], by simp [hvalue, hvalues]⟩

end Printing

end GraphImport.Json
