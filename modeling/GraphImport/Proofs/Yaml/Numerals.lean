import GraphImport.Proofs.Json.Numbers
import GraphImport.Proofs.Yaml.Shared

/-!
# Numbers that YAML shares

A shared number has the form of an integer or of a floating-point number in YAML as well, and
means what it means in JSON.
-/

namespace GraphImport.Yaml

open Json (Exponent Numeral)
open Number (maxDigits)
open PlainForm

/-- A text is none of some words if they all start in another way. -/
theorem isOneOf_eq_false {words : List String} {c : Char} {cs : List Char}
    (h : ∀ word ∈ words, word.toList.head? ≠ some c) : isOneOf words (c :: cs) = false := by
  rw [isOneOf, List.any_eq_false]
  intro word hword heq
  exact h word hword (by rw [eq_of_beq heq]; rfl)

theorem isDigit_ne {c d : Char} (hc : c.isDigit = true) (hd : d.isDigit = false) : c ≠ d := by
  rintro rfl
  rw [hc] at hd
  exact Bool.noConfusion hd

theorem isDigits_of_all {cs : List Char} (hnonempty : cs ≠ [])
    (hdigits : ∀ c ∈ cs, c.isDigit = true) : isDigits cs = true := by
  obtain ⟨c, cs, rfl⟩ := List.exists_cons_of_ne_nil hnonempty
  rw [isDigits, List.headD_cons, hdigits c List.mem_cons_self, Bool.true_and, List.all_eq_true]
  intro d hd
  rw [isDigitOrLine, hdigits d hd, Bool.true_or]

section Parts

variable (n : Numeral)

theorem unsigned_of_isDigit {c : Char} {cs : List Char} (hc : c.isDigit = true) :
    unsigned (c :: cs) = c :: cs := by
  unfold unsigned
  split
  · next heq => exact absurd (List.cons.inj heq).1 (isDigit_ne hc (by decide))
  · next heq => exact absurd (List.cons.inj heq).1 (isDigit_ne hc (by decide))
  · rfl

theorem signOf_unsignedChars : signOf n.unsignedChars = (false, n.unsignedChars) := by
  obtain ⟨d, more, hunsigned, hd⟩ := n.unsignedChars_eq_cons
  rw [signOf, hunsigned, unsigned_of_isDigit hd]
  simp [isDigit_ne hd (d := '-') (by decide)]

theorem signOf_chars : signOf n.chars = (n.negative, n.unsignedChars) := by
  unfold Numeral.chars
  split
  · next h => rw [h]; rfl
  · next h => rw [Bool.eq_false_iff.mpr h, signOf_unsignedChars]

theorem unsigned_chars : unsigned n.chars = n.unsignedChars :=
  congrArg Prod.snd (signOf_chars n)

theorem exponentSplit_unsignedChars :
    exponentSplit n.unsignedChars = (n.whole ++ n.placesChars, n.exponentChars) := by
  have hletters : ∀ c ∈ "0123456789.".toList, (c != 'e' && c != 'E') = true :=
    Text.forall_mem_of_all (by decide)
  have htaken : ∀ c ∈ n.whole ++ n.placesChars, (c != 'e' && c != 'E') = true :=
    fun c hc => hletters c (n.mem_mantissa c hc)
  have hrest : ∀ c ∈ n.exponentChars.head?, (c != 'e' && c != 'E') = false := by
    unfold Numeral.exponentChars
    cases n.exponent with
    | none => exact fun c hc => nomatch hc
    | some e =>
      intro c hc
      obtain rfl : e.letter = c := Option.some.inj hc
      rcases e.isLetter with h | h <;> rw [h] <;> decide
  rw [exponentSplit, Numeral.unsignedChars, Text.takeWhile_taken htaken hrest,
    Text.dropWhile_taken htaken hrest]

/-- The parts of a number before its exponent, split at the point. -/
theorem pointSplit_mantissa :
    (n.whole ++ n.placesChars).takeWhile (· != '.') = n.whole ∧
      ((n.whole ++ n.placesChars).dropWhile (· != '.')).drop 1 = n.places := by
  have hwhole : ∀ c ∈ n.whole, (c != '.') = true := fun c hc =>
    bne_iff_ne.mpr (isDigit_ne (n.wholeDigit c hc) (by decide))
  have hpoint : ∀ c ∈ n.placesChars.head?, (c != '.') = false := by
    unfold Numeral.placesChars
    split
    · exact fun c hc => nomatch hc
    · rintro c hc
      obtain rfl : '.' = c := Option.some.inj hc
      decide
  refine ⟨Text.takeWhile_taken hwhole hpoint, ?_⟩
  rw [Text.dropWhile_taken hwhole hpoint, Numeral.placesChars]
  split
  · next h => rw [h]; rfl
  · rfl

theorem contains_point : (n.whole ++ n.placesChars).contains '.' = (n.places != []) := by
  have hwhole : '.' ∉ n.whole := fun h => absurd (n.wholeDigit '.' h) (by decide)
  rw [Bool.eq_iff_iff, List.contains_iff_mem, List.mem_append, bne_iff_ne, Numeral.placesChars]
  split
  · next h => simp [hwhole, h]
  · next h => simp [h]

end Parts

section Forms

variable (n : Numeral)

theorem not_flag : isOneOf (flagWords .v11) n.chars = false := by
  have hheads : ∀ c ∈ '-' :: "0123456789".toList, ∀ word ∈ flagWords .v11,
      word.toList.head? ≠ some c := Text.forall_mem_of_all (by decide +kernel)
  obtain ⟨c, more, hchars, hc⟩ := n.chars_eq_cons
  rw [hchars, isOneOf_eq_false (hheads c hc)]

theorem not_special : (isOneOf (cases ".inf" ++ [".Inf"]) n.unsignedChars ||
    isOneOf [".nan", ".NaN", ".NAN"] n.chars) = false := by
  have hinf : ∀ c ∈ "0123456789".toList, ∀ word ∈ cases ".inf" ++ [".Inf"],
      word.toList.head? ≠ some c := Text.forall_mem_of_all (by decide +kernel)
  have hnan : ∀ c ∈ '-' :: "0123456789".toList, ∀ word ∈ [".nan", ".NaN", ".NAN"],
      word.toList.head? ≠ some c := Text.forall_mem_of_all (by decide +kernel)
  obtain ⟨d, digits, hunsigned, hd⟩ := n.unsignedChars_eq_cons
  obtain ⟨c, more, hchars, hc⟩ := n.chars_eq_cons
  rw [hunsigned, hchars, isOneOf_eq_false (hinf d (Json.isDigit_mem hd)),
    isOneOf_eq_false (hnan c hc)]
  rfl

theorem isExponent_chars {e : Exponent} (hsign : e.sign.isSome = true) :
    isExponent true e.chars = true := by
  obtain ⟨c, hc⟩ := Option.isSome_iff_exists.mp hsign
  have hletter : (e.letter == 'e' || e.letter == 'E') = true := by simpa using e.isLetter
  have hunsigned : unsigned (c :: e.digits) = e.digits := by
    rcases e.isSign c hc with rfl | rfl <;> rfl
  have hdigits : isNonempty Char.isDigit e.digits = true := by
    simpa [isNonempty, e.nonempty] using e.isDigit
  simp [Exponent.chars, isExponent, hc, hletter, hunsigned, hdigits]

/-- A shared number has the form of a floating-point number just if it has places. -/
theorem isFloat_chars (hn : n.IsShared) : isFloat .v11 n.chars = (n.places != []) := by
  obtain ⟨hwhole, hplaces⟩ := pointSplit_mantissa n
  simp only [isFloat, unsigned_chars, exponentSplit_unsignedChars, hwhole, hplaces, contains_point,
    not_special, Bool.false_or]
  cases hpoint : n.places != [] with
  | false => simp
  | true =>
    have hdigits := isDigits_of_all n.nonempty n.wholeDigit
    have hall : n.places.all isDigitOrLine = true := by
      rw [List.all_eq_true]
      intro c hc
      rw [isDigitOrLine, n.placesDigit c hc, Bool.true_or]
    have hfits : (n.exponentChars.isEmpty || isExponent true n.exponentChars) = true := by
      unfold Numeral.exponentChars
      cases he : n.exponent with
      | none => rfl
      | some e =>
        rw [Option.elim_some, isExponent_chars (hn.signed e he), Bool.or_true]
    rw [hdigits, hall, hfits]
    rfl

end Forms

section Values

variable (n : Numeral)

theorem unsignedChars_of_integer (hplaces : n.places = []) (hexponent : n.exponent = none) :
    n.unsignedChars = n.whole := by
  simp [Numeral.unsignedChars, Numeral.placesChars, Numeral.exponentChars, hplaces, hexponent]

/-- Digits without a leading zero count in base ten. -/
theorem whole_cases : n.whole = ['0'] ∨ ∃ d ds, n.whole = d :: ds ∧ d ≠ '0' := by
  obtain ⟨d, ds, hwhole⟩ := List.exists_cons_of_ne_nil n.nonempty
  by_cases hd : d = '0'
  · exact .inl (n.leadingZero (by rw [hwhole, hd]; rfl))
  · exact .inr ⟨d, ds, hwhole, hd⟩

theorem isInteger_chars (hplaces : n.places = []) (hexponent : n.exponent = none) :
    isInteger .v11 n.chars = true := by
  simp only [isInteger, unsigned_chars, unsignedChars_of_integer n hplaces hexponent]
  rcases whole_cases n with hzero | ⟨d, ds, hwhole, hd⟩
  · rw [hzero]
    rfl
  · have hdigits := isDigits_of_all n.nonempty n.wholeDigit
    rw [hwhole] at hdigits ⊢
    simp [hd, hdigits]

theorem filter_line : n.chars.filter (· != '_') = n.chars := by
  have hletters : ∀ c ∈ "0123456789-+.eE".toList, (c != '_') = true :=
    Text.forall_mem_of_all (by decide)
  exact List.filter_eq_self.mpr fun c hc => hletters c (n.mem_chars c hc)

theorem isHexDigit_of_isDigit {c : Char} (hc : c.isDigit = true) :
    (Number.isHexDigit c && decide (Number.digitValue c < 10)) = true := by
  have hdigits : ∀ c ∈ "0123456789".toList,
      (Number.isHexDigit c && decide (Number.digitValue c < 10)) = true :=
    Text.forall_mem_of_all (by decide)
  exact hdigits c (Json.isDigit_mem hc)

/-- The characters of numbers stay as they are where numbers are read. -/
theorem literal_eq_self {cs : List Char} (h : ∀ c ∈ cs, c ∈ "0123456789-+.eE".toList) :
    Number.literal cs = cs := by
  have hwhite : ∀ c ∈ "0123456789-+.eE".toList, Text.isWhite c = false :=
    Text.forall_mem_of_all (by decide)
  have hplain : ∀ c ∈ "0123456789-+.eE".toList, Number.plainDigit c = c :=
    Text.forall_mem_of_all (by decide)
  rw [Number.literal, Text.trimWhite_eq_self fun c hc => hwhite c (h c hc),
    List.map_congr_left fun c hc => hplain c (h c hc)]
  exact List.map_id cs

theorem integerIn_whole (hlength : n.whole.length ≤ maxDigits) :
    integerIn 10 n.whole = .ok (Number.natOfDigits 10 n.whole) := by
  have hliteral : Number.literal n.whole = n.whole := by
    have hdigits : ∀ c ∈ "0123456789".toList, c ∈ "0123456789-+.eE".toList :=
      Text.forall_mem_of_all (by decide)
    exact literal_eq_self fun c hc => hdigits c (Json.isDigit_mem (n.wholeDigit c hc))
  have hsigned : Number.signed n.whole = (false, n.whole) := by
    unfold Number.signed
    split
    · next hwhole => exact absurd (n.wholeDigit '-' (hwhole ▸ List.mem_cons_self)) (by decide)
    · next hwhole => exact absurd (n.wholeDigit '+' (hwhole ▸ List.mem_cons_self)) (by decide)
    · rfl
  have hprefix : Number.withoutPrefix 10 n.whole = n.whole := by
    unfold Number.withoutPrefix
    split
    · next hwhole => exact hwhole.symm
    · rfl
  have htaken : (n.whole ++ []).takeWhile (fun c =>
      Number.isHexDigit c && decide (Number.digitValue c < 10)) = n.whole :=
    Text.takeWhile_taken (fun c hc => isHexDigit_of_isDigit (n.wholeDigit c hc)) (by simp)
  rw [List.append_nil] at htaken
  have hempty : n.whole.isEmpty = false := by simpa using n.nonempty
  have hread : Number.integerOf 10 n.whole = .ok (Number.natOfDigits 10 n.whole) := by
    simp [Number.integerOf, hliteral, hsigned, hprefix, htaken, hempty, Nat.not_lt.mpr hlength]
  rw [integerIn, hread]
  rfl

theorem magnitudeOf_whole (hlength : n.whole.length ≤ maxDigits) :
    magnitudeOf .v11 n.whole = .ok (Number.natOfDigits 10 n.whole : Int) := by
  rcases whole_cases n with hzero | ⟨d, ds, hwhole, hd⟩
  · rw [hzero]
    rfl
  · have hcolon : n.whole.contains ':' = false := by
      simpa using fun h => absurd (n.wholeDigit ':' h) (by decide)
    have hdigits := integerIn_whole n hlength
    rw [hwhole] at hcolon hdigits ⊢
    unfold magnitudeOf
    split <;> simp_all

theorem integerValue_chars (hplaces : n.places = []) (hexponent : n.exponent = none)
    (hlength : n.whole.length ≤ maxDigits) : integerValue .v11 n.chars = .ok n.value := by
  rw [integerValue, filter_line]
  simp only [signOf_chars, unsignedChars_of_integer n hplaces hexponent,
    magnitudeOf_whole n hlength, Numeral.value, hplaces, hexponent]
  have hempty : n.whole.isEmpty = false := by simpa using n.nonempty
  rw [hempty]
  rfl

end Values

section Decimals

def lowerExponent (e : Exponent) : Exponent :=
  { e with letter := 'e', isLetter := .inl rfl }

/-- A number with the letter of its exponent in lower case. -/
def lowerNumeral (n : Numeral) : Numeral :=
  { n with exponent := n.exponent.map lowerExponent }

variable (n : Numeral)

theorem lower_eq_self {cs : List Char} (h : ∀ c ∈ cs, c ∈ "0123456789-+.".toList) :
    lower cs = cs := by
  have hletters : ∀ c ∈ "0123456789-+.".toList, c.toLower = c := Text.forall_mem_of_all (by decide)
  rw [lower, List.map_congr_left fun c hc => hletters c (h c hc)]
  exact List.map_id cs

theorem lower_exponent (e : Exponent) : lower e.chars = (lowerExponent e).chars := by
  have hdigits : ∀ c ∈ "0123456789".toList, c ∈ "0123456789-+.".toList :=
    Text.forall_mem_of_all (by decide)
  have hletter : e.letter.toLower = 'e' := by
    rcases e.isLetter with h | h <;> rw [h] <;> rfl
  have hrest : lower (e.sign.toList ++ e.digits) = e.sign.toList ++ e.digits := by
    refine lower_eq_self fun c hc => ?_
    rcases List.mem_append.mp hc with h | h
    · rcases e.isSign c (Option.mem_toList.mp h) with rfl | rfl <;> decide
    · exact hdigits c (Json.isDigit_mem (e.isDigit c h))
  rw [Exponent.chars, List.cons_append, lower, List.map_cons, hletter]
  exact congrArg ('e' :: ·) hrest

theorem lower_unsignedChars : lower n.unsignedChars = (lowerNumeral n).unsignedChars := by
  have hmantissa : ∀ c ∈ "0123456789.".toList, c ∈ "0123456789-+.".toList :=
    Text.forall_mem_of_all (by decide)
  have hexponent : lower n.exponentChars = (lowerNumeral n).exponentChars := by
    unfold Numeral.exponentChars lowerNumeral
    cases n.exponent with
    | none => rfl
    | some e => exact lower_exponent e
  have hsplit : lower n.unsignedChars =
      lower (n.whole ++ n.placesChars) ++ lower n.exponentChars := by
    simp [lower, Numeral.unsignedChars]
  rw [hsplit, hexponent, lower_eq_self fun c hc => hmantissa c (n.mem_mantissa c hc)]
  rfl

theorem lower_chars : lower n.chars = (lowerNumeral n).chars := by
  unfold Numeral.chars
  rw [show (lowerNumeral n).negative = n.negative from rfl, ← lower_unsignedChars]
  split <;> rfl

theorem exponentOf?_tail (e : Exponent) : Number.exponentOf? (e.chars.drop 1) = some e.value := by
  obtain ⟨letter, sign, digits, -, hsign, hnonempty, hdigits⟩ := e
  obtain ⟨d, ds, rfl⟩ := List.exists_cons_of_ne_nil hnonempty
  have hall : (d :: ds).all Char.isDigit = true := List.all_eq_true.mpr hdigits
  cases sign with
  | none =>
    have hdigit := hdigits d List.mem_cons_self
    have hminus := isDigit_ne hdigit (d := '-') (by decide)
    have hplus := isDigit_ne hdigit (d := '+') (by decide)
    simp [Number.exponentOf?, Exponent.chars, Exponent.value, hminus, hplus, hall]
  | some c =>
    rcases hsign c rfl with rfl | rfl <;>
      simp [Number.exponentOf?, Exponent.chars, Exponent.value, hall]

theorem decimalOf?_unsignedChars (negative : Bool) :
    Number.decimalOf? negative n.unsignedChars =
      some (Number.ofDecimal negative (Number.natOfDigits 10 (n.whole ++ n.places))
        (n.exponent.elim 0 Exponent.value - n.places.length)) := by
  obtain ⟨hmantissa, hexponent⟩ := Prod.mk.inj (exponentSplit_unsignedChars n)
  obtain ⟨hwhole, hplaces⟩ := pointSplit_mantissa n
  have hempty : (n.whole.isEmpty && n.places.isEmpty) = false := by simp [n.nonempty]
  have hdigits : (n.whole ++ n.places).all Char.isDigit = true := by
    rw [List.all_append, List.all_eq_true.mpr n.wholeDigit, List.all_eq_true.mpr n.placesDigit]
    rfl
  have hvalue : (if n.exponentChars.isEmpty then some 0
      else Number.exponentOf? (n.exponentChars.drop 1)) =
      some (n.exponent.elim 0 Exponent.value) := by
    unfold Numeral.exponentChars
    cases n.exponent with
    | none => rfl
    | some e => exact exponentOf?_tail e
  simp only [Number.decimalOf?, hmantissa, hexponent, hwhole, hplaces, hempty, hdigits, hvalue]
  rfl

theorem decimalValue_unsignedChars : decimalValue n.unsignedChars =
    .ok (Number.ofDecimal false (Number.natOfDigits 10 (n.whole ++ n.places))
      (n.exponent.elim 0 Exponent.value - n.places.length)) := by
  have hliteral : Number.literal n.unsignedChars = n.unsignedChars :=
    literal_eq_self n.mem_unsignedChars
  have hwords : ∀ c ∈ "0123456789".toList, (∀ word ∈ ["inf", "infinity"],
      word.toList.head? ≠ some c) ∧ c ≠ 'n' := Text.forall_mem_of_all (by decide)
  obtain ⟨d, digits, hunsigned, hd⟩ := n.unsignedChars_eq_cons
  have hword := hwords d (Json.isDigit_mem hd)
  have hinf : isOneOf ["inf", "infinity"] n.unsignedChars = false := by
    rw [hunsigned, isOneOf_eq_false hword.1]
  have hnan : (n.unsignedChars == "nan".toList) = false := by
    rw [hunsigned]
    simp [hword.2]
  simp only [decimalValue, hliteral, signOf_unsignedChars, hinf, hnan, decimalOf?_unsignedChars]
  rfl

theorem floatValue_of_lower {cs : List Char} (h : lower (cs.filter (· != '_')) = n.chars) :
    floatValue .v11 cs =
      .ok (.float (Number.ofDecimal n.negative (Number.natOfDigits 10 (n.whole ++ n.places))
        (n.exponent.elim 0 Exponent.value - n.places.length))) := by
  have hheads : ∀ c ∈ "0123456789".toList, c ≠ '.' := Text.forall_mem_of_all (by decide)
  have hletters : ∀ c ∈ "0123456789-+.eE".toList, c ≠ ':' := Text.forall_mem_of_all (by decide)
  have hcolon : n.unsignedChars.contains ':' = false := by
    simpa using fun h => absurd rfl (hletters ':' (n.mem_unsignedChars ':' h))
  obtain ⟨c, more, hchars, -⟩ := n.chars_eq_cons
  have hempty : n.chars.isEmpty = false := by rw [hchars]; rfl
  obtain ⟨d, digits, hunsigned, hd⟩ := n.unsignedChars_eq_cons
  have hpoint := hheads d (Json.isDigit_mem hd)
  have hinf : (n.unsignedChars == ".inf".toList) = false := by
    rw [hunsigned]
    simp [hpoint]
  have hnan : (n.unsignedChars == ".nan".toList) = false := by
    rw [hunsigned]
    simp [hpoint]
  rw [floatValue, h]
  simp only [signOf_chars, hempty, hinf, hnan, hcolon, decimalValue_unsignedChars]
  cases n.negative <;> rfl

theorem floatValue_chars (hplaces : n.places ≠ []) : floatValue .v11 n.chars = .ok n.value := by
  have hlower : lower (n.chars.filter (· != '_')) = (lowerNumeral n).chars := by
    rw [filter_line, lower_chars]
  have hexponent : (lowerNumeral n).exponent.elim 0 Exponent.value =
      n.exponent.elim 0 Exponent.value := by
    unfold lowerNumeral
    cases n.exponent <;> rfl
  rw [floatValue_of_lower (lowerNumeral n) hlower, hexponent, Numeral.value,
    if_neg fun h => hplaces h.1]
  rfl

end Decimals

end GraphImport.Yaml
