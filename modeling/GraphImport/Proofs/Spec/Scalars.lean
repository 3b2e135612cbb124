import GraphImport.Proofs.Spec.Reading
import GraphImport.Proofs.Text.Spans

/-!
# Scalars of a job spec

What a JSON value must be to pass for a text, a word, a flag or an integer. Texts and words are
taken as they stand. Flags are also taken from the numbers 0 and 1 and from some words, integers
also from numbers without a fraction and from texts that write one.
-/

namespace GraphImport.Spec

open Document (Value)

/-- A value that JSON can express: all texts in it are sequences of characters, and keys are
texts. -/
inductive IsJson : Value → Prop
  | null : IsJson .null
  | bool (b : Bool) : IsJson (.bool b)
  | int (n : Int) : IsJson (.int n)
  | float (x : Float) : IsJson (.float x)
  | text (s : String) : IsJson (.text s)
  | list {items : List Value} (h : ∀ v ∈ items, IsJson v) : IsJson (.list items)
  | map {entries : List (Value × Value)} (hkeys : ∀ e ∈ entries, ∃ name, e.1 = .text name)
      (hvalues : ∀ e ∈ entries, IsJson e.2) : IsJson (.map entries)

@[simp]
theorem isJson_text (s : String) : IsJson (.text s) :=
  .text s

@[simp]
theorem isJson_int (n : Int) : IsJson (.int n) :=
  .int n

theorem isJson_list_iff {items : List Value} : IsJson (.list items) ↔ ∀ v ∈ items, IsJson v :=
  ⟨fun | .list h => h, .list⟩

theorem isJson_map_iff {entries : List (Value × Value)} : IsJson (.map entries) ↔
    ∀ e ∈ entries, (∃ name, e.1 = .text name) ∧ IsJson e.2 :=
  ⟨fun | .map hkeys hvalues => fun e he => ⟨hkeys e he, hvalues e he⟩,
    fun h => .map (fun e he => (h e he).1) fun e he => (h e he).2⟩

/-- A floating-point number that is finite and equal to an integer. -/
def Equals (x : Float) (n : Int) : Prop :=
  x.isNaN = false ∧ x.isInf = false ∧ Number.integer? x = some n

/-- The words of a vocabulary. -/
def wordsOf (α : Type) [Vocabulary α] : List String :=
  (Vocabulary.members : List α).map word

/-- The words for a flag, in small letters. -/
def flagWords : List String :=
  ["0", "off", "f", "false", "n", "no", "1", "on", "t", "true", "y", "yes"]

inductive IsFlag : Value → Prop
  | bool (b : Bool) : IsFlag (.bool b)
  | int {n : Int} (h : n = 0 ∨ n = 1) : IsFlag (.int n)
  | float {x : Float} {n : Int} (hx : Equals x n) (h : n = 0 ∨ n = 1) : IsFlag (.float x)
  | text {s : String} (h : s.map Char.toLower ∈ flagWords) : IsFlag (.text s)

/-- Digits with single underscores between them. -/
inductive Digits : List Char → Prop
  | one {c : Char} (h : c.isDigit = true) : Digits [c]
  | more {c : Char} {cs : List Char} (h : c.isDigit = true) (rest : Digits cs) : Digits (c :: cs)
  | apart {c : Char} {cs : List Char} (h : c.isDigit = true) (rest : Digits cs) :
      Digits (c :: '_' :: cs)

/-- The parts of an integer in writing: a sign, digits, and zeros after a point. -/
structure IsNumeral (sign digits places : List Char) : Prop where
  sign : sign = [] ∨ sign = ['+'] ∨ sign = ['-']
  digits : Digits digits
  places : places = [] ∨ ∃ zeros, places = '.' :: List.replicate (zeros + 1) '0'

/-- A text that writes an integer between white space, in not too many characters. -/
def WritesInteger (s : String) : Prop :=
  ∃ lead sign digits places trail, IsNumeral sign digits places ∧
    (sign ++ digits ++ places).length ≤ Reader.maxIntegerLength ∧
    (∀ c ∈ lead, Text.isWhite c = true) ∧ (∀ c ∈ trail, Text.isWhite c = true) ∧
    s.toList = lead ++ (sign ++ digits ++ places) ++ trail

/-- Numbers with a floating point count as integers within words of 64 bits. -/
inductive IsInteger : Value → Prop
  | bool (b : Bool) : IsInteger (.bool b)
  | int (n : Int) : IsInteger (.int n)
  | float {x : Float} {n : Int} (hx : Equals x n) (hlow : -Reader.wordBound < n)
      (hhigh : n < Reader.wordBound) : IsInteger (.float x)
  | text {s : String} (h : WritesInteger s) : IsInteger (.text s)

theorem Digits.mem {cs : List Char} (h : Digits cs) : ∀ c ∈ cs, c.isDigit = true ∨ c = '_' := by
  induction h with
  | one hc => simp [hc]
  | more hc _ ih => simpa [hc] using ih
  | apart hc _ ih => simpa [hc] using ih

theorem Digits.head {cs : List Char} (h : Digits cs) :
    ∃ c rest, cs = c :: rest ∧ c.isDigit = true := by
  cases h with
  | one hc => exact ⟨_, _, rfl, hc⟩
  | more hc _ => exact ⟨_, _, rfl, hc⟩
  | apart hc _ => exact ⟨_, _, rfl, hc⟩

theorem Digits.last {cs : List Char} (h : Digits cs) :
    ∃ init c, cs = init ++ [c] ∧ c.isDigit = true := by
  induction h with
  | one hc => exact ⟨[], _, rfl, hc⟩
  | @more a _ _ _ ih =>
    obtain ⟨init, c, rfl, hc⟩ := ih
    exact ⟨a :: init, c, rfl, hc⟩
  | @apart a _ _ _ ih =>
    obtain ⟨init, c, rfl, hc⟩ := ih
    exact ⟨a :: '_' :: init, c, rfl, hc⟩

theorem isWhite_of_isDigit {c : Char} (h : c.isDigit = true) : Text.isWhite c = false := by
  simp only [Char.isDigit, Bool.and_eq_true, decide_eq_true_eq, UInt32.le_iff_toNat_le] at h
  have hlow : 48 ≤ c.toNat := h.1
  have hhigh : c.toNat ≤ 57 := h.2
  cases hwhite : Text.isWhite c with
  | false => rfl
  | true =>
    simp only [Text.isWhite, Text.isSpace, Bool.and_eq_true, Bool.or_eq_true, decide_eq_true_eq,
      beq_iff_eq] at hwhite
    omega

theorem IsNumeral.first {sign digits places : List Char} (h : IsNumeral sign digits places) :
    ∃ c rest, sign ++ digits ++ places = c :: rest ∧ Text.isWhite c = false := by
  obtain ⟨c, rest, rfl, hc⟩ := h.digits.head
  rcases h.sign with rfl | rfl | rfl
  · exact ⟨c, rest ++ places, rfl, isWhite_of_isDigit hc⟩
  · exact ⟨'+', c :: rest ++ places, rfl, by decide⟩
  · exact ⟨'-', c :: rest ++ places, rfl, by decide⟩

theorem IsNumeral.last {sign digits places : List Char} (h : IsNumeral sign digits places) :
    ∃ init c, sign ++ digits ++ places = init ++ [c] ∧ Text.isWhite c = false := by
  rcases h.places with rfl | ⟨zeros, rfl⟩
  · obtain ⟨init, c, rfl, hc⟩ := h.digits.last
    exact ⟨sign ++ init, c, by simp, isWhite_of_isDigit hc⟩
  · refine ⟨sign ++ digits ++ '.' :: List.replicate zeros '0', '0', ?_, by decide⟩
    rw [List.replicate_succ', List.append_assoc _ _ ['0'], List.cons_append]

/-- Text without a line break. -/
def OneLine (s : String) : Prop :=
  '\n' ∉ s.toList

instance (s : String) : Decidable (OneLine s) :=
  inferInstanceAs (Decidable (_ ∉ _))

/-- The characters of a fixed text are at hand without decoding it. -/
theorem OneLine.ofList {cs : List Char} (h : '\n' ∉ cs) : OneLine (String.ofList cs) := by
  rwa [OneLine, String.toList_ofList]

theorem OneLine.append {s t : String} (hs : OneLine s) (ht : OneLine t) : OneLine (s ++ t) := by
  rw [OneLine, String.toList_append, List.mem_append]
  exact not_or.mpr ⟨hs, ht⟩

theorem OneLine.intercalate {sep : String} {parts : List String} (hsep : OneLine sep)
    (hparts : ∀ s ∈ parts, OneLine s) : OneLine (sep.intercalate parts) := by
  have hne {s : String} (h : OneLine s) : ∀ c ∈ s.toList, c ≠ '\n' := fun c hc heq => h (heq ▸ hc)
  have hjoined := (Text.forall_mem_intercalate (hne hsep) parts).mpr fun s hs => hne (hparts s hs)
  exact fun hbreak => hjoined _ hbreak rfl

theorem oneLine_wordList {words : List String} (h : ∀ w ∈ words, OneLine w) :
    OneLine (wordList words) := by
  have hquoted : ∀ s ∈ words.map fun w => s!"'{w}'", OneLine s := by
    intro s hs
    obtain ⟨w, hw, rfl⟩ := List.mem_map.mp hs
    exact (OneLine.append (by decide) (h w hw)).append (by decide)
  dsimp only [wordList]
  split
  · decide
  next last hlast =>
    have hlast' : OneLine last := hquoted last (List.mem_of_getLast? hlast)
    split
    · exact hlast'
    · refine ((OneLine.intercalate (by decide) ?_).append (by decide)).append hlast'
      exact fun s hs => hquoted s (List.dropLast_subset _ hs)

/-- The texts of the schema that are quoted in what is said about a mismatch. -/
def Mismatch.quoted : Mismatch → List String
  | .notModel title => [title]
  | .notMember words => words
  | _ => []

theorem Mismatch.oneLine {cause : Mismatch} (h : ∀ s ∈ cause.quoted, OneLine s) :
    OneLine cause.message := by
  cases cause with
  | notModel title => exact OneLine.append (.ofList (by decide)) (h title List.mem_cons_self)
  | notMember words => exact OneLine.append (.ofList (by decide)) (oneLine_wordList h)
  | _ => exact .ofList (by decide)

namespace Reader

variable {α : Type}

/-- A reader refuses a value, with one line on what is wrong with it. -/
def Refuses (c : Checked α) : Prop :=
  ∃ cause, OneLine (Mismatch.message cause) ∧ c = .mismatch cause

/-- Most mismatches quote nothing. -/
theorem Refuses.of_eq {c : Checked α} {cause : Mismatch} (h : c = .mismatch cause)
    (hquoted : cause.quoted = []) : Refuses c :=
  ⟨cause, Mismatch.oneLine (hquoted ▸ List.forall_mem_nil _), h⟩

/-- A reader takes the JSON values with a property and refuses the others. -/
def Judges (reader : Reader α) (p : Value → Prop) : Prop :=
  ∀ v, IsJson v → (p v ∧ ∃ a, reader v = .ok a) ∨ (¬ p v ∧ Refuses (reader v))

theorem judges_text : Judges text (fun v => ∃ s, v = .text s) := by
  intro v hv
  cases hv with
  | text s => exact .inl ⟨⟨s, rfl⟩, s, rfl⟩
  | _ => exact .inr ⟨by simp, .of_eq rfl rfl⟩

theorem Judges.nullable {reader : Reader α} {p : Value → Prop} (h : Judges reader p) :
    Judges (nullable reader) (fun v => v = .null ∨ p v) := by
  intro v hv
  by_cases hnull : v = .null
  · subst hnull
    exact .inl ⟨.inl rfl, none, rfl⟩
  · have hread : Reader.nullable reader v = (reader v).map some := by
      unfold Reader.nullable
      split
      · exact absurd rfl hnull
      · rfl
    rw [hread]
    rcases h v hv with ⟨hp, a, ha⟩ | ⟨hp, cause, hline, hcause⟩
    · exact .inl ⟨.inr hp, some a, by rw [ha]; rfl⟩
    · refine .inr ⟨?_, cause, hline, by rw [hcause]; rfl⟩
      rintro (rfl | hv)
      · exact hnull rfl
      · exact hp hv

theorem ofWord?_isSome [Vocabulary α] {s : String} :
    (ofWord? s : Option α).isSome = true ↔ s ∈ wordsOf α := by
  rw [ofWord?, List.find?_isSome, wordsOf, List.mem_map]
  simp only [beq_iff_eq]

theorem judges_member [Vocabulary α] (hwords : ∀ w ∈ wordsOf α, OneLine w) :
    Judges (member : Reader α) (fun v => ∃ s ∈ wordsOf α, v = .text s) := by
  have hline : OneLine (Mismatch.notMember (wordsOf α)).message := Mismatch.oneLine hwords
  intro v hv
  cases hv with
  | text s =>
    cases hword : (ofWord? s : Option α) with
    | some a =>
      have hmem : s ∈ wordsOf α := ofWord?_isSome.mp (by rw [hword]; rfl)
      exact .inl ⟨⟨s, hmem, rfl⟩, a, member_of_ofWord? hword⟩
    | none =>
      refine .inr ⟨?_, .notMember (wordsOf α), hline, member_of_unknown hword⟩
      rintro ⟨_, hmem, hs⟩
      cases hs
      rw [← ofWord?_isSome, hword] at hmem
      exact Bool.noConfusion hmem
  | _ => exact .inr ⟨by simp, .notMember (wordsOf α), hline, rfl⟩

theorem Equals.unique {x : Float} {m n : Int} (hm : Equals x m) (hn : Equals x n) : m = n :=
  Option.some.inj (hm.2.2.symm.trans hn.2.2)

/-- A floating-point number is not finite, or has a fraction, or is an integer. -/
theorem float_cases (x : Float) :
    ((x.isNaN || x.isInf) = true ∧ ∀ n, ¬ Equals x n) ∨
    (¬ (x.isNaN || x.isInf) = true ∧ Number.integer? x = none ∧ ∀ n, ¬ Equals x n) ∨
    ∃ n, ¬ (x.isNaN || x.isInf) = true ∧ Number.integer? x = some n ∧ Equals x n := by
  by_cases hx : (x.isNaN || x.isInf) = true
  · refine .inl ⟨hx, ?_⟩
    rintro n ⟨hnan, hinf, -⟩
    rw [hnan, hinf] at hx
    exact Bool.noConfusion hx
  · have hfinite := Bool.or_eq_false_iff.mp (Bool.not_eq_true _ ▸ hx)
    cases hn : Number.integer? x with
    | none =>
      refine .inr (.inl ⟨hx, rfl, ?_⟩)
      rintro n ⟨-, -, h⟩
      cases hn.symm.trans h
    | some n => exact .inr (.inr ⟨n, hx, rfl, hfinite.1, hfinite.2, hn⟩)

section Flags

theorem flagOfInt_ok {n : Int} (h : n = 0 ∨ n = 1) : ∃ b, flagOfInt n = .ok b := by
  rcases h with rfl | rfl
  · exact ⟨false, rfl⟩
  · exact ⟨true, rfl⟩

theorem flagOfInt_refuses {n : Int} (h : ¬ (n = 0 ∨ n = 1)) : Refuses (flagOfInt n) := by
  rw [not_or] at h
  by_cases hword : isWord64 n = true
  · have hread : flagOfInt n = .mismatch .unclearFlag := by simp [flagOfInt, h, hword]
    exact .of_eq hread rfl
  · have hread : flagOfInt n = .mismatch .notFlag := by simp [flagOfInt, h, hword]
    exact .of_eq hread rfl

theorem flagOfWhole_ok {n : Int} (h : n = 0 ∨ n = 1) : ∃ b, flagOfWhole n = .ok b := by
  rcases h with rfl | rfl
  · exact ⟨false, rfl⟩
  · exact ⟨true, rfl⟩

theorem flagOfWhole_refuses {n : Int} (h : ¬ (n = 0 ∨ n = 1)) : Refuses (flagOfWhole n) := by
  unfold flagOfWhole
  split
  · exact .of_eq rfl rfl
  · exact flagOfInt_refuses h

theorem flag_finite {x : Float} (h : ¬ (x.isNaN || x.isInf) = true) :
    flag (.float x) = match Number.integer? x with
      | some n => flagOfWhole n
      | none => .mismatch .notFlag :=
  if_neg h

theorem flag_float_ok {x : Float} {n : Int} (h : Equals x n) (hbit : n = 0 ∨ n = 1) :
    ∃ b, flag (.float x) = .ok b := by
  have hfinite : ¬ (x.isNaN || x.isInf) = true := by
    rw [h.1, h.2.1]
    exact Bool.false_ne_true
  rw [flag_finite hfinite, h.2.2]
  exact flagOfWhole_ok hbit

theorem flag_float_refuses {x : Float} (h : ∀ n, Equals x n → ¬ (n = 0 ∨ n = 1)) :
    Refuses (flag (.float x)) := by
  rcases float_cases x with ⟨hx, -⟩ | ⟨hx, hnone, -⟩ | ⟨n, hx, hn, hequals⟩
  · exact .of_eq (if_pos hx) rfl
  · exact .of_eq (by rw [flag_finite hx, hnone]) rfl
  · rw [flag_finite hx, hn]
    exact flagOfWhole_refuses (h n hequals)

theorem flagOfText_ok {s : String} (h : s.map Char.toLower ∈ flagWords) :
    ∃ b, flagOfText s = .ok b := by
  by_cases hno : ["0", "off", "f", "false", "n", "no"].contains (s.map Char.toLower) = true
  · exact ⟨false, by simp only [flagOfText, hno, if_true]⟩
  · have hyes : ["1", "on", "t", "true", "y", "yes"].contains (s.map Char.toLower) = true := by
      simp only [flagWords, List.contains_iff_mem, List.mem_cons] at h hno ⊢
      grind
    exact ⟨true, by simp only [flagOfText, hno, hyes, if_true]; rfl⟩

theorem flagOfText_refuses {s : String} (h : s.map Char.toLower ∉ flagWords) :
    Refuses (flagOfText s) := by
  have hneither : ["0", "off", "f", "false", "n", "no"].contains (s.map Char.toLower) = false ∧
      ["1", "on", "t", "true", "y", "yes"].contains (s.map Char.toLower) = false := by
    simp only [flagWords, List.mem_cons] at h
    simp only [← Bool.not_eq_true, List.contains_iff_mem, List.mem_cons]
    grind
  have hread : flagOfText s = .mismatch .unclearFlag := by
    simp only [flagOfText, hneither]
    rfl
  exact .of_eq hread rfl

theorem judges_flag : Judges flag IsFlag := by
  intro v hv
  cases hv with
  | bool b => exact .inl ⟨.bool b, b, rfl⟩
  | int n =>
    by_cases h : n = 0 ∨ n = 1
    · exact .inl ⟨.int h, flagOfInt_ok h⟩
    · refine .inr ⟨?_, flagOfInt_refuses h⟩
      rintro ⟨⟩
      contradiction
  | float x =>
    by_cases h : ∃ n, Equals x n ∧ (n = 0 ∨ n = 1)
    · obtain ⟨n, hequals, hbit⟩ := h
      exact .inl ⟨.float hequals hbit, flag_float_ok hequals hbit⟩
    · refine .inr ⟨?_, flag_float_refuses fun n hequals hbit => h ⟨n, hequals, hbit⟩⟩
      rintro (_ | _ | ⟨hequals, hbit⟩)
      exact h ⟨_, hequals, hbit⟩
  | text s =>
    by_cases h : s.map Char.toLower ∈ flagWords
    · exact .inl ⟨.text h, flagOfText_ok h⟩
    · refine .inr ⟨?_, flagOfText_refuses h⟩
      rintro (_ | _ | _ | h')
      exact h h'
  | _ => exact .inr ⟨by rintro ⟨⟩, .of_eq rfl rfl⟩

end Flags

section Integers

theorem isDigit_ne {c d : Char} (h : c.isDigit = true) (hd : d.isDigit = false) : c ≠ d := by
  rintro rfl
  exact Bool.noConfusion (h.symm.trans hd)

theorem digitsOf?_isSome {cs : List Char} : (digitsOf? cs).isSome = true ↔ Digits cs := by
  fun_induction digitsOf? cs with
  | case1 => exact ⟨fun h => Bool.noConfusion h, nofun⟩
  | case2 c h => exact ⟨fun _ => .one h, fun _ => rfl⟩
  | case3 c h =>
    refine ⟨fun h' => Bool.noConfusion h', ?_⟩
    rintro (h' | ⟨h', -⟩)
    · exact absurd h' h
    · exact absurd h' h
  | case4 c rest h ih =>
    rw [Option.isSome_map, ih]
    refine ⟨.apart h, ?_⟩
    rintro (_ | ⟨-, hrest⟩ | ⟨-, hrest⟩)
    · rcases hrest with hrest | ⟨hrest, -⟩ | ⟨hrest, -⟩ <;> exact absurd hrest (by decide)
    · exact hrest
  | case5 c rest h =>
    refine ⟨fun h' => Bool.noConfusion h', ?_⟩
    rintro (_ | ⟨h', -⟩ | ⟨h', -⟩)
    · exact absurd h' h
    · exact absurd h' h
  | case6 c rest hone hapart h ih =>
    rw [Option.isSome_map, ih]
    refine ⟨.more h, ?_⟩
    rintro (_ | ⟨-, hrest⟩ | ⟨-, hrest⟩)
    · exact absurd rfl hone
    · exact hrest
    · exact absurd rfl (hapart _)
  | case7 c rest hone hapart h =>
    refine ⟨fun h' => Bool.noConfusion h', ?_⟩
    rintro (h' | ⟨h', -⟩ | ⟨h', -⟩)
    · exact absurd h' h
    · exact absurd h' h
    · exact absurd h' h

/-- The zeros after a point that may follow an integer. -/
theorem all_zeros_iff {places : List Char} (hhead : ∀ c ∈ places.head?, c = '.') :
    (places.isEmpty || (decide (places.length > 1) && places.tail.all (· == '0'))) = true ↔
      places = [] ∨ ∃ zeros, places = '.' :: List.replicate (zeros + 1) '0' := by
  cases places with
  | nil => simp
  | cons point zeros =>
    obtain rfl : point = '.' := hhead point rfl
    simp only [List.isEmpty_cons, Bool.false_or, List.length_cons, List.tail_cons, Bool.and_eq_true,
      decide_eq_true_eq, List.all_eq_true, beq_iff_eq, reduceCtorEq, List.cons.injEq, true_and,
      false_or]
    constructor
    · rintro ⟨hlength, hzeros⟩
      refine ⟨zeros.length - 1, List.eq_replicate_iff.mpr ⟨by omega, hzeros⟩⟩
    · rintro ⟨n, rfl⟩
      exact ⟨by simp, fun c hc => List.eq_of_mem_replicate hc⟩

/-- The integer that is read after a sign. -/
def unsignedInteger? (negative : Bool) (body : List Char) : Option Int :=
  if (body.dropWhile (· != '.')).isEmpty ||
      (decide ((body.dropWhile (· != '.')).length > 1) &&
        (body.dropWhile (· != '.')).tail.all (· == '0')) then
    (digitsOf? (body.takeWhile (· != '.'))).map fun digits =>
      if negative then -(naturalOf digits : Int) else naturalOf digits
  else none

theorem integerOfChars?_unsigned {cs : List Char} (hplus : ∀ rest, cs ≠ '+' :: rest)
    (hminus : ∀ rest, cs ≠ '-' :: rest) : integerOfChars? cs = unsignedInteger? false cs := by
  unfold integerOfChars?
  split
  next negative body hsign =>
    split at hsign
    · exact absurd rfl (hplus _)
    · exact absurd rfl (hminus _)
    · cases hsign
      rfl

/-- An integer is read exactly where digits come, and after them at most zeros. -/
theorem unsignedInteger?_isSome {negative : Bool} {body : List Char} :
    (unsignedInteger? negative body).isSome = true ↔
      ∃ digits places, IsNumeral [] digits places ∧ body = digits ++ places := by
  have hhead : ∀ c ∈ (body.dropWhile (· != '.')).head?, c = '.' := by
    intro c hc
    have hstop := List.head?_dropWhile_not (· != '.') body
    rw [Option.mem_def.mp hc] at hstop
    simpa using hstop
  unfold unsignedInteger?
  constructor
  · intro h
    split at h
    next hzeros =>
      rw [Option.isSome_map] at h
      exact ⟨_, _, ⟨.inl rfl, digitsOf?_isSome.mp h, (all_zeros_iff hhead).mp hzeros⟩,
        List.takeWhile_append_dropWhile.symm⟩
    next => exact Bool.noConfusion h
  · rintro ⟨digits, places, hnumeral, rfl⟩
    have hdigits : ∀ c ∈ digits, (c != '.') = true := by
      intro c hc
      rcases hnumeral.digits.mem c hc with h | rfl
      · simpa using isDigit_ne h (by decide)
      · decide
    have hplaces : ∀ c ∈ places.head?, (c != '.') = false := by
      rcases hnumeral.places with rfl | ⟨zeros, rfl⟩
      · simp
      · simp
    rw [Text.takeWhile_taken hdigits hplaces]
    rw [Text.dropWhile_taken hdigits hplaces] at hhead ⊢
    rw [if_pos ((all_zeros_iff hhead).mpr hnumeral.places), Option.isSome_map]
    exact digitsOf?_isSome.mpr hnumeral.digits

/-- A sign before digits is no part of them. -/
theorem signed_iff {sign : Char} {body : List Char} (hsign : [sign] = ['+'] ∨ [sign] = ['-']) :
    (∃ digits places, IsNumeral [] digits places ∧ body = digits ++ places) ↔
      ∃ mark digits places, IsNumeral mark digits places ∧
        sign :: body = mark ++ digits ++ places := by
  constructor
  · rintro ⟨digits, places, h, rfl⟩
    exact ⟨[sign], digits, places, ⟨.inr hsign, h.digits, h.places⟩, by simp⟩
  · rintro ⟨mark, digits, places, h, hbody⟩
    have hmark : mark ≠ [] := by
      rintro rfl
      obtain ⟨c, rest, rfl, hc⟩ := h.digits.head
      cases hbody
      rcases hsign with hsign | hsign
      · cases hsign
        exact absurd hc (by decide)
      · cases hsign
        exact absurd hc (by decide)
    refine ⟨digits, places, ⟨.inl rfl, h.digits, h.places⟩, ?_⟩
    rcases h.sign.resolve_left hmark with rfl | rfl
    · simpa using (List.cons.inj hbody).2
    · simpa using (List.cons.inj hbody).2

theorem integerOfChars?_isSome {cs : List Char} : (integerOfChars? cs).isSome = true ↔
    ∃ sign digits places, IsNumeral sign digits places ∧ cs = sign ++ digits ++ places := by
  by_cases hplus : ∃ rest, cs = '+' :: rest
  · obtain ⟨rest, rfl⟩ := hplus
    exact (@unsignedInteger?_isSome false rest).trans (signed_iff (.inl rfl))
  by_cases hminus : ∃ rest, cs = '-' :: rest
  · obtain ⟨rest, rfl⟩ := hminus
    exact (@unsignedInteger?_isSome true rest).trans (signed_iff (.inr rfl))
  rw [not_exists] at hplus hminus
  rw [integerOfChars?_unsigned hplus hminus, unsignedInteger?_isSome]
  constructor
  · rintro ⟨digits, places, h, rfl⟩
    exact ⟨[], digits, places, h, rfl⟩
  · rintro ⟨mark, digits, places, h, rfl⟩
    rcases h.sign with rfl | rfl | rfl
    · exact ⟨digits, places, h, rfl⟩
    · exact absurd rfl (hplus _)
    · exact absurd rfl (hminus _)

theorem writesInteger_iff {s : String} : WritesInteger s ↔
    (Text.trimWhite s.toList).length ≤ maxIntegerLength ∧ (integerOfChars? (Text.trimWhite s.toList)).isSome = true := by
  rw [integerOfChars?_isSome]
  constructor
  · rintro ⟨lead, sign, digits, places, trail, hnumeral, hshort, hlead, htrail, hs⟩
    have htrimmed : Text.trimWhite s.toList = sign ++ digits ++ places := by
      rw [hs]
      apply Text.trimWhite_eq hlead htrail
      · obtain ⟨c, rest, hcore, hc⟩ := hnumeral.first
        simpa [hcore] using hc
      · obtain ⟨init, c, hcore, hc⟩ := hnumeral.last
        simpa [hcore] using hc
    rw [htrimmed]
    exact ⟨hshort, sign, digits, places, hnumeral, rfl⟩
  · rintro ⟨hshort, sign, digits, places, hnumeral, hcore⟩
    obtain ⟨lead, trail, hlead, htrail, hs⟩ := Text.exists_trimWhite s.toList
    rw [hcore] at hshort hs
    exact ⟨lead, sign, digits, places, trail, hnumeral, hshort, hlead, htrail, hs⟩

theorem integerOfText_long {s : String} (h : maxIntegerLength < (Text.trimWhite s.toList).length) :
    integerOfText s = .mismatch .oversizedInteger :=
  if_pos h

theorem integerOfText_short {s : String} (h : ¬ maxIntegerLength < (Text.trimWhite s.toList).length) :
    integerOfText s = match integerOfChars? (Text.trimWhite s.toList) with
      | some n => .ok n
      | none => .mismatch .unclearInteger :=
  if_neg h

theorem judges_integerOfText (s : String) : (WritesInteger s ∧ ∃ n, integerOfText s = .ok n) ∨
    (¬ WritesInteger s ∧ Refuses (integerOfText s)) := by
  rw [writesInteger_iff, ← Nat.not_lt]
  by_cases hlong : maxIntegerLength < (Text.trimWhite s.toList).length
  · exact .inr ⟨fun h => h.1 hlong, .of_eq (integerOfText_long hlong) rfl⟩
  · rw [integerOfText_short hlong]
    cases integerOfChars? (Text.trimWhite s.toList) with
    | some n => exact .inl ⟨⟨hlong, rfl⟩, n, rfl⟩
    | none => exact .inr ⟨fun h => Bool.noConfusion h.2, .of_eq rfl rfl⟩

theorem integer_finite {x : Float} (h : ¬ (x.isNaN || x.isInf) = true) :
    integer (.float x) = match Number.integer? x with
      | some n => if -wordBound < n ∧ n < wordBound then .ok n else .mismatch .oversizedInteger
      | none => .mismatch .fractional := by
  rw [integer, if_neg h]
  cases Number.integer? x with
  | none => rfl
  | some n => simp only [Bool.and_eq_true, decide_eq_true_eq]

theorem judges_integer : Judges integer IsInteger := by
  intro v hv
  cases hv with
  | bool b => exact .inl ⟨.bool b, _, rfl⟩
  | int n => exact .inl ⟨.int n, n, rfl⟩
  | float x =>
    rcases float_cases x with ⟨hx, hno⟩ | ⟨hx, hnone, hno⟩ | ⟨n, hx, hn, hequals⟩
    · refine .inr ⟨?_, .of_eq (if_pos hx) rfl⟩
      rintro (_ | _ | ⟨h, -⟩)
      exact hno _ h
    · refine .inr ⟨?_, .of_eq (by rw [integer_finite hx, hnone]) rfl⟩
      rintro (_ | _ | ⟨h, -⟩)
      exact hno _ h
    · rw [integer_finite hx, hn]
      by_cases hword : -wordBound < n ∧ n < wordBound
      · exact .inl ⟨.float hequals hword.1 hword.2, n, if_pos hword⟩
      · refine .inr ⟨?_, .of_eq (if_neg hword) rfl⟩
        rintro (_ | _ | ⟨h, hlow, hhigh⟩)
        rw [Equals.unique h hequals] at hlow hhigh
        exact hword ⟨hlow, hhigh⟩
  | text s =>
    rcases judges_integerOfText s with ⟨hs, n, hn⟩ | ⟨hs, hrefuses⟩
    · exact .inl ⟨.text hs, n, hn⟩
    · refine .inr ⟨?_, hrefuses⟩
      rintro (_ | _ | _ | h)
      exact hs h
  | _ => exact .inr ⟨by rintro ⟨⟩, .of_eq rfl rfl⟩

end Integers
end Reader
end GraphImport.Spec
