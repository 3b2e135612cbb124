import GraphImport.Proofs.Except
import GraphImport.Proofs.Text.Spans
import GraphImport.Toml.Reader

/-!
# Texts that are no values

A value begins with a digit, a sign, a quote or a bracket, or it is one of a few words. Where a key
is followed by anything else, there is no TOML document.
-/

namespace GraphImport.Toml

open Document (Value)
open Text (Cursor isSpace)

/-- Whether a character can begin a word, and is neither blank nor begins any other value. -/
def startsWord (c : Char) : Bool :=
  !(c.isDigit || isSpace c || ['+', '-', '\x27', '\x22', '[', '\x7b'].contains c)

/-- Whether a word ends before a character. -/
def endsWord (c : Char) : Bool :=
  isSpace c || c == '#'

def firstWord (cs : List Char) : List Char :=
  cs.takeWhile fun c => !endsWord c

/-- The words that are values, without signs. -/
def valueWords : List String := ["true", "false", "inf", "nan"]

section Scalars

variable {c : Cursor} {x : Char} {rest : List Char}

theorem two?_eq_none (hrest : c.rest = x :: rest) (hx : x.isDigit = false) (low high : Nat) :
    two? low high c = none := by
  simp [two?, hrest, hx]

theorem clock?_eq_none (hrest : c.rest = x :: rest) (hx : x.isDigit = false) : clock? c = none := by
  rw [clock?, two?_eq_none hrest hx]
  rfl

theorem moment?_eq_none (hrest : c.rest = x :: rest) (hx : x.isDigit = false) :
    moment? c = none := by
  have hdate : date? c = none := by
    simp [date?, hrest, hx]
  rw [moment?, hdate]
  rfl

theorem based?_eq_none (hrest : c.rest = x :: rest) (hx : x.isDigit = false) : based? c = none := by
  have hzero : x ≠ '0' := by
    rintro rfl
    exact Bool.noConfusion hx
  rw [based?, hrest]
  dsimp only
  split
  · exact absurd (List.cons.inj ‹_›).1 hzero
  · exact absurd (List.cons.inj ‹_›).1 hzero
  · exact absurd (List.cons.inj ‹_›).1 hzero
  · rfl

theorem digitRun_eq_nil (hx : x.isDigit = false) : digitRun Char.isDigit (x :: rest) = [] := by
  unfold digitRun
  split
  · simp_all
  · simp_all
  · rfl

theorem decimal?_eq_none (hrest : c.rest = x :: rest) (hx : x.isDigit = false) (hplus : x ≠ '+')
    (hminus : x ≠ '-') : decimal? c = none := by
  have hzero : x ≠ '0' := by
    rintro rfl
    exact Bool.noConfusion hx
  simp [decimal?, hrest, hplus, hminus, hzero, digitRun_eq_nil hx]

theorem words_signed : ∀ entry ∈ words,
    entry.1 ∈ valueWords ∨ entry.1.toList.head? = some '+' ∨ entry.1.toList.head? = some '-' := by
  simp [words, valueWords]

/-- Of the words, those without a sign are all that can be read where a word starts. -/
theorem word?_eq_some (hrest : c.rest = x :: rest) (hplus : x ≠ '+') (hminus : x ≠ '-')
    {v : Value} {next : Cursor} (h : word? c = some (v, next)) :
    ∃ word ∈ valueWords, c.rest = word.toList ++ next.rest := by
  obtain ⟨⟨name, value⟩, hentry, h⟩ := List.exists_of_findSome?_eq_some h
  obtain ⟨d, hafter, h⟩ := Option.map_eq_some_iff.mp h
  obtain ⟨-, rfl⟩ := Prod.mk.inj h
  have hname := Text.rest_of_after? hafter
  have hhead : name.toList.head?.or d.rest.head? = some x := by
    rw [← List.head?_append, ← hname, hrest, List.head?_cons]
  rcases words_signed _ hentry with hword | hsign | hsign
  · exact ⟨name, hword, hname⟩
  · rw [hsign] at hhead
    exact absurd (Option.some.inj hhead).symm hplus
  · rw [hsign] at hhead
    exact absurd (Option.some.inj hhead).symm hminus

end Scalars

section Refusals

variable {x : Char} {rest : List Char}

/-- What a character that can begin a word is not. -/
structure Begins (x : Char) : Prop where
  digit : x.isDigit = false
  space : isSpace x = false
  mark : ∀ mark ∈ ['+', '-', '\x27', '\x22', '[', '\x7b'], x ≠ mark

theorem begins_of_startsWord (h : startsWord x = true) : Begins x := by
  simp only [startsWord, Bool.not_eq_true', Bool.or_eq_false_iff] at h
  refine ⟨h.1.1, h.1.2, ?_⟩
  rintro mark hmark rfl
  exact absurd (List.contains_iff_mem.mpr hmark) (by rw [h.2]; exact Bool.noConfusion)

/-- Where a word starts, a value can only be one of the words. -/
theorem value_of_word {fuel index : Nat} {v : Value} {next : Cursor} (hx : startsWord x = true)
    (h : value fuel ⟨x :: rest, index⟩ = .ok (v, next)) :
    ∃ word ∈ valueWords, x :: rest = word.toList ++ next.rest := by
  have hbegins := begins_of_startsWord hx
  have hplus := hbegins.mark '+' (by simp)
  have hminus := hbegins.mark '-' (by simp)
  have hbare : bareScalar ⟨x :: rest, index⟩ = .ok (v, next) := by
    cases fuel with
    | zero => cases h
    | succ fuel =>
      rw [value] at h
      split at h
      next hpeek => exact absurd (Option.some.inj hpeek) (hbegins.mark '[' (by simp))
      next hpeek => exact absurd (Option.some.inj hpeek) (hbegins.mark '\x7b' (by simp))
      next quote _ _ hpeek =>
        obtain rfl : x = quote := Option.some.inj hpeek
        have hquote : (x == '\x27' || x == '\x22') = false := by
          simp [hbegins.mark '\x27' (by simp), hbegins.mark '\x22' (by simp)]
        rwa [hquote] at h
      next hpeek => cases hpeek
  have hrest : Cursor.rest ⟨x :: rest, index⟩ = x :: rest := rfl
  rw [bareScalar, moment?_eq_none hrest hbegins.digit] at hbare
  simp only [clock?_eq_none hrest hbegins.digit, based?_eq_none hrest hbegins.digit,
    decimal?_eq_none hrest hbegins.digit hplus hminus, Option.map_none, List.findSome?_cons,
    List.findSome?_nil, id_eq] at hbare
  cases hword : word? ⟨x :: rest, index⟩ with
  | none =>
    rw [hword] at hbare
    cases hbare
  | some read =>
    rw [hword] at hbare
    cases hbare
    exact word?_eq_some hrest hplus hminus hword

theorem valueWords_taken : ∀ word ∈ valueWords, word.toList.all (fun c => !endsWord c) = true := by
  decide

theorem firstWord_append {word : String} (hword : word ∈ valueWords) {tail : List Char}
    (htail : ∀ c ∈ tail.head?, endsWord c = true) : firstWord (word.toList ++ tail) = word.toList :=
  Text.takeWhile_taken (List.all_eq_true.mp (valueWords_taken word hword)) fun c hc => by
    rw [htail c hc]
    rfl

theorem toLower_of_endsWord {c : Char} (h : endsWord c = true) : c.toLower = c := by
  rcases Bool.or_eq_true_iff.mp h with hspace | hsharp
  · exact Text.toLower_of_isSpace hspace
  · rw [beq_iff_eq.mp hsharp]
    decide

/-- A value in letters of any case is one word. -/
theorem firstWord_of_lower {word : String} (hword : word ∈ valueWords) {cs : List Char}
    (h : cs.map Char.toLower = word.toList) : firstWord cs = cs := by
  have htaken : ∀ c ∈ cs, (!endsWord c) = true := by
    intro c hc
    have hlower : c.toLower ∈ word.toList := h ▸ List.mem_map_of_mem hc
    have hgoes := List.all_eq_true.mp (valueWords_taken word hword) c.toLower hlower
    cases hends : endsWord c with
    | false => rfl
    | true =>
      rw [toLower_of_endsWord hends, hends] at hgoes
      exact hgoes
  have hself : firstWord (cs ++ []) = cs := Text.takeWhile_taken htaken nofun
  rwa [List.append_nil] at hself

/-- Both characters of a line break end a word. -/
theorem firstWord_unifyBreaks (cs : List Char) : firstWord (unifyBreaks cs) = firstWord cs := by
  fun_induction unifyBreaks cs with
  | case1 rest => rfl
  | case2 c rest _ ih =>
    rw [firstWord, firstWord, List.takeWhile_cons, List.takeWhile_cons]
    cases endsWord c with
    | false => exact congrArg (c :: ·) ih
    | true => rfl
  | case3 => rfl

theorem unifyBreaks_of_startsWord (hx : startsWord x = true) (rest : List Char) :
    unifyBreaks (x :: rest) = x :: unifyBreaks rest := by
  have hreturn : x ≠ '\r' := by
    rintro rfl
    exact absurd hx (by decide)
  rw [unifyBreaks]
  exact fun _ h _ => hreturn h

theorem skipWhile_of_not {p : Char → Bool} (hx : p x = false) (index : Nat) :
    Cursor.skipWhile ⟨x :: rest, index⟩ p = ⟨x :: rest, index⟩ := by
  simp [Cursor.skipWhile, Cursor.span, hx]

theorem isBlank_eq_false (hx : isSpace x = false) : isBlank x = false := by
  rw [← Bool.not_eq_true, isBlank, Bool.or_eq_true, beq_iff_eq, beq_iff_eq]
  rintro (rfl | rfl)
  · exact absurd hx (by decide)
  · exact absurd hx (by decide)

/-- The line does not end where a word goes on. -/
theorem lineEnd_of_not_endsWord (hx : endsWord x = false) {index : Nat} {c : Cursor}
    (hcomment : skipComment (Cursor.skipWhile ⟨x :: rest, index⟩ isBlank) = .ok c) :
    c.rest = x :: rest ∧ x ≠ '\n' := by
  obtain ⟨hspace, hsharp⟩ := Bool.or_eq_false_iff.mp hx
  rw [skipWhile_of_not (isBlank_eq_false hspace), skipComment] at hcomment
  split at hcomment
  next hcons =>
    rw [(List.cons.inj hcons).1] at hsharp
    exact absurd hsharp (by decide)
  next =>
    cases hcomment
    refine ⟨rfl, ?_⟩
    rintro rfl
    exact absurd hspace (by decide)

theorem assignment_of_word {p : Progress} {c : Cursor} (hx : startsWord x = true)
    (h : assignment {} ⟨'k' :: 'e' :: 'y' :: '=' :: x :: rest, 0⟩ = .ok (p, c)) :
    ∃ word ∈ valueWords, x :: rest = word.toList ++ c.rest := by
  obtain ⟨⟨names, start⟩, hkey, h⟩ := except_bind_eq_ok.mp h
  obtain ⟨⟨v, next⟩, hvalue, h⟩ := except_bind_eq_ok.mp h
  obtain ⟨_, -, h⟩ := except_bind_eq_ok.mp h
  cases h
  have hstart : keyAndSign ⟨'k' :: 'e' :: 'y' :: '=' :: x :: rest, 0⟩ =
      .ok (["key"], Cursor.skipWhile ⟨x :: rest, 4⟩ isBlank) := rfl
  rw [skipWhile_of_not (isBlank_eq_false (begins_of_startsWord hx).space)] at hstart
  cases hstart.symm.trans hkey
  exact value_of_word hx hvalue

/-- Where a key is followed by a word that is no value, there is no document. -/
theorem read_of_word {cs : List Char} (hfirst : ∃ x ∈ cs.head?, startsWord x = true)
    (hword : ∀ word ∈ valueWords, firstWord cs ≠ word.toList) (document : Value) :
    read ('k' :: 'e' :: 'y' :: '=' :: cs) ≠ .ok document := by
  obtain ⟨x, hx, hstarts⟩ := hfirst
  obtain ⟨rest, rfl⟩ := List.head?_eq_some_iff.mp hx
  intro hread
  cases hlines : linesFrom (('k' :: 'e' :: 'y' :: '=' :: x :: rest).length + 1) {}
      { rest := 'k' :: 'e' :: 'y' :: '=' :: x :: rest } with
  | error fault =>
    rw [read, hlines] at hread
    cases hread
  | ok p =>
    obtain ⟨⟨q, c⟩, hstatement, hlines⟩ := except_bind_eq_ok.mp hlines
    obtain ⟨d, hcomment, hend⟩ := except_bind_eq_ok.mp hlines
    obtain ⟨word, hmem, htext⟩ := assignment_of_word hstarts hstatement
    obtain ⟨y, tail, htail, hy⟩ : ∃ y tail, c.rest = y :: tail ∧ endsWord y = false := by
      cases hrest : c.rest with
      | nil =>
        rw [hrest] at htext
        exact absurd (htext ▸ firstWord_append hmem nofun) (hword word hmem)
      | cons y tail =>
        refine ⟨y, tail, rfl, ?_⟩
        rw [← Bool.not_eq_true]
        intro hy
        rw [hrest] at htext
        have htail : ∀ c ∈ (y :: tail).head?, endsWord c = true := by
          simpa using hy
        exact absurd (htext ▸ firstWord_append hmem htail) (hword word hmem)
    obtain ⟨cs, index⟩ := c
    obtain rfl : cs = y :: tail := htail
    obtain ⟨hrest, hbreak⟩ := lineEnd_of_not_endsWord hy hcomment
    rw [hrest] at hend
    split at hend
    next hnil => cases hnil
    next hcons => exact hbreak (List.cons.inj hcons).1
    next => cases hend

end Refusals

end GraphImport.Toml
