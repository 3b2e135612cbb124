import GraphImport.Options.Literal
import GraphImport.Proofs.Toml.Refusals
import GraphImport.Proofs.Toml.Values

/-!
# What texts of the environment stand for

Without markers every text has a reading, which is never null. A text that begins with a word of
its own, as most addresses, paths and names do, is read as it stands.
-/

namespace GraphImport.Options

open Document (Value)
open Number (signed)

/-- What a text of the environment stands for when it has no markers. -/
def reading (s : String) : Value :=
  (tomlValue? (lowerFlag s)).getD ((looseNumber? (lowerFlag s).toList).getD (.text (lowerFlag s)))

/-- A value in which no text begins like a marker. -/
inductive Unmarked : Value → Prop
  | text {s : String} (h : isMarked s = false) : Unmarked (.text s)
  | list {items : List Value} (h : ∀ v ∈ items, Unmarked v) : Unmarked (.list items)
  | map {entries : List (Value × Value)} (h : ∀ e ∈ entries, Unmarked e.2) : Unmarked (.map entries)
  | scalar {v : Value} (htext : ∀ s, v ≠ .text s) (hlist : ∀ items, v ≠ .list items)
      (hmap : ∀ entries, v ≠ .map entries) : Unmarked v

/-- A text of the environment that neither is marked nor has a marked text in its reading. -/
structure Plain (s : String) : Prop where
  text : isMarked (lowerFlag s) = false
  reading : Unmarked (reading s)

section Conversion

theorem convertItems_of_forall {items : List Value} (h : ∀ v ∈ items, convert v = .ok v) :
    convertItems items = .ok items := by
  induction items with
  | nil => rfl
  | cons v rest ih =>
    obtain ⟨hv, hrest⟩ := List.forall_mem_cons.mp h
    rw [convertItems, hv, ih hrest]
    rfl

theorem convertEntries_of_forall {entries : List (Value × Value)}
    (h : ∀ e ∈ entries, convert e.2 = .ok e.2) : convertEntries entries = .ok entries := by
  induction entries with
  | nil => rfl
  | cons e rest ih =>
    obtain ⟨he, hrest⟩ := List.forall_mem_cons.mp h
    rw [convertEntries, he, ih hrest]
    rfl

/-- Where there is no marker there is nothing to convert. -/
theorem Unmarked.convert {v : Value} (h : Unmarked v) : convert v = .ok v := by
  induction h with
  | text h => simp [Options.convert, h]
  | list _ ih =>
    rw [Options.convert, convertItems_of_forall ih]
    rfl
  | map _ ih =>
    rw [Options.convert, convertEntries_of_forall ih]
    rfl
  | scalar htext hlist hmap =>
    unfold Options.convert
    split
    · exact absurd rfl (htext _)
    · exact absurd rfl (hlist _)
    · exact absurd rfl (hmap _)
    · rfl

theorem Plain.ofEnvironment {s : String} (h : Plain s) :
    ofEnvironment s = .ok (Options.reading s) := by
  have hmarked : ¬ isMarked (lowerFlag s) = true := by
    rw [h.text]
    exact Bool.false_ne_true
  unfold Options.ofEnvironment
  dsimp only
  rw [if_neg hmarked, pure_bind]
  change Options.convert (Options.reading s) = _
  rw [h.reading.convert]

end Conversion

section Presence

theorem tomlValue?_ne_null {s : String} {v : Value} (h : tomlValue? s = some v) : v ≠ .null := by
  unfold tomlValue? at h
  split at h
  next entries hread =>
    obtain ⟨entry, hfound, rfl⟩ := Option.map_eq_some_iff.mp h
    have hmem := List.mem_reverse.mp (List.mem_of_find?_eq_some hfound)
    exact Toml.read_ne_null hread entry hmem
  next => cases h

/-- The characters of a number in looser notation, without underscores if it has no sign. -/
def looseChars (cs : List Char) : List Char :=
  if (cs.headD ' ').isDigit then cs.filter (· != '_') else cs

/-- The value that a number in looser notation has after its sign. -/
def unsignedValue? (negative : Bool) (body : List Char) : Option Value :=
  if body.contains '.' || body.contains 'e' || body.contains 'E' then
    if (body.contains '.' && body.getLast? == some '.') || !(body.headD ' ').isDigit then none
    else (Number.decimalOf? negative (body.filter (· != '_'))).map .float
  else match special? ["inf", "nan"] negative body with
    | some x => some (.float x)
    | none =>
      if !body.all Char.isDigit then none
      else
        let n : Int := Number.natOfDigits 10 body
        some (.int (if negative then -n else n))

theorem looseNumber?_eq_some {cs : List Char} {v : Value} (h : looseNumber? cs = some v) :
    ∃ negative body, signed (Text.trim (looseChars cs)) = (negative, body) ∧
      unsignedValue? negative body = some v := by
  unfold looseNumber? at h
  by_cases huntidy : (cs.contains '\n' || !isTidy (Text.trim cs)) = true
  · rw [if_pos huntidy] at h
    cases h
  · rw [if_neg huntidy] at h
    obtain ⟨_, -, h⟩ := Option.bind_eq_some_iff.mp h
    cases hbody : signed (Text.trim (looseChars cs)) with
    | mk negative body =>
      refine ⟨negative, body, rfl, ?_⟩
      unfold looseChars at hbody
      rw [hbody] at h
      rw [← h, unsignedValue?]
      dsimp only
      split
      · split
        · rfl
        · cases Number.decimalOf? negative _ <;> rfl
      · cases special? ["inf", "nan"] negative body with
        | some x => rfl
        | none =>
          dsimp only
          split
          · rfl
          · rfl

theorem unsignedValue?_ne_null {negative : Bool} {body : List Char} {v : Value}
    (h : unsignedValue? negative body = some v) : v ≠ .null := by
  unfold unsignedValue? at h
  split at h
  · split at h
    · cases h
    · obtain ⟨x, -, rfl⟩ := Option.map_eq_some_iff.mp h
      exact nofun
  · split at h
    · cases h
      exact nofun
    · split at h
      · cases h
      · cases h
        exact nofun

theorem unsignedValue?_eq_none {negative : Bool} {x : Char} {rest : List Char}
    (hx : x.isDigit = false) (hword : wordOf (x :: rest) ∉ ["inf", "nan"]) :
    unsignedValue? negative (x :: rest) = none := by
  have hspecial : special? ["inf", "nan"] negative (x :: rest) = none := by
    have hcontains : ["inf", "nan"].contains (wordOf (x :: rest)) = false := by
      rwa [← Bool.not_eq_true, List.contains_iff_mem]
    rw [special?]
    simp only [hcontains, Bool.not_false, if_true]
  unfold unsignedValue?
  rw [hspecial]
  simp [hx]

theorem reading_ne_null (s : String) : reading s ≠ .null := by
  unfold reading
  cases htoml : tomlValue? (lowerFlag s) with
  | some v => exact tomlValue?_ne_null htoml
  | none =>
    cases hnumber : looseNumber? (lowerFlag s).toList with
    | some v =>
      obtain ⟨negative, body, -, hvalue⟩ := looseNumber?_eq_some hnumber
      exact unsignedValue?_ne_null hvalue
    | none => exact nofun

end Presence

/-- Whether a text begins with a word that is no value, in letters of any case. -/
def isWorded (s : String) : Bool :=
  s.toList.head?.any (fun c => Toml.startsWord c && c != '@') &&
    !Toml.valueWords.contains (wordOf (Toml.firstWord s.toList))

/-- The same for characters. -/
structure Worded (cs : List Char) : Prop where
  first : ∃ x rest, cs = x :: rest ∧ Toml.startsWord x = true ∧ x ≠ '@'
  word : ∀ word ∈ Toml.valueWords, (Toml.firstWord cs).map Char.toLower ≠ word.toList

theorem worded_of_isWorded {s : String} (h : isWorded s = true) : Worded s.toList := by
  obtain ⟨hfirst, hword⟩ := Bool.and_eq_true_iff.mp h
  constructor
  · cases hs : s.toList with
    | nil =>
      rw [hs] at hfirst
      cases hfirst
    | cons x rest =>
      rw [hs, List.head?_cons, Option.any_some, Bool.and_eq_true, bne_iff_ne] at hfirst
      exact ⟨x, rest, rfl, hfirst⟩
  · intro word hmem hlower
    have hwordOf : wordOf (Toml.firstWord s.toList) = word := by
      rw [wordOf, hlower, String.ofList_toList]
    rw [hwordOf, List.contains_iff_mem.mpr hmem] at hword
    cases hword

theorem valueWords_lower :
    ∀ word ∈ Toml.valueWords, word.toList.map Char.toLower = word.toList := by
  decide

theorem markers_head? : ∀ marker ∈ markers.map Prod.fst, marker.toList.head? = some '@' := by
  decide

namespace Worded

variable {s : String} {cs : List Char}

theorem isMarked_eq_false (h : Worded s.toList) : isMarked s = false := by
  obtain ⟨x, rest, hs, -, hat⟩ := h.first
  rw [isMarked, List.any_eq_false]
  intro marker hmarker hstart
  have hhead := markers_head? marker.1 (List.mem_map_of_mem hmarker)
  obtain ⟨tail, htail⟩ := List.isPrefixOf_iff_prefix.mp hstart
  have hx : (marker.1.toList ++ tail).head? = some x := by
    rw [htail, hs, List.head?_cons]
  rw [List.head?_append, hhead] at hx
  exact hat (Option.some.inj hx).symm

/-- Only spaces at the end are trimmed off. -/
theorem exists_trim (h : Worded cs) : ∃ x kept tail, Toml.startsWord x = true ∧
    Text.trim cs = x :: kept ∧ cs = Text.trim cs ++ tail ∧ ∀ c ∈ tail, Text.isSpace c = true := by
  obtain ⟨x, rest, rfl, hstarts, -⟩ := h.first
  have hspace := (Toml.begins_of_startsWord hstarts).space
  have htrim : Text.trim (x :: rest) = Text.trimEnd (x :: rest) := by
    rw [Text.trim, List.dropWhile_cons_of_neg (by rw [hspace]; exact Bool.false_ne_true)]
  obtain ⟨tail, htail, hcs⟩ := Text.exists_trimEnd (x :: rest)
  rw [← htrim] at hcs
  cases hkept : Text.trim (x :: rest) with
  | nil =>
    rw [hkept, List.nil_append] at hcs
    have hx := htail x (hcs ▸ List.mem_cons_self)
    rw [hspace] at hx
    cases hx
  | cons y kept =>
    rw [hkept] at hcs
    obtain rfl : x = y := (List.cons.inj hcs).1
    exact ⟨x, kept, tail, hstarts, rfl, hcs, htail⟩

/-- Trimmed, the text is none of the values either. -/
theorem trim_ne (h : Worded cs) : ∀ word ∈ Toml.valueWords,
    (Text.trim cs).map Char.toLower ≠ word.toList := by
  intro word hword hlower
  obtain ⟨x, kept, tail, -, -, hcs, htail⟩ := h.exists_trim
  have hends : ∀ c ∈ tail.head?, (!Toml.endsWord c) = false := by
    intro c hc
    rw [Toml.endsWord, htail c (List.mem_of_mem_head? hc)]
    rfl
  have hfirst : Toml.firstWord cs = Text.trim cs := by
    rw [hcs, Toml.firstWord, Text.takeWhile_append_stop _ hends, ← hcs]
    exact Toml.firstWord_of_lower hword hlower
  exact h.word word hword (hfirst ▸ hlower)

theorem lowerFlag_eq (h : Worded s.toList) : lowerFlag s = s := by
  have hne (flag word : String) (hword : word ∈ Toml.valueWords)
      (hlower : flag.toList.map Char.toLower = word.toList) :
      String.ofList (Text.trim s.toList) ≠ flag := by
    intro hflag
    apply h.trim_ne word hword
    rw [← hlower, ← hflag, String.toList_ofList]
  have hneither : (String.ofList (Text.trim s.toList) == "True" ||
      String.ofList (Text.trim s.toList) == "False") = false := by
    have htrue := hne "True" "true" (by decide) (by decide)
    have hfalse := hne "False" "false" (by decide) (by decide)
    simp [htrue, hfalse]
  unfold lowerFlag
  dsimp only
  rw [hneither]
  rfl

theorem tomlValue?_eq (h : Worded s.toList) : tomlValue? s = none := by
  obtain ⟨x, rest, hs, hstarts, -⟩ := h.first
  have htext : Toml.unifyBreaks ("key=" ++ s).toList =
      'k' :: 'e' :: 'y' :: '=' :: Toml.unifyBreaks s.toList := by
    rw [String.toList_append]
    rfl
  have hread (document : Value) : Toml.read (Toml.unifyBreaks ("key=" ++ s).toList) ≠
      .ok document := by
    rw [htext]
    apply Toml.read_of_word
    · rw [hs, Toml.unifyBreaks_of_startsWord hstarts]
      exact ⟨x, rfl, hstarts⟩
    · intro word hword hfirst
      rw [Toml.firstWord_unifyBreaks] at hfirst
      apply h.word word hword
      rw [hfirst, valueWords_lower word hword]
  unfold tomlValue?
  split
  next entries hok => exact absurd hok (hread _)
  next => rfl

theorem looseNumber?_eq (h : Worded cs) : looseNumber? cs = none := by
  cases hnumber : looseNumber? cs with
  | none => rfl
  | some v =>
    obtain ⟨negative, body, hbody, hvalue⟩ := looseNumber?_eq_some hnumber
    obtain ⟨x, kept, tail, hstarts, htrim, hcs, -⟩ := h.exists_trim
    have hbegins := Toml.begins_of_startsWord hstarts
    have hchars : looseChars cs = cs := by
      rw [looseChars, hcs, htrim, List.cons_append, List.headD_cons, hbegins.digit]
      rfl
    have hsigned : signed (x :: kept) = (false, x :: kept) := by
      unfold signed
      split
      · exact absurd (List.cons.inj ‹_›).1 (hbegins.mark '-' (by simp))
      · exact absurd (List.cons.inj ‹_›).1 (hbegins.mark '+' (by simp))
      · rfl
    rw [hchars, htrim, hsigned] at hbody
    obtain ⟨rfl, rfl⟩ := Prod.mk.inj hbody
    have hword : wordOf (x :: kept) ∉ ["inf", "nan"] := by
      intro hmem
      have hmem' : wordOf (x :: kept) ∈ Toml.valueWords := by
        simp only [Toml.valueWords, List.mem_cons] at hmem ⊢
        exact .inr (.inr hmem)
      apply h.trim_ne _ hmem'
      rw [htrim, wordOf, String.toList_ofList]
    rw [unsignedValue?_eq_none hbegins.digit hword] at hvalue
    cases hvalue

end Worded

/-- Most texts stand for themselves. -/
theorem reading_of_isWorded {s : String} (h : isWorded s = true) : reading s = .text s := by
  have hworded := worded_of_isWorded h
  rw [reading, hworded.lowerFlag_eq, hworded.tomlValue?_eq, hworded.looseNumber?_eq]
  rfl

theorem plain_of_isWorded {s : String} (h : isWorded s = true) : Plain s := by
  have hworded := worded_of_isWorded h
  constructor
  · rw [hworded.lowerFlag_eq]
    exact hworded.isMarked_eq_false
  · rw [reading_of_isWorded h]
    exact .text hworded.isMarked_eq_false

end GraphImport.Options
