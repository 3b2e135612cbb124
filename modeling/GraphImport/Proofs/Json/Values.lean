import GraphImport.Proofs.Json.Reading

/-!
# Values that are printed

Texts, truth values and lists of texts are printed in printable ASCII characters, and in forms of
the grammar.
-/

namespace GraphImport.Json

open Document (Value)

/-- Whether the grammar has a form of a value that is what the printer writes. -/
def IsWritten (v : Value) : Prop :=
  ∃ w : Written, w.chars = chars v ∧ w.value = v

def noGap : Gap where
  chars := []
  blank := Text.forall_mem_of_all (by decide)

def blankGap : Gap where
  chars := [' ']
  blank := Text.forall_mem_of_all (by decide)

theorem exists_name (s : String) :
    ∃ name : List Piece, quotedChars name = stringText s ∧ stringOf name = s := by
  obtain ⟨name, hchars, hvalues⟩ := exists_pieces s.toList
  exact ⟨name, by rw [quotedChars, hchars]; rfl, by rw [stringOf, hvalues, String.ofList_toList]⟩

theorem isWritten_text (s : String) : IsWritten (.text s) := by
  obtain ⟨name, hchars, hvalue⟩ := exists_name s
  exact ⟨.string name, hchars, congrArg Value.text hvalue⟩

theorem isWritten_bool (b : Bool) : IsWritten (.bool b) :=
  ⟨.bool b, by cases b <;> rfl, rfl⟩

theorem exists_items (texts : List String) (s : String) : ∃ items : Items,
    items.chars = itemChars true ((s :: texts).map .text) ∧
      items.values = (s :: texts).map .text := by
  obtain ⟨item, hchars, hvalue⟩ := isWritten_text s
  induction texts generalizing s item with
  | nil =>
    refine ⟨.last item noGap, ?_, by rw [Items.values, hvalue]; rfl⟩
    simp [Items.chars, noGap, itemChars, hchars]
  | cons t texts ih =>
    obtain ⟨other, hother, hvalue'⟩ := isWritten_text t
    obtain ⟨rest, hrest, hvalues⟩ := ih t other hother hvalue'
    refine ⟨.more item noGap blankGap rest, ?_, by rw [Items.values, hvalue, hvalues]; rfl⟩
    simp [Items.chars, noGap, blankGap, itemChars, hchars, hrest]

/-- A list of texts is printed in a form of the grammar. -/
theorem isWritten_list (texts : List String) : IsWritten (.list (texts.map .text)) := by
  cases texts with
  | nil => exact ⟨.emptyList noGap, rfl, rfl⟩
  | cons s texts =>
    obtain ⟨items, hchars, hvalues⟩ := exists_items texts s
    refine ⟨.list noGap items, ?_, congrArg Value.list hvalues⟩
    rw [Written.chars, hchars]
    rfl

theorem chars_bool_plain (b : Bool) : ∀ c ∈ chars (.bool b), IsPlain c := by
  cases b with
  | true => exact Text.forall_mem_of_all (by decide)
  | false => exact Text.forall_mem_of_all (by decide)

theorem itemChars_plain (texts : List String) (first : Bool) :
    ∀ c ∈ itemChars first (texts.map .text), IsPlain c := by
  induction texts generalizing first with
  | nil => exact Text.forall_mem_of_all rfl
  | cons s texts ih =>
    rw [List.map_cons, itemChars, List.forall_mem_append, List.forall_mem_append]
    refine ⟨⟨?_, stringText_plain s⟩, ih false⟩
    cases first with
    | true => exact Text.forall_mem_of_all rfl
    | false => exact Text.forall_mem_of_all (by decide)

end GraphImport.Json
