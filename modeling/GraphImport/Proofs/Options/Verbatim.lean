import GraphImport.Proofs.Options.Layers

/-!
# Options from the environment alone

A variable gives an option the reading of its text in plain form. That is the text itself, as if it
had been an explicit argument, for all texts that begin with a word of their own; but a number, a
truth value, a quoted text or a list is rewritten.
-/

namespace GraphImport.Options

open Document (Value)
open Files (Tree)

section Spelling

/-- A name that is a prefix and a key in capitals, with the characters at hand. -/
theorem eq_append_capitals {cs start key : List Char} (h : cs = start ++ key.flatMap Text.capital) :
    String.ofList cs = String.ofList start ++ Text.capitals (String.ofList key) := by
  rw [h, String.ofList_append, Text.capitals, String.toList_ofList]

theorem capitals_eq_iff {key other : List Char} :
    Text.capitals (String.ofList key) = Text.capitals (String.ofList other) ↔
      key.flatMap Text.capital = other.flatMap Text.capital := by
  rw [Text.capitals, Text.capitals, String.toList_ofList, String.toList_ofList]
  exact String.ofList_inj

theorem capitals_capitals {key : List Char}
    (h : (key.flatMap Text.capital).flatMap Text.capital = key.flatMap Text.capital) :
    Text.capitals (Text.capitals (String.ofList key)) = Text.capitals (String.ofList key) := by
  simp only [Text.capitals, String.toList_ofList, h]

theorem keyOf_append (start key : String) : keyOf start (start ++ key) = key := by
  rw [keyOf, String.toList_append, ← String.length_toList, List.drop_left, String.ofList_toList]

theorem spelling_eq (name : OptionName) :
    name.spelling = variablePrefix ++ Text.capitals name.key := by
  cases name <;> exact eq_append_capitals (by decide)

theorem capitals_capitals_key (name : OptionName) :
    Text.capitals (Text.capitals name.key) = Text.capitals name.key := by
  cases name <;> exact capitals_capitals (by decide)

theorem capitals_key_inj {name other : OptionName} :
    Text.capitals name.key = Text.capitals other.key ↔ name = other := by
  cases name <;> cases other <;> exact capitals_eq_iff.trans (by decide)

theorem names_spelling (name other : OptionName) :
    names variablePrefix name.spelling other = decide (name = other) := by
  rw [names, spelling_eq, Text.isPrefixOf_append, keyOf_append, capitals_capitals_key,
    Bool.true_and, Bool.beq_eq_decide_eq, decide_eq_decide]
  exact capitals_key_inj

theorem common_names_spelling (name other : OptionName) :
    names commonPrefix name.spelling other = false := by
  have hstart : commonPrefix.isPrefixOf name.spelling = false := by
    cases name <;> decide +kernel
  rw [names, hstart, Bool.false_and]

end Spelling

theorem common_fromVariables?_single (name other : OptionName) (s : String) :
    fromVariables? commonPrefix [(name.spelling, s)] other = none := by
  rw [fromVariables?, textIn?, List.reverse_singleton, List.find?_cons, common_names_spelling]
  rfl

theorem fromVariables?_single (name other : OptionName) (s : String) :
    fromVariables? variablePrefix [(name.spelling, s)] other =
      if name = other then some (reading s).plain else none := by
  rw [fromVariables?, textIn?, List.reverse_singleton, List.find?_cons, names_spelling]
  by_cases h : name = other
  · simp [h]
  · simp [h]

theorem allPlain_nil : AllPlain [] :=
  fun _ _ => List.forall_mem_nil _

theorem allPlain_singleton {v : String × String} (h : Plain v.2) : AllPlain [v] :=
  fun _ _ => List.forall_mem_singleton.mpr fun _ => h

theorem text?_nil (name : String) : Layer.text? [] name = none :=
  rfl

theorem get_none (name : OptionName) : RunOptions.get {} name = none := by
  cases name <;> rfl

theorem assemble_variable (files : Tree) (name : OptionName) {s : String} (h : Plain s) :
    RunOptions.assemble files [(name.spelling, s)] none {} =
      .ok (.only name (reading s).plain) := by
  have hsettings : settingsLayer files none = .ok [] := rfl
  have hplain : AllPlain [(name.spelling, s)] := allPlain_singleton h
  obtain ⟨o, ho, hget⟩ := assemble_eq {} hsettings hplain
  rw [ho]
  apply congrArg Except.ok
  apply RunOptions.ext_get
  intro other
  rw [hget, fromVariables?_single, common_fromVariables?_single, RunOptions.get_only, get_none,
    text?_nil, Option.none_or, Option.none_or, Option.or_none]

theorem assemble_explicit (files : Tree) (explicit : RunOptions) :
    RunOptions.assemble files [] none explicit = .ok explicit := by
  have hsettings : settingsLayer files none = .ok [] := rfl
  obtain ⟨o, ho, hget⟩ := assemble_eq explicit hsettings allPlain_nil
  rw [ho]
  apply congrArg Except.ok
  apply RunOptions.ext_get
  intro name
  rw [hget]
  exact Option.or_none

theorem only_injective {name : OptionName} {s t : String}
    (h : RunOptions.only name s = .only name t) : s = t := by
  have hget := congrArg (fun o => o.get name) h
  simpa [RunOptions.get_only] using hget

theorem reading_thousand : reading "1_000" = .int 1000 := by
  have hint : (match reading "1_000" with
      | .int n => n == 1000
      | _ => false) = true := by decide +kernel
  generalize reading "1_000" = v at hint
  cases v with
  | int n => rw [beq_iff_eq.mp hint]
  | _ => cases hint

theorem plain_thousand : Plain "1_000" where
  text := by decide
  reading := by
    rw [reading_thousand]
    exact .scalar nofun nofun nofun

end GraphImport.Options
