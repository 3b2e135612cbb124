import GraphImport.CommandLine.Command
import GraphImport.Proofs.Except

/-!
# Reading switches

Reading a switch leaves a part of the arguments after it, so there is always fuel for the rest.
Switches that are read in the same way whatever follows are read one after the other.
-/

namespace GraphImport.CommandLine

/-- Options that come before those that are read later. -/
def Parsed.behind {α : Type} (options : List (α × Option String)) (later : Parsed α) : Parsed α :=
  { later with options := options ++ later.options }

namespace Switch

variable {α : Type} {switches : List (Switch α)} {mayFollow : Bool}

section Reading

variable {rest left : List String}

theorem value_alone {name : String} {attached v : Option String}
    (h : value name attached rest = .ok (v, left)) :
    ∃ values, rest = values ++ left ∧
      ∀ more, value name attached (values ++ more) = .ok (v, more) := by
  cases attached with
  | some text =>
    cases h
    exact ⟨[], rfl, fun _ => rfl⟩
  | none =>
    cases rest with
    | nil => cases h
    | cons text rest =>
      cases h
      exact ⟨[text], rfl, fun _ => rfl⟩

theorem letters_alone {cs : List Char} {options : List (α × Option String)}
    (h : letters switches rest cs = .ok (options, left)) :
    ∃ values, rest = values ++ left ∧
      ∀ more, letters switches (values ++ more) cs = .ok (options, more) := by
  induction cs generalizing options with
  | nil =>
    cases h
    exact ⟨[], rfl, fun _ => rfl⟩
  | cons c later ih =>
    rw [letters] at h
    cases hfind : switches.find? fun s => s.letter == some c with
    | none =>
      rw [hfind] at h
      cases h
    | some s =>
      rw [hfind] at h
      dsimp only at h
      cases htakes : s.takesValue with
      | true =>
        rw [htakes, if_pos rfl] at h
        obtain ⟨⟨v, left'⟩, hvalue, h⟩ := except_bind_eq_ok.mp h
        cases h
        obtain ⟨values, hrest, halone⟩ := value_alone hvalue
        refine ⟨values, hrest, fun more => ?_⟩
        rw [letters, hfind]
        dsimp only
        rw [htakes, if_pos rfl, halone]
        rfl
      | false =>
        rw [htakes, if_neg Bool.false_ne_true] at h
        obtain ⟨⟨more, left'⟩, hletters, h⟩ := except_bind_eq_ok.mp h
        cases h
        obtain ⟨values, hrest, halone⟩ := ih hletters
        refine ⟨values, hrest, fun more => ?_⟩
        rw [letters, hfind]
        dsimp only
        rw [htakes, if_neg Bool.false_ne_true, halone]
        rfl

/-- A switch is read together with its value, whatever follows them. -/
theorem read_alone {arg : String} {options : List (α × Option String)}
    (h : read switches arg rest = .ok (options, left)) :
    ∃ values, rest = values ++ left ∧
      ∀ more, read switches arg (values ++ more) = .ok (options, more) := by
  unfold read at h ⊢
  dsimp only at h ⊢
  split at h
  next s _ =>
    cases htakes : s.takesValue with
    | true =>
      rw [htakes, if_pos rfl] at h
      obtain ⟨⟨v, left'⟩, hvalue, h⟩ := except_bind_eq_ok.mp h
      cases h
      obtain ⟨values, hrest, halone⟩ := value_alone hvalue
      refine ⟨values, hrest, fun more => ?_⟩
      rw [if_pos rfl, halone]
      rfl
    | false =>
      rw [htakes, if_neg Bool.false_ne_true] at h
      split at h
      · cases h
      next hnone =>
        cases h
        exact ⟨[], rfl, fun more => by rw [if_neg Bool.false_ne_true, if_neg hnone]; rfl⟩
  next =>
    split at h
    · cases h
    next hlong =>
      obtain ⟨values, hrest, halone⟩ := letters_alone h
      exact ⟨values, hrest, fun more => by rw [if_neg hlong, halone]⟩

theorem read_length {arg : String} {options : List (α × Option String)}
    (h : read switches arg rest = .ok (options, left)) : left.length ≤ rest.length := by
  obtain ⟨values, rfl, _⟩ := read_alone h
  rw [List.length_append]
  exact Nat.le_add_left _ _

end Reading

/-- Any fuel beyond the number of arguments is as good as any other. -/
theorem parseFrom_fuel {fuel fuel' : Nat} {args : List String} (h : args.length < fuel)
    (h' : args.length < fuel') :
    parseFrom switches mayFollow fuel args = parseFrom switches mayFollow fuel' args := by
  induction fuel generalizing fuel' args with
  | zero => exact absurd h (Nat.not_lt_zero _)
  | succ fuel ih =>
    obtain ⟨fuel', rfl⟩ := Nat.exists_eq_add_one_of_ne_zero (Nat.ne_zero_of_lt h')
    cases args with
    | nil => rfl
    | cons arg rest =>
      rw [List.length_cons, Nat.succ_lt_succ_iff] at h h'
      have hrest : parseFrom switches mayFollow fuel rest =
          parseFrom switches mayFollow fuel' rest := ih h h'
      rw [parseFrom, parseFrom, hrest]
      cases hread : read switches arg rest with
      | error fault => rfl
      | ok result =>
        obtain ⟨options, left⟩ := result
        have hleft := read_length hread
        have hlater : parseFrom switches mayFollow fuel left =
            parseFrom switches mayFollow fuel' left :=
          ih (Nat.lt_of_le_of_lt hleft h) (Nat.lt_of_le_of_lt hleft h')
        change (if _ then _ else if _ then parseFrom switches mayFollow fuel left >>= _ else _) = _
        rw [hlater]
        rfl

/-- Whether an argument is read as a switch. -/
def IsDashed (arg : String) : Prop :=
  arg ≠ "--" ∧ ("-".isPrefixOf arg && arg != "-") = true

instance (arg : String) : Decidable (IsDashed arg) :=
  inferInstanceAs (Decidable (_ ∧ _))

/-- Options are read before all that follows them. -/
theorem parse_dashed {arg : String} (h : IsDashed arg) (rest : List String) :
    parse switches mayFollow (arg :: rest) = read switches arg rest >>= fun (options, left) =>
      Parsed.behind options <$> parse switches mayFollow left := by
  have hdashes : (arg == "--") = false := beq_false_of_ne h.1
  rw [parse, parseFrom, hdashes, if_neg Bool.false_ne_true, if_pos h.2, List.length_cons]
  cases hread : read switches arg rest with
  | error fault => rfl
  | ok result =>
    obtain ⟨options, left⟩ := result
    have hleft : left.length < rest.length + 1 := Nat.lt_succ_of_le (read_length hread)
    change (parseFrom switches mayFollow (rest.length + 1) left >>= _) = _
    rw [parseFrom_fuel hleft (Nat.lt_succ_self _)]
    rfl

/-- Whether arguments are read to an outcome whatever follows them: a switch with the value that it
takes, or one that cannot be used. -/
def StandsAlone (switches : List (Switch α)) (written : List String)
    (outcome : Except UsageFault (List (α × Option String))) : Prop :=
  ∃ arg values, written = arg :: values ∧ IsDashed arg ∧
    ∀ rest, read switches arg (values ++ rest) = (·, rest) <$> outcome

theorem StandsAlone.parse_append {written : List String}
    {outcome : Except UsageFault (List (α × Option String))}
    (h : StandsAlone switches written outcome) (rest : List String) :
    parse switches mayFollow (written ++ rest) = outcome >>= fun options =>
      Parsed.behind options <$> parse switches mayFollow rest := by
  obtain ⟨arg, values, rfl, hdashed, hread⟩ := h
  rw [List.cons_append, parse_dashed hdashed, hread]
  cases outcome <;> rfl

/-- Every option that is read stands alone with its value. -/
theorem standsAlone_of_read {arg : String} {rest left : List String}
    {options : List (α × Option String)} (hdashed : IsDashed arg)
    (h : read switches arg rest = .ok (options, left)) :
    ∃ values, rest = values ++ left ∧ StandsAlone switches (arg :: values) (.ok options) := by
  obtain ⟨values, hrest, halone⟩ := read_alone h
  exact ⟨values, hrest, arg, values, rfl, hdashed, halone⟩

/-- Two dashes end the switches, and so does an argument that is none. -/
theorem parse_undashed {arg : String} (h : ¬ IsDashed arg) (rest : List String) :
    parse switches false (arg :: rest) =
      .ok { arguments := if arg = "--" then rest else arg :: rest } := by
  rw [parse, parseFrom]
  by_cases hdashes : arg = "--"
  · rw [if_pos (beq_iff_eq.mpr hdashes), if_pos hdashes]
  · have hplain : ("-".isPrefixOf arg && arg != "-") ≠ true := fun hdash => h ⟨hdashes, hdash⟩
    rw [if_neg (mt beq_iff_eq.mp hdashes), if_neg hplain, if_neg Bool.false_ne_true,
      if_neg hdashes]

/-- Arguments that are read are options that stand alone, and then the other arguments, perhaps
behind two dashes. -/
theorem parse_splits {args : List String} {p : Parsed α}
    (h : parse switches false args = .ok p) :
    ∃ (blocks : List (List String)) (ending : List String), args = blocks.flatten ++ ending ∧
      (∀ written ∈ blocks, ∃ options, StandsAlone switches written (.ok options)) ∧
      (ending = p.arguments ∨ ending = "--" :: p.arguments) := by
  induction hlength : args.length using Nat.strongRecOn generalizing args p with
  | ind n ih =>
    cases args with
    | nil =>
      cases h
      exact ⟨[], [], rfl, List.forall_mem_nil _, .inl rfl⟩
    | cons arg rest =>
      by_cases hdashed : IsDashed arg
      · rw [parse_dashed hdashed] at h
        obtain ⟨⟨options, left⟩, hread, h⟩ := except_bind_eq_ok.mp h
        dsimp only at h
        cases hlater : parse switches false left with
        | error fault =>
          rw [hlater] at h
          cases h
        | ok later =>
          rw [hlater] at h
          cases h
          obtain ⟨values, rfl, halone⟩ := standsAlone_of_read hdashed hread
          have hshorter : left.length < n := by
            rw [← hlength, List.length_cons, List.length_append]
            omega
          obtain ⟨blocks, ending, rfl, hblocks, hending⟩ := ih _ hshorter hlater rfl
          refine ⟨(arg :: values) :: blocks, ending, ?_, ?_, hending⟩
          · rw [List.flatten_cons, List.append_assoc]
            rfl
          · exact List.forall_mem_cons.mpr ⟨⟨options, halone⟩, hblocks⟩
      · rw [parse_undashed hdashed] at h
        cases h
        refine ⟨[], arg :: rest, rfl, List.forall_mem_nil _, ?_⟩
        by_cases hdashes : arg = "--"
        · exact .inr (by rw [if_pos hdashes, hdashes])
        · exact .inl (if_neg hdashes).symm

end Switch

end GraphImport.CommandLine
