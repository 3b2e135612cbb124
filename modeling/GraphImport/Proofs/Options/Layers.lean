import GraphImport.Options.Layers
import GraphImport.Proofs.Options.Readings

/-!
# Which layer an option comes from

Each option is put together by itself: from its explicit argument, else from the last variable of
this program that names it, else from the last one for any program, else from the settings file. A
variable gives the reading of its text, which need not be the text.
-/

namespace GraphImport.Options

open Document (Value)
open Files (Path Tree)

inductive OptionName
  | connectionUri
  | connectionSecretId
  | jobSpecUri
deriving DecidableEq, Repr

/-- What settings call an option. -/
def OptionName.key : OptionName → String
  | .connectionUri => "connection_uri"
  | .connectionSecretId => "connection_secret_id"
  | .jobSpecUri => "job_spec_uri"

/-- How an option is spelled in the environment. -/
def OptionName.spelling : OptionName → String
  | .connectionUri => "GRAPHLOAD_CONNECTION_URI"
  | .connectionSecretId => "GRAPHLOAD_CONNECTION_SECRET_ID"
  | .jobSpecUri => "GRAPHLOAD_JOB_SPEC_URI"

namespace RunOptions

def get (o : RunOptions) : OptionName → Option String
  | .connectionUri => o.connectionUri
  | .connectionSecretId => o.connectionSecretId
  | .jobSpecUri => o.jobSpecUri

/-- One option alone. -/
def only (name : OptionName) (text : String) : RunOptions where
  connectionUri := if name = .connectionUri then some text else none
  connectionSecretId := if name = .connectionSecretId then some text else none
  jobSpecUri := if name = .jobSpecUri then some text else none

theorem ext_get {o p : RunOptions} (h : ∀ name, o.get name = p.get name) : o = p := by
  cases o
  cases p
  rw [mk.injEq]
  exact ⟨h .connectionUri, h .connectionSecretId, h .jobSpecUri⟩

theorem get_only (name other : OptionName) (text : String) :
    (only name text).get other = if name = other then some text else none := by
  cases other <;> rfl

theorem get_or (explicit fallback : RunOptions) (name : OptionName) :
    (explicit.or fallback).get name = (explicit.get name).or (fallback.get name) := by
  cases name <;> rfl

theorem get_options (layer : Layer) (name : OptionName) :
    layer.options.get name = layer.text? name.key := by
  cases name <;> rfl

end RunOptions

/-- What the variables begin with that can name options. -/
def prefixes : List String := [variablePrefix, commonPrefix]

theorem variablePrefix_mem : variablePrefix ∈ prefixes :=
  List.mem_cons_self

theorem commonPrefix_mem : commonPrefix ∈ prefixes :=
  List.mem_cons_of_mem _ List.mem_cons_self

/-- The part of a variable's name after a prefix. -/
def keyOf (start spelling : String) : String :=
  String.ofList (spelling.toList.drop start.length)

/-- Whether a variable names an option, in letters of any case after a prefix. -/
def names (start spelling : String) (name : OptionName) : Bool :=
  start.isPrefixOf spelling && Text.capitals (keyOf start spelling) == Text.capitals name.key

/-- The text of the last variable with a prefix that names an option. -/
def textIn? (start : String) (env : List (String × String)) (name : OptionName) : Option String :=
  (env.reverse.find? fun v => names start v.1 name).map (·.2)

/-- What the variables with a prefix say an option is. -/
def fromVariables? (start : String) (env : List (String × String)) (name : OptionName) :
    Option String :=
  (textIn? start env name).map fun text => (reading text).plain

section Variables

variable {start : String} {env : List (String × String)}

theorem textIn?_append (lower upper : List (String × String)) (name : OptionName) :
    textIn? start (lower ++ upper) name =
      (textIn? start upper name).or (textIn? start lower name) := by
  rw [textIn?, List.reverse_append, List.find?_append, Option.map_or]
  rfl

theorem fromVariables?_append (lower upper : List (String × String)) (name : OptionName) :
    fromVariables? start (lower ++ upper) name =
      (fromVariables? start upper name).or (fromVariables? start lower name) := by
  rw [fromVariables?, textIn?_append, Option.map_or]
  rfl

theorem textIn?_eq_none {name : OptionName} :
    textIn? start env name = none ↔ ∀ v ∈ env, names start v.1 name = false := by
  simp [textIn?]

theorem find?_filter_of_imp {α : Type} {p q : α → Bool} {items : List α}
    (h : ∀ a ∈ items, q a = true → p a = true) : (items.filter p).find? q = items.find? q := by
  induction items with
  | nil => rfl
  | cons a rest ih =>
    obtain ⟨ha, hrest⟩ := List.forall_mem_cons.mp h
    cases hp : p a with
    | true => rw [List.filter_cons_of_pos hp, List.find?_cons, List.find?_cons, ih hrest]
    | false =>
      have hq : ¬ q a = true := fun hq => Bool.noConfusion (hp.symm.trans (ha hq))
      rw [List.filter_cons_of_neg (Bool.not_eq_true _ ▸ hp), List.find?_cons_of_neg hq, ih hrest]

/-- Variables of other options do not matter. -/
theorem textIn?_filter {p : String × String → Bool} {name : OptionName}
    (h : ∀ v ∈ env, names start v.1 name = true → p v = true) :
    textIn? start (env.filter p) name = textIn? start env name := by
  rw [textIn?, textIn?, ← List.filter_reverse]
  rw [find?_filter_of_imp fun v hv => h v (List.mem_reverse.mp hv)]

end Variables

/-- The layer of a settings file, which is empty without one. -/
def settingsLayer (files : Tree) : Option Path → Except SettingsFault Layer
  | some path => readSettings files path
  | none => .ok []

/-- No variable that can name an option has markers in its text. -/
def AllPlain (env : List (String × String)) : Prop :=
  ∀ start ∈ prefixes, ∀ v ∈ env, start.isPrefixOf v.1 = true → Plain v.2

section Assembly

variable {start : String} {env : List (String × String)}

/-- What the variables with a prefix set, one after the other. -/
def readings (start : String) (env : List (String × String)) : Layer :=
  (env.filter fun v => start.isPrefixOf v.1).map fun v => (keyOf start v.1, reading v.2)

theorem readings_ne_null (start : String) (env : List (String × String)) :
    ∀ e ∈ readings start env, e.2 ≠ .null := by
  intro e he
  rw [readings] at he
  obtain ⟨v, -, rfl⟩ := List.mem_map.mp he
  dsimp only
  exact reading_ne_null v.2

theorem mapM_eq_ok {ε α β : Type} {f : α → Except ε β} {g : α → β} {items : List α}
    (h : ∀ a ∈ items, f a = .ok (g a)) : items.mapM f = .ok (items.map g) := by
  induction items with
  | nil => rfl
  | cons a rest ih =>
    obtain ⟨ha, hrest⟩ := List.forall_mem_cons.mp h
    rw [List.mapM_cons, ha, ih hrest]
    rfl

theorem ofPrefixed_eq (h : AllPlain env) (hstart : start ∈ prefixes) :
    ofPrefixed start env = .ok (readings start env) := by
  apply mapM_eq_ok
  rintro ⟨spelling, text⟩ hv
  obtain ⟨hmem, hown⟩ := List.mem_filter.mp hv
  dsimp only
  rw [(h start hstart _ hmem hown).ofEnvironment]
  rfl

theorem ofVariables_eq (h : AllPlain env) :
    ofVariables env = .ok (readings commonPrefix env ++ readings variablePrefix env) := by
  rw [ofVariables, ofPrefixed_eq h variablePrefix_mem, ofPrefixed_eq h commonPrefix_mem]
  rfl

theorem text?_of_find? {layer : Layer} {name known : String} {v : Value}
    (hfound : layer.reverse.find? (fun (known, _) => Text.capitals known == Text.capitals name) =
      some (known, v)) (hnull : v ≠ .null) : layer.text? name = some v.plain := by
  rw [Layer.text?, hfound]
  split
  next hnone => cases hnone
  next hsome =>
    cases hsome
    exact absurd rfl hnull
  next hsome =>
    cases hsome
    rfl

/-- A value that is set in the upper layer hides the lower one. -/
theorem text?_append (lower upper : Layer) (name : String) (h : ∀ e ∈ upper, e.2 ≠ .null) :
    Layer.text? (lower ++ upper) name = (upper.text? name).or (lower.text? name) := by
  cases hfound : upper.reverse.find?
      (fun (known, _) => Text.capitals known == Text.capitals name) with
  | none =>
    rw [Layer.text?, Layer.text?, List.reverse_append, List.find?_append, hfound]
    rfl
  | some e =>
    have hnull : e.2 ≠ .null := h _ (List.mem_reverse.mp (List.mem_of_find?_eq_some hfound))
    have hboth : (lower ++ upper).reverse.find?
        (fun (known, _) => Text.capitals known == Text.capitals name) = some (e.1, e.2) := by
      rw [List.reverse_append, List.find?_append, hfound, Option.some_or]
    rw [text?_of_find? hfound hnull, text?_of_find? hboth hnull, Option.some_or]

theorem text?_readings (name : OptionName) :
    Layer.text? (readings start env) name.key = fromVariables? start env name := by
  have htest : (fun v : String × String => decide (start.isPrefixOf v.1 = true ∧
      (Text.capitals (keyOf start v.1) == Text.capitals name.key) = true)) =
        fun v => names start v.1 name := by
    funext v
    rw [names, Bool.decide_and, Bool.decide_eq_true, Bool.decide_eq_true]
  have hfind : (readings start env).reverse.find?
        (fun (known, _) => Text.capitals known == Text.capitals name.key) =
      (env.reverse.find? fun v => names start v.1 name).map
        fun v => (keyOf start v.1, reading v.2) := by
    rw [readings, ← List.map_reverse, List.find?_map, ← List.filter_reverse, List.find?_filter,
      ← htest]
    rfl
  rw [fromVariables?, textIn?]
  cases hfound : env.reverse.find? fun v => names start v.1 name with
  | none =>
    rw [hfound] at hfind
    rw [Layer.text?, hfind]
    rfl
  | some v =>
    rw [hfound] at hfind
    rw [text?_of_find? hfind (reading_ne_null v.2), Option.map_some, Option.map_some]

/-- Options come from the arguments, else from the variables of this program, else from those for
any program, else from the settings file. -/
theorem assemble_eq {files : Tree} {settings : Option Path} {layer : Layer}
    (explicit : RunOptions) (hsettings : settingsLayer files settings = .ok layer)
    (hplain : AllPlain env) :
    ∃ o, RunOptions.assemble files env settings explicit = .ok o ∧
      ∀ name, o.get name = (explicit.get name).or ((fromVariables? variablePrefix env name).or
        ((fromVariables? commonPrefix env name).or (layer.text? name.key))) := by
  refine ⟨explicit.or (Layer.options
    (layer ++ (readings commonPrefix env ++ readings variablePrefix env))), ?_, ?_⟩
  · have hfile : RunOptions.assemble files env settings explicit = (do
        let file ← settingsLayer files settings
        let own ← ofVariables env
        return explicit.or (Layer.options (file ++ own))) := by
      cases settings <;> rfl
    rw [hfile, hsettings, ofVariables_eq hplain]
    rfl
  · intro name
    rw [RunOptions.get_or, RunOptions.get_options, ← List.append_assoc,
      text?_append _ _ name.key (readings_ne_null variablePrefix env),
      text?_append layer _ name.key (readings_ne_null commonPrefix env), text?_readings,
      text?_readings]

end Assembly

end GraphImport.Options
