import GraphImport.Proofs.CommandLine.Verdict
import GraphImport.Proofs.Options.Layers

/-!
# The precedence of options

What an option of a run is depends on four things alone: its argument, the variables that name it,
the entries of the environment file that do, and the settings file. An entry is left out where a
variable of the same spelling is set. In another spelling it is added after the variables and
overrides them. Variables and entries for any program come after those of this program.
-/

namespace GraphImport.CommandLine

open EnvFile (Known Variables additions distinctNames resolved)
open Files (Path)
open Report (Format)
open Options (AllPlain Layer OptionName RunOptions commonPrefix fromVariables? names prefixes
  settingsLayer variablePrefix)

section EnvironmentFiles

/-- Entries are added where no variable of the same spelling is set. -/
theorem additions_eq_filter (env : Variables) (known : Known) :
    additions env known = (additions [] known).filter fun v => (env.lookup v.1).isNone := by
  unfold additions
  rw [List.filter_filterMap]
  apply congrArg (List.filterMap · (distinctNames known))
  funext name
  rw [List.lookup_nil, Option.isSome_none]
  cases (known.reverse.lookup name).join with
  | none => simp
  | some value =>
    cases hset : env.lookup name with
    | none => simp [Option.filter, hset]
    | some other => simp [Option.filter, hset]

theorem environment_of_apply {env after : Variables} {entries : List EnvFile.Entry}
    (h : EnvFile.apply env entries = .ok after) :
    after = env ++ additions env (resolved env entries) := by
  unfold EnvFile.apply at h
  dsimp only at h
  split at h
  · cases h
  · exact (Except.ok.inj h).symm

/-- The variables that the environment file of a run gives, with no other in force. -/
def fileVariables (w : Surroundings) (setup : Setup) : Variables :=
  match setup.envFile with
  | none => []
  | some path =>
    if !setup.usesEnvFile || w.files.find? path == some .directory then []
    else match w.files.read path with
      | .error _ => []
      | .ok text => additions [] (resolved w.env (EnvFile.read text).entries)

/-- The environment that a run goes on with is its own, then what the file adds. -/
theorem prepare_environment {w : Surroundings} {s : Log.Session} {setup : Setup}
    {env : List (String × String)} {said : Report.Output}
    (h : prepare w s setup = .ok (env, said)) :
    env = w.env ++ (fileVariables w setup).filter fun v => (w.env.lookup v.1).isNone := by
  have hunchanged (hfile : fileVariables w setup = []) (henv : env = w.env) :
      env = w.env ++ (fileVariables w setup).filter fun v => (w.env.lookup v.1).isNone := by
    rw [hfile, henv]
    exact (List.append_nil _).symm
  unfold prepare at h
  split at h
  next hnone =>
    cases h
    exact hunchanged (by rw [fileVariables, hnone]) rfl
  next path hpath =>
    split at h
    next hunused =>
      cases h
      exact hunchanged (by rw [fileVariables, hpath]; simp [hunused]) rfl
    next hused =>
      split at h
      · cases h
      · cases h
      · unfold addEnvFile at h
        split at h
        next hdirectory =>
          cases h
          exact hunchanged (by rw [fileVariables, hpath]; simp [hdirectory]) rfl
        next hfile =>
          obtain ⟨text, htext, h⟩ := except_bind_eq_ok.mp h
          obtain ⟨env', happly, h⟩ := except_bind_eq_ok.mp h
          cases h
          have hentries : fileVariables w setup =
              additions [] (resolved w.env (EnvFile.read text).entries) := by
            rw [fileVariables, hpath]
            simp [hused, hfile, except_mapError_eq_ok.mp htext]
          rw [hentries, ← additions_eq_filter]
          exact environment_of_apply (except_mapError_eq_ok.mp happly)

theorem fileVariables_unused (w : Surroundings) {setup : Setup} (h : setup.usesEnvFile = false) :
    fileVariables w setup = [] := by
  unfold fileVariables
  cases setup.envFile with
  | none => rfl
  | some path => rw [h]; rfl

end EnvironmentFiles

theorem Asks.unique {w : Surroundings} {args : List String} {format : Format} {o p : RunOptions}
    (ho : Asks w args format o) (hp : Asks w args format p) : o = p := by
  obtain ⟨setup, rest, env, said, v, hrequest, hprepare, hread, -, hassemble⟩ := ho
  obtain ⟨setup', rest', env', said', v', hrequest', hprepare', hread', -, hassemble'⟩ := hp
  cases hrequest.symm.trans hrequest'
  cases hprepare.symm.trans hprepare'
  cases hread.symm.trans hread'
  exact Except.ok.inj (hassemble.symm.trans hassemble')

/-- A run that asks for a validation, with all that its options can come from. No variable has a
marker in its text. -/
structure Configuration where
  surroundings : Surroundings
  arguments : List String
  setup : Setup
  command : Validation
  environment : List (String × String)
  settings : Layer
  request : ∃ rest, Request.read arguments = .ok (.command setup rest) ∧
    Validation.read? rest = .ok (some command)
  prepared : ∃ said, prepare surroundings (sessionOf setup) setup = .ok (environment, said)
  settled : settingsLayer surroundings.files command.settings = .ok settings
  plain : AllPlain environment

namespace Configuration

variable (c d : Configuration) (start : String) (name : OptionName)

/-- The entries of the environment file. -/
def entries : Variables :=
  fileVariables c.surroundings c.setup

/-- The entries that are added to the environment. -/
def added : Variables :=
  c.entries.filter fun v => (c.surroundings.env.lookup v.1).isNone

def ofArgument : Option String :=
  c.command.explicit.get name

def ofVariable : Option String :=
  fromVariables? start c.surroundings.env name

def ofEntry : Option String :=
  fromVariables? start c.entries name

/-- What the environment says with the entries that were added, which are the latest variables. -/
def ofEnvironment : Option String :=
  (fromVariables? start c.added name).or (c.ofVariable start name)

def ofSettings : Option String :=
  c.settings.text? name.key

/-- An option by the order of its layers: an argument, else a variable, else an entry of the
environment file, else a variable or an entry for any program, else the settings file. -/
def inOrder : Option String :=
  (c.ofArgument name).or ((c.ofVariable variablePrefix name).or ((c.ofEntry variablePrefix name).or
    ((c.ofVariable commonPrefix name).or ((c.ofEntry commonPrefix name).or (c.ofSettings name)))))

/-- Where a variable names an option, the entries that name it after the same prefix are spelled as
one. -/
def SpelledAlike : Prop :=
  ∀ start ∈ prefixes, (∃ v ∈ c.surroundings.env, names start v.1 name = true) →
    ∀ entry ∈ c.entries, names start entry.1 name = true →
      (c.surroundings.env.lookup entry.1).isSome = true

instance : Decidable (c.SpelledAlike name) :=
  inferInstanceAs (Decidable (∀ start ∈ prefixes,
    (∃ v ∈ c.surroundings.env, names start v.1 name = true) →
      ∀ entry ∈ c.entries, names start entry.1 name = true →
        (c.surroundings.env.lookup entry.1).isSome = true))

/-- Two runs with the same layers for an option. -/
structure Agree : Prop where
  argument : c.ofArgument name = d.ofArgument name
  fromVariable : ∀ start ∈ prefixes, c.ofVariable start name = d.ofVariable start name
  entry : ∀ start ∈ prefixes, c.ofEntry start name = d.ofEntry start name
  settings : c.ofSettings name = d.ofSettings name

end Configuration

namespace Configuration

variable {c d : Configuration} {start : String} {name : OptionName}

theorem Agree.inOrder (h : Agree c d name) : c.inOrder name = d.inOrder name := by
  rw [Configuration.inOrder, Configuration.inOrder, h.argument, h.settings,
    h.fromVariable _ Options.variablePrefix_mem, h.entry _ Options.variablePrefix_mem,
    h.fromVariable _ Options.commonPrefix_mem, h.entry _ Options.commonPrefix_mem]

theorem exists_options (c : Configuration) :
    ∃ o, Asks c.surroundings c.arguments c.command.format o ∧ ∀ name,
      o.get name = (c.ofArgument name).or ((c.ofEnvironment variablePrefix name).or
        ((c.ofEnvironment commonPrefix name).or (c.ofSettings name))) := by
  obtain ⟨rest, hrequest, hcommand⟩ := c.request
  obtain ⟨said, hprepare⟩ := c.prepared
  obtain ⟨o, hassemble, hget⟩ := Options.assemble_eq c.command.explicit c.settled c.plain
  refine ⟨o, ⟨_, _, _, _, _, hrequest, hprepare, hcommand, rfl, hassemble⟩, ?_⟩
  intro name
  have henvironment : c.environment = c.surroundings.env ++ c.added := prepare_environment hprepare
  rw [hget, henvironment, Options.fromVariables?_append, Options.fromVariables?_append]
  rfl

theorem fromVariables?_eq_none {env : Variables} (h : ∀ v ∈ env, ¬ names start v.1 name = true) :
    fromVariables? start env name = none := by
  rw [fromVariables?, Options.textIn?_eq_none.mpr fun v hv => Bool.not_eq_true _ ▸ h v hv]
  rfl

theorem ofVariable_isSome (h : ∃ v ∈ c.surroundings.env, names start v.1 name = true) :
    ∃ text, c.ofVariable start name = some text := by
  rw [← Option.ne_none_iff_exists']
  intro hnone
  obtain ⟨v, hv, hnames⟩ := h
  rw [ofVariable, fromVariables?, Option.map_eq_none_iff, Options.textIn?_eq_none] at hnone
  exact Bool.noConfusion ((hnone v hv).symm.trans hnames)

/-- Entries spelled alike never override a variable. -/
theorem SpelledAlike.ofEnvironment (h : c.SpelledAlike name) (hstart : start ∈ prefixes) :
    c.ofEnvironment start name = (c.ofVariable start name).or (c.ofEntry start name) := by
  unfold Configuration.ofEnvironment
  by_cases hset : ∃ v ∈ c.surroundings.env, names start v.1 name = true
  · have hadded : fromVariables? start c.added name = none := by
      apply fromVariables?_eq_none
      intro entry hentry hnames
      obtain ⟨hmem, hunset⟩ := List.mem_filter.mp hentry
      have hsome := h start hstart hset entry hmem hnames
      rw [Option.isNone_iff_eq_none.mp hunset] at hsome
      cases hsome
    obtain ⟨text, htext⟩ := ofVariable_isSome hset
    rw [hadded, htext, Option.none_or, Option.some_or]
  · have hvariable : c.ofVariable start name = none :=
      fromVariables?_eq_none fun v hv hnames => hset ⟨v, hv, hnames⟩
    have hadded : fromVariables? start c.added name = c.ofEntry start name := by
      rw [ofEntry, fromVariables?, fromVariables?, Configuration.added, Options.textIn?_filter]
      intro entry _ hnames
      rw [Option.isNone_iff_eq_none, List.lookup_eq_none_iff]
      intro v hv
      rw [bne_iff_ne]
      intro hspelling
      exact hset ⟨v, hv, hspelling ▸ hnames⟩
    rw [hadded, hvariable, Option.none_or, Option.or_none]

end Configuration

/-- An option comes from its argument, else from the last of the variables that name it, of which
those of the environment file are the later ones, else in the same way from those for any program,
else from the settings file. Where entries of the environment file are spelled as the variables
are, a variable that is set comes before them, and nothing but these layers matters. Without the
environment file its entries do not matter. -/
theorem option_precedence (c : Configuration) :
    ∃ o, Asks c.surroundings c.arguments c.command.format o ∧ ∀ name,
      o.get name = (c.ofArgument name).or
        (((fromVariables? variablePrefix c.added name).or (c.ofVariable variablePrefix name)).or
          (((fromVariables? commonPrefix c.added name).or (c.ofVariable commonPrefix name)).or
            (c.ofSettings name))) ∧
      (c.SpelledAlike name → o.get name = c.inOrder name ∧
        ∀ d p, Asks d.surroundings d.arguments d.command.format p → d.SpelledAlike name →
          c.Agree d name → p.get name = o.get name) ∧
      (c.setup.usesEnvFile = false →
        o.get name = (c.ofArgument name).or ((c.ofVariable variablePrefix name).or
          ((c.ofVariable commonPrefix name).or (c.ofSettings name)))) := by
  obtain ⟨o, ho, hget⟩ := c.exists_options
  have hinOrder (d : Configuration) (p : RunOptions) (name : OptionName)
      (hp : Asks d.surroundings d.arguments d.command.format p) (halike : d.SpelledAlike name) :
      p.get name = d.inOrder name := by
    obtain ⟨p', hp', hget'⟩ := d.exists_options
    rw [hp.unique hp', hget', halike.ofEnvironment Options.variablePrefix_mem,
      halike.ofEnvironment Options.commonPrefix_mem, Option.or_assoc, Option.or_assoc]
    rfl
  refine ⟨o, ho, fun name => ⟨hget name, fun halike => ?_, fun hunused => ?_⟩⟩
  · refine ⟨hinOrder c o name ho halike, fun d p hp halike' hagree => ?_⟩
    rw [hinOrder d p name hp halike', hinOrder c o name ho halike, hagree.inOrder]
  · have hadded : c.added = [] := by
      rw [Configuration.added, Configuration.entries, fileVariables_unused _ hunused]
      rfl
    rw [hget, Configuration.ofEnvironment, Configuration.ofEnvironment, hadded]
    rfl

/-- A directory with an environment file. -/
def withEnvFile (text : String) : Surroundings where
  files := { entries := [({ names := ["extra.env"] }, .file text.toUTF8.data.toList)] }
  env := [("GRAPHLOAD_JOB_SPEC_URI", "missing-a.yaml")]

def envFileArguments : List String :=
  ["--env-file", "extra.env", "validate", "--connection-uri", "neo4j://db:7687", "--format", "json"]

/-- The run in a directory with an environment file that adds some entries. -/
def envFileRun (text : String) (added : List (String × String))
    (hprepare : (prepare (withEnvFile text) (sessionOf { envFile := Path.ofText "extra.env" })
      { envFile := Path.ofText "extra.env" }).toOption.map Prod.fst =
        some ((withEnvFile text).env ++ added))
    (hplain : (((withEnvFile text).env ++ added).all fun v => Options.isWorded v.2) = true) :
    Configuration where
  surroundings := withEnvFile text
  arguments := envFileArguments
  setup := { envFile := Path.ofText "extra.env" }
  command := { explicit := { connectionUri := "neo4j://db:7687" }, format := .json }
  environment := (withEnvFile text).env ++ added
  settings := []
  request := ⟨envFileArguments.drop 3, except_toOption_eq_some.mp (by decide +kernel),
    except_toOption_eq_some.mp (by decide +kernel)⟩
  prepared := by
    obtain ⟨⟨env, said⟩, hok, rfl⟩ := Option.map_eq_some_iff.mp hprepare
    exact ⟨said, except_toOption_eq_some.mp hok⟩
  settled := rfl
  plain _ _ v hv _ := Options.plain_of_isWorded (List.all_eq_true.mp hplain v hv)

/-- An entry with the spelling of a variable, and one for another option. -/
def spelledAlike : Configuration :=
  envFileRun "GRAPHLOAD_JOB_SPEC_URI=missing-b.yaml\nGRAPHLOAD_CONNECTION_SECRET_ID=graph\n"
    [("GRAPHLOAD_CONNECTION_SECRET_ID", "graph")] (by decide +kernel) (by decide +kernel)

/-- One option from each of an argument, an entry and a variable. -/
def layeredOptions : RunOptions where
  connectionUri := "neo4j://db:7687"
  connectionSecretId := "graph"
  jobSpecUri := "missing-a.yaml"

theorem spelledAlike_precedence : (∀ name, spelledAlike.SpelledAlike name) ∧
    Asks spelledAlike.surroundings envFileArguments .json layeredOptions := by
  have halike : ∀ name, spelledAlike.SpelledAlike name := by
    intro name
    cases name <;> decide +kernel
  obtain ⟨o, ho, hget⟩ := option_precedence spelledAlike
  have hinOrder (name : OptionName) : o.get name = spelledAlike.inOrder name :=
    ((hget name).2.1 (halike name)).1
  have hoptions : o = layeredOptions := by
    apply RunOptions.ext_get
    intro name
    rw [hinOrder]
    cases name <;> decide +kernel
  exact ⟨halike, hoptions ▸ ho⟩

/-- An entry that spells the same option otherwise. -/
def spelledOtherwise : Configuration :=
  envFileRun "GRAPHLOAD_job_spec_uri=missing-b.yaml\n"
    [("GRAPHLOAD_job_spec_uri", "missing-b.yaml")] (by decide +kernel) (by decide +kernel)

theorem option_not_in_order : ¬ ∀ (c : Configuration) (o : RunOptions) (name : OptionName),
    Asks c.surroundings c.arguments c.command.format o →
      o.get name = (c.ofArgument name).or ((c.ofVariable variablePrefix name).or
        ((c.ofEntry variablePrefix name).or (c.ofSettings name))) := by
  intro h
  obtain ⟨o, ho, hget⟩ := spelledOtherwise.exists_options
  have horder := (hget .jobSpecUri).symm.trans (h spelledOtherwise o .jobSpecUri ho)
  exact absurd horder (by decide +kernel)

end GraphImport.CommandLine
