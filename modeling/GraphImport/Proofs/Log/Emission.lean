import Mathlib.Algebra.Group.Nat.Defs
import GraphImport.Proofs.Log.Calls
import GraphImport.Proofs.Log.Examination
import GraphImport.Proofs.Text.Spans

/-!
# Which records are written

Every successful configuration sets the level of the parsers' loggers to that of all others, or to
warning if that is more, and opens the session. A configuration that fails may change the style but
no level, and bound fields have nothing to do with levels. So in every session that has once been
configured the level of a call and the name of its logger decide whether its record is written, and
it is written once. The record has to be made first, and to have a text: a style does not show all
values. The loggers below a parser's are told by their names, unless two dots stand side by side in
them: then the search for the loggers above may pass over the parser's.
-/

namespace GraphImport.Log

open Document (Value)

/-- Sessions that come about after a configuration that succeeded. Calls leave a session as it
is. -/
inductive Reached : Session → Prop
  | configured {s : Session} {style : Style} {name : String}
      (h : (s.configure style name).2 = none) : Reached (s.configure style name).1
  | adjusted {s : Session} (h : Reached s) (change : Adjustment) : Reached (s.adjust change)

/-- What holds of the levels of a session once it has been configured. -/
structure Session.IsGoverned (s : Session) : Prop where
  isOpen : s.isOpen = true
  parserLevel : s.parserLevel = s.level.max .warning

section Names

/-- Whether a logger is one of the parsers' or descends from one. -/
def BelongsToParser (logger : String) : Prop :=
  ∃ parser ∈ parserLoggers, logger = parser ∨ ∃ rest, logger = parser ++ "." ++ rest

instance (logger : String) : Decidable (BelongsToParser logger) :=
  decidable_of_iff (∃ parser ∈ parserLoggers,
      logger = parser ∨ (parser ++ ".").isPrefixOf logger = true) (by
    simp only [Text.isPrefixOf_iff]
    rfl)

/-- Whether two dots stand side by side in the name of a logger. -/
def HasDoubleDot (logger : String) : Prop :=
  ['.', '.'] <:+: logger.toList

instance (logger : String) : Decidable (HasDoubleDot logger) :=
  inferInstanceAs (Decidable (_ <:+: _))

/-- Without two dots side by side a name, read backwards, is divided at each of its dots. -/
theorem mem_outerNames {name outer : List Char} (hdots : ¬ ['.', '.'] <:+: name) :
    outer ∈ outerNames name ↔ outer ≠ [] ∧ ∃ inner, name = inner ++ '.' :: outer := by
  induction name using outerNames.induct with
  | case1 c rest ih =>
    have hc : c ≠ '.' := by
      rintro rfl
      exact hdots ⟨[], rest, rfl⟩
    have hrest : ¬ ['.', '.'] <:+: rest := fun h => hdots (h.trans ⟨['.', c], [], by simp⟩)
    rw [outerNames, List.mem_cons, ih hrest]
    constructor
    · rintro (rfl | ⟨hne, inner, rfl⟩)
      · exact ⟨List.cons_ne_nil _ _, [], rfl⟩
      · exact ⟨hne, '.' :: c :: inner, rfl⟩
    · rintro ⟨hne, inner, hname⟩
      match inner, hname with
      | [], hname => exact .inl (List.cons.inj hname).2.symm
      | [_], hname => exact absurd (List.cons.inj (List.cons.inj hname).2).1 hc
      | _ :: _ :: inner, hname =>
        exact .inr ⟨hne, inner, (List.cons.inj (List.cons.inj hname).2).2⟩
  | case2 c rest hlast ih =>
    have hrest : ¬ ['.', '.'] <:+: rest := fun h => hdots (h.trans ⟨[c], [], by simp⟩)
    rw [outerNames, ih hrest]
    · constructor
      · rintro ⟨hne, inner, rfl⟩
        exact ⟨hne, c :: inner, rfl⟩
      · rintro ⟨hne, inner, hname⟩
        cases inner with
        | nil =>
          -- Only the last character can be a dot here, and then no name is left.
          obtain ⟨d, more, rfl⟩ := List.exists_cons_of_ne_nil hne
          obtain ⟨hc, hrest⟩ := List.cons.inj hname
          exact (hlast d more hc hrest).elim
        | cons d inner => exact ⟨hne, inner, (List.cons.inj hname).2⟩
    · exact hlast
  | case3 => simp [outerNames]

/-- The loggers below a parser's are those whose names go on after a dot. -/
theorem isParserLogger_iff {logger : String} (hdots : ¬ HasDoubleDot logger) :
    isParserLogger logger = true ↔ BelongsToParser logger := by
  have hreversed : ¬ ['.', '.'] <:+: logger.toList.reverse := by
    rwa [← List.reverse_infix, List.reverse_reverse]
  rw [isParserLogger, List.any_eq_true]
  simp only [Bool.or_eq_true, beq_iff_eq, List.contains_iff_mem, mem_outerNames hreversed]
  refine exists_congr fun parser => and_congr_right fun hparser => or_congr_right ?_
  have hfilled : parser.toList.reverse ≠ [] := by
    revert parser
    decide
  constructor
  · rintro ⟨_, inner, hname⟩
    refine ⟨String.ofList inner.reverse, String.toList_injective ?_⟩
    have hread := congrArg List.reverse hname
    rw [List.reverse_reverse] at hread
    rw [hread]
    simp
  · rintro ⟨rest, rfl⟩
    exact ⟨hfilled, rest.toList.reverse, by simp⟩

end Names

namespace Level

theorem max_number (a b : Level) : (a.max b).number = Nat.max a.number b.number := by
  rw [max]
  split
  next h => exact (Nat.max_eq_right (Nat.le_of_lt h)).symm
  next h => exact (Nat.max_eq_left (Nat.le_of_not_lt h)).symm

end Level

namespace Session

/-- The number of the least level at which a logger is written. -/
def leastNumber (s : Session) (logger : String) : Nat :=
  if BelongsToParser logger then Nat.max s.level.number Level.warning.number else s.level.number

/-- How often a session writes a record that a logger makes at a level. -/
def timesWritten (s : Session) (logger : String) (level : Level) : Nat :=
  if level ≠ .notSet ∧ s.leastNumber logger ≤ level.number then 1 else 0

section Configuring

variable (s : Session) (style : Style) (name : String)

theorem configure_of_level {level : Level} (h : Level.ofName? name = some level) :
    s.configure style name =
      ({ s with level, parserLevel := level.max .warning, style, isOpen := true }, none) := by
  rw [configure, h]

/-- A configuration that succeeds names a level. -/
theorem exists_level_of_configure (h : (s.configure style name).2 = none) :
    ∃ level, Level.ofName? name = some level := by
  cases hname : Level.ofName? name with
  | some level => exact ⟨level, rfl⟩
  | none =>
    rw [configure, hname] at h
    dsimp only at h
    cases hlayout : layoutFault? (Text.capitals name) <;> rw [hlayout] at h <;> cases h

/-- A configuration that fails leaves all levels as they are, and an open session open. -/
theorem configure_of_fault (h : (s.configure style name).2 ≠ none) :
    (s.configure style name).1.level = s.level ∧
      (s.configure style name).1.parserLevel = s.parserLevel ∧
      (s.isOpen = true → (s.configure style name).1.isOpen = true) := by
  cases hname : Level.ofName? name with
  | some level =>
    rw [s.configure_of_level style name hname] at h
    exact absurd rfl h
  | none =>
    rw [configure, hname]
    dsimp only
    cases layoutFault? (Text.capitals name) with
    | some fault => exact ⟨rfl, rfl, fun _ => rfl⟩
    | none => exact ⟨rfl, rfl, id⟩

theorem isGoverned_configure (h : (s.configure style name).2 = none) :
    (s.configure style name).1.IsGoverned := by
  obtain ⟨level, hlevel⟩ := s.exists_level_of_configure style name h
  rw [s.configure_of_level style name hlevel]
  exact ⟨rfl, rfl⟩

end Configuring

/-- Every change to a session keeps its levels governed. -/
theorem IsGoverned.adjust {s : Session} (h : s.IsGoverned) (change : Adjustment) :
    (s.adjust change).IsGoverned := by
  cases change with
  | configure style name =>
    rw [Session.adjust]
    by_cases hfault : (s.configure style name).2 = none
    · exact s.isGoverned_configure style name hfault
    · obtain ⟨hlevel, hparser, hopen⟩ := s.configure_of_fault style name hfault
      refine ⟨hopen h.isOpen, ?_⟩
      rw [hlevel, hparser]
      exact h.parserLevel
  | bind fields => exact ⟨h.isOpen, h.parserLevel⟩
  | unbind => exact ⟨h.isOpen, h.parserLevel⟩

end Session

theorem Reached.isGoverned {s : Session} (h : Reached s) : s.IsGoverned := by
  induction h with
  | configured h => exact Session.isGoverned_configure _ _ _ h
  | adjusted _ change ih => exact ih.adjust change

namespace Session

theorem IsGoverned.threshold_number {s : Session} (h : s.IsGoverned) {logger : String}
    (hdots : ¬ HasDoubleDot logger) : (s.threshold logger).number = s.leastNumber logger := by
  have hiff := isParserLogger_iff hdots
  rw [threshold, leastNumber, h.parserLevel]
  by_cases hparser : isParserLogger logger = true
  · rw [if_pos hparser, if_pos (hiff.mp hparser), Level.max_number]
  · rw [if_neg hparser, if_neg (mt hiff.mpr hparser)]

theorem threshold_of_fault (s : Session) (style : Style) (name : String)
    (h : (s.configure style name).2 ≠ none) (logger : String) :
    (s.configure style name).1.threshold logger = s.threshold logger := by
  obtain ⟨hlevel, hparser, -⟩ := s.configure_of_fault style name h
  rw [threshold, threshold, hlevel, hparser]

end Session

section Shown

variable (style : Style)

@[simp] theorem shows_text (s : String) : style.shows (.text s) = true := by
  cases style <;> rfl

@[simp] theorem shows_null : style.shows .null = true := by
  cases style <;> rfl

@[simp] theorem shows_bool (b : Bool) : style.shows (.bool b) = true := by
  cases style <;> rfl

@[simp] theorem shows_int (n : Int) : style.shows (.int n) = !Number.isLong n := by
  cases style <;> rfl

@[simp] theorem shows_list (items : List Value) :
    style.shows (.list items) = items.all style.shows := by
  induction items with
  | nil => cases style <;> rfl
  | cons v rest ih =>
    rw [List.all_cons, ← ih]
    cases style <;> rfl

@[simp] theorem shows_record (fields : Fields) :
    style.shows (.record fields) = fields.all fun field => style.shows field.2 := by
  induction fields with
  | nil => cases style <;> rfl
  | cons field rest ih =>
    rw [List.all_cons, ← ih]
    cases style <;> rfl

@[simp] theorem shows_ofText? (text? : Option String) : style.shows (.ofText? text?) = true := by
  cases text? with
  | none => exact shows_null style
  | some s => exact shows_text style s

end Shown

namespace Record

/-- Whether a record has a text in a style: the style shows all its values, and on the console a
stack or an exception stands below the line as it is, so it has to be text. -/
structure HasText (r : Record) (style : Style) : Prop where
  shown : ∀ field ∈ r.fields, style.shows field.2 = true
  appendable : style = .console → ∀ name ∈ appended, isAppendable (r.fields.lookup name) = true

theorem isWritable_iff {r : Record} {style : Style} :
    r.isWritable style = true ↔ r.HasText style := by
  rw [isWritable, Bool.and_eq_true, List.all_eq_true, Bool.or_eq_true, bne_iff_ne,
    List.all_eq_true]
  refine ⟨fun h => ⟨h.1, fun hconsole => h.2.resolve_left (not_not_intro hconsole)⟩, fun h => ?_⟩
  exact ⟨h.shown, Decidable.or_iff_not_imp_left.mpr fun hstyle =>
    h.appendable (Decidable.not_not.mp hstyle)⟩

/-- The lines of a record that is written a number of times. -/
def written (r : Record) (style : Style) (times : Nat) : List Line :=
  (List.replicate times (r.lines style)).flatten

theorem linesOf_ne_nil (cs : List Char) : Text.linesOf cs ≠ [] := by
  fun_cases Text.linesOf cs <;> simp_all

/-- A record with a text takes at least one line, and one without takes none. -/
theorem lines_ne_nil_iff {r : Record} {style : Style} : r.lines style ≠ [] ↔ r.HasText style := by
  have hrendered : r.rendered style ≠ [] := by
    cases style with
    | json => exact List.cons_ne_nil _ _
    | console =>
      intro hnil
      exact linesOf_ne_nil _ (List.map_eq_nil_iff.mp (List.map_eq_nil_iff.mp hnil))
  rw [← isWritable_iff, lines]
  by_cases hwritable : r.isWritable style = true
  · rw [if_pos hwritable]
    exact iff_of_true hrendered hwritable
  · rw [if_neg hwritable]
    exact iff_of_false (fun h => h rfl) hwritable

theorem lines_eq_nil_iff {r : Record} {style : Style} : r.lines style = [] ↔ ¬ r.HasText style := by
  rw [← lines_ne_nil_iff]
  exact Classical.not_not.symm

end Record

theorem Session.IsGoverned.write_eq {s : Session} (h : s.IsGoverned) {logger : String}
    (hdots : ¬ HasDoubleDot logger) (r : Record) :
    s.write logger r = r.written s.style (s.timesWritten logger r.level) := by
  rw [write, writes, h.isOpen, h.threshold_number hdots, timesWritten, Record.written]
  by_cases hdue : r.level ≠ .notSet ∧ s.leastNumber logger ≤ r.level.number
  · rw [if_pos hdue, if_pos (by simp [hdue])]
    simp
  · rw [if_neg hdue, if_neg (by simpa using hdue)]
    rfl

/-- Whether fields ask where a fault arose. What is told then depends on the fault that is being
handled. -/
def AsksForFault (fields : Fields) : Prop :=
  ∃ v ∈ fields.lookup "exc_info", v.isEmpty = false

/-- In a session that has once been configured the parsers' loggers are at its level or at warning,
whichever is more. A configuration that fails changes the level of no logger. A record is written
once if its level is one and its logger's least level is not above it, and otherwise not at all:
one that is called for with fields as well as one called for plainly, when its arguments fit, no
field asks for a fault and no two dots stand side by side in the name of its logger. Parts of a
call with fields must not be passed on under their names. What is written takes lines exactly when
the record has a text. -/
theorem emission_by_level {s : Session} (h : Reached s) :
    (∀ parser ∈ parserLoggers,
      (s.threshold parser).number = Nat.max s.level.number Level.warning.number) ∧
    (∀ style name, (s.configure style name).2 ≠ none →
      (s.configure style name).1.level = s.level ∧
        ∀ logger, (s.configure style name).1.threshold logger = s.threshold logger) ∧
    (∀ logger c event, ¬ HasDoubleDot logger →
      (∀ name ∈ takenNames, name ∉ c.fields.map Prod.fst) →
        ¬ AsksForFault (s.joined c.fields) → s.eventOf c = .ok event →
          s.log logger c =
            .ok ((s.recordOf c event).written s.style (s.timesWritten logger c.level))) ∧
    (∀ logger c filled event, ¬ HasDoubleDot logger → ¬ AsksForFault s.bound →
      c.filled = .ok filled → s.eventOf (c.refilled filled) = .ok event →
        s.logPlain logger c =
          (s.recordOf (c.refilled filled) event).written s.style
            (s.timesWritten logger c.level)) ∧
    ∀ (r : Record) style, r.lines style ≠ [] ↔ r.HasText style := by
  have hgoverned := h.isGoverned
  refine ⟨fun parser hparser => ?_, fun style name hfault => ?_,
    fun logger c event hdots hnames _ hevent => ?_,
    fun logger c filled event hdots _ hfilled hevent => ?_, fun _ _ => Record.lines_ne_nil_iff⟩
  · have hdots : ¬ HasDoubleDot parser := by
      revert parser
      decide +kernel
    have hbelongs : BelongsToParser parser := ⟨parser, hparser, .inl rfl⟩
    rw [hgoverned.threshold_number hdots, Session.leastNumber, if_pos hbelongs]
  · exact ⟨(s.configure_of_fault style name hfault).1, s.threshold_of_fault style name hfault⟩
  · rw [Session.log_of_eventOf hnames hevent, hgoverned.write_eq hdots]
    rfl
  · rw [Session.logPlain_of_eventOf hfilled hevent, hgoverned.write_eq hdots]
    rfl

/-- A session at the level of details. -/
def detailed : Session :=
  (({} : Session).configure .console "debug").1

/-- The same session after a configuration that fails halfway. -/
def halfConfigured : Session :=
  detailed.adjust (.configure .json "basic_format")

/-- A call that is less urgent than a warning. -/
def tokensRead : Call where
  level := .info
  event := "%s tokens"
  arguments := [.int 3]

/-- The record of that call. -/
def tokensRecord : Record :=
  { level := .info, event := "3 tokens" }

theorem tokensRead_by_level :
    Reached detailed ∧ (detailed.configure .json "basic_format").2 ≠ none ∧
      halfConfigured.level = detailed.level ∧ Reached halfConfigured ∧
      halfConfigured.log "yaml.reader" tokensRead = .ok [] ∧
      halfConfigured.log "yamlreader" tokensRead = .ok (tokensRecord.lines .json) ∧
      halfConfigured.logPlain "dynaconf" tokensRead = [] ∧
      halfConfigured.logPlain "importer.yaml" tokensRead = tokensRecord.lines .json := by
  have hreached : Reached detailed := .configured (by decide +kernel)
  have hfault : (detailed.configure .json "basic_format").2 ≠ none := by decide +kernel
  have hlevel := ((emission_by_level hreached).2.1 _ _ hfault).1
  have hlater : Reached halfConfigured := hreached.adjusted _
  obtain ⟨-, -, hlog, hplain, -⟩ := emission_by_level hlater
  have hnames : ∀ name ∈ takenNames, name ∉ tokensRead.fields.map Prod.fst :=
    fun _ _ => List.not_mem_nil
  have hdots : ∀ logger ∈ ["yaml.reader", "yamlreader", "dynaconf", "importer.yaml"],
      ¬ HasDoubleDot logger := by decide +kernel
  have hquiet : ∀ fields : Fields, fields = [] → ¬ AsksForFault fields := by
    rintro _ rfl ⟨v, hv, _⟩
    exact Option.not_mem_none v hv
  have hbelow (logger : String) (hbelongs : BelongsToParser logger) :
      halfConfigured.timesWritten logger tokensRead.level = 0 := by
    rw [Session.timesWritten, Session.leastNumber, if_pos hbelongs]
    decide +kernel
  have habove (logger : String) (hbelongs : ¬ BelongsToParser logger) :
      halfConfigured.timesWritten logger tokensRead.level = 1 := by
    rw [Session.timesWritten, Session.leastNumber, if_neg hbelongs]
    decide +kernel
  refine ⟨hreached, hfault, hlevel, hlater, ?_, ?_, ?_, ?_⟩
  · rw [hlog "yaml.reader" _ "3 tokens" (hdots _ (by decide)) hnames (hquiet _ rfl) rfl,
      hbelow _ (by decide +kernel)]
    rfl
  · rw [hlog "yamlreader" _ "3 tokens" (hdots _ (by decide)) hnames (hquiet _ rfl) rfl,
      habove _ (by decide +kernel)]
    rfl
  · rw [hplain "dynaconf" _ "3 tokens" "3 tokens" (hdots _ (by decide)) (hquiet _ rfl) rfl rfl,
      hbelow _ (by decide +kernel)]
    rfl
  · rw [hplain "importer.yaml" _ "3 tokens" "3 tokens" (hdots _ (by decide)) (hquiet _ rfl) rfl
      rfl,
      habove _ (by decide +kernel)]
    rfl

/-- Whether the level alone makes sure that the plain calls of a level are written, whose arguments
fit, in the sessions of a style that have some fields bound. -/
def WrittenByLevel (style : Style) (bound : Fields) (level : Level) : Prop :=
  ∀ (s : Session) (logger : String) (c : Call) (text : String), Reached s → s.style = style →
    s.bound = bound → c.level = level → c.filled = .ok text → ¬ BelongsToParser logger →
      s.level.number ≤ level.number → s.logPlain logger c ≠ []

/-- Whether the level alone makes sure that calls with some fields are written, whose arguments
fit. -/
def LoggedByLevel (fields : Fields) (level : Level) : Prop :=
  ∀ (s : Session) (logger : String) (c : Call) (text : String), Reached s → s.bound = [] →
    c.fields = fields → c.level = level → c.filled = .ok text → ¬ BelongsToParser logger →
      s.level.number ≤ level.number → ∃ line, s.log logger c = .ok [line]

/-- Whether the level alone makes sure that plain calls on a logger are left out as those of the
parsers' loggers are. -/
def LeftOutByLevel (logger : String) : Prop :=
  ∀ (s : Session) (c : Call), Reached s →
    c.level.number < Nat.max s.level.number Level.warning.number → s.logPlain logger c = []

/-- A session that leaves nothing out by its level. -/
def unlimited (style : Style) : Session where
  level := .notSet
  style
  isOpen := true

theorem reached_unlimited (style : Style) : Reached (unlimited style) := by
  have hname : Level.ofName? "notset" = some .notSet := by decide +kernel
  have hconfigured := ({} : Session).configure_of_level style "notset" hname
  have hreached : Reached (({} : Session).configure style "notset").1 :=
    .configured (congrArg Prod.snd hconfigured)
  rwa [hconfigured] at hreached

/-- A call without arguments. -/
def idle : Call where
  level := .warning
  event := "idle"

theorem importer_not_belongsToParser : ¬ BelongsToParser "importer" := by decide +kernel

theorem not_writtenByLevel {style : Style} {fields : Fields}
    (h : ((unlimited style).bind fields).logPlain "importer" idle = []) :
    ¬ WrittenByLevel style fields .warning :=
  fun hall => hall _ "importer" idle "idle" ((reached_unlimited style).adjusted (.bind fields))
    rfl rfl rfl rfl importer_not_belongsToParser (Nat.zero_le _) h

theorem Session.logPlain_idle_eq_nil {s : Session}
    (hevent : s.eventOf (idle.refilled "idle") = .ok "idle")
    (htext : ¬ (s.recordOf (idle.refilled "idle") "idle").HasText s.style) :
    s.logPlain "importer" idle = [] := by
  rw [logPlain_of_eventOf rfl hevent, write, Record.lines_eq_nil_iff.mpr htext, ite_self]

theorem isLong_iff {n : Int} : Number.isLong n = true ↔ 10 ^ Number.maxDigits ≤ n.natAbs := by
  have hbase : 1 < 10 := by decide
  have hdigits : 0 < Number.maxDigits := by decide
  rw [Number.isLong, decide_eq_true_eq, ← Nat.not_le]
  exact (not_congr (Nat.length_toDigits_le_iff hbase hdigits)).trans Nat.not_lt

/-- No style shows a number with too many digits. -/
theorem not_writtenByLevel_of_isLong {n : Int} (h : Number.isLong n = true) (style : Style) :
    ¬ WrittenByLevel style [("limit", .int n)] .warning := by
  refine not_writtenByLevel (Session.logPlain_idle_eq_nil rfl fun htext => ?_)
  have hshown : style.shows (.int n) = true := htext.shown ("limit", .int n) List.mem_cons_self
  rw [shows_int, h] at hshown
  exact Bool.false_ne_true hshown

/-- A number bound as arguments keeps calls from being written. So do values that a style does not
show: on the console a number bound as a stack, in documents a mapping whose key is a date, and in
both a number with too many digits. A field that has the name of a part of a call is refused. The
level that stands for none is not written at all. Below a parser's logger calls are written whose
logger has two dots side by side in its name. -/
theorem not_by_level_alone :
    ¬ WrittenByLevel .console [(argumentsField, .int 5)] .warning ∧
      ¬ WrittenByLevel .console [("stack", .int 5)] .warning ∧
      ¬ WrittenByLevel .json [("counts", .map [(.date ⟨2024, 2, 1⟩, .int 5)])] .warning ∧
      (∀ style, ¬ WrittenByLevel style [("limit", .int (10 ^ Number.maxDigits : Nat))] .warning) ∧
      ¬ LoggedByLevel [("method_name", .text "load")] .warning ∧
      ¬ WrittenByLevel .console [] .notSet ∧
      BelongsToParser "yaml..reader" ∧ ¬ LeftOutByLevel "yaml..reader" := by
  refine ⟨not_writtenByLevel rfl, not_writtenByLevel ?_, not_writtenByLevel ?_,
    not_writtenByLevel_of_isLong (isLong_iff.mpr (Nat.le_refl _)), fun h => ?_, fun h => ?_,
    by decide +kernel, fun h => ?_⟩
  · refine Session.logPlain_idle_eq_nil rfl fun htext => ?_
    exact Bool.false_ne_true (htext.appendable rfl "stack" (by decide))
  · refine Session.logPlain_idle_eq_nil rfl fun htext => ?_
    exact Bool.false_ne_true (htext.shown ("counts", _) List.mem_cons_self)
  · obtain ⟨line, hline⟩ := h (unlimited .json) "importer"
      { idle with fields := [("method_name", .text "load")] } "idle" (reached_unlimited .json) rfl
      rfl rfl rfl importer_not_belongsToParser (Nat.zero_le _)
    cases hline
  · exact h (unlimited .console) "importer" { idle with level := .notSet } "idle"
      (reached_unlimited .console) rfl rfl rfl rfl importer_not_belongsToParser (Nat.zero_le _) rfl
  · have hempty := h (unlimited .json) { idle with level := .info } (reached_unlimited .json)
      (by decide)
    have hwrites : (unlimited .json).writes "yaml..reader" .info = true := by decide +kernel
    rw [Session.logPlain_of_eventOf rfl rfl, Session.write] at hempty
    exact absurd ((if_pos hwrites).symm.trans hempty) (List.cons_ne_nil _ _)

end GraphImport.Log
