import GraphImport.Proofs.Rules.Report
import GraphImport.Proofs.Text.Styling

/-!
# Texts in messages

A message quotes texts of the job spec as they stand, among words that are printable ASCII. So a
line ends within a message exactly when one ends within a text that it quotes, and sequences for
colours and styles stand in a message exactly when they stand in such a text.
-/

namespace GraphImport.Rules

open Spec
open Text (BeginsApart EndsLines IsClosed Plain StandsOnLine Unbroken cutsSequence unstyled)

/-- The texts of the job spec that a problem quotes. -/
def Problem.texts : Problem → List String
  | .duplicateName _ name => [name]
  | .sortedSource source => [source]
  | .sortedTarget target => [target]
  | .undefinedSource source => [source]
  | .nodeFragment _ mapping => [mapping]
  | .edgeFragment _ mapping => [mapping]
  | .noLabel target => [target]
  | .noKey target => [target]
  | .noEdgePart _ target => [target]
  | .incompatibleModes target => [target]
  | .noQuery target => [target]
  | .queryWithMapping target => [target]
  | .queryWithTransform target => [target]
  | .unmappedAggregation field => field.toList
  | .tooManyFields property target fields => property :: target :: fields
  | .tooManyTypes property target _ => [property, target]
  | .missingOption _ action => [action]
  | .dependencyUnnamed action _ => [action]
  | .dependencyUnknown action _ name => [action, name]
  | .unnamed _ | .noSource | .endpointRole _ _ | .noActiveTarget => []

section Words

theorem plain_fragment (fragment : FragmentType) : Plain (word fragment) := by
  cases fragment <;> exact .ofList (by decide)

theorem plain_role (role : RoleType) : Plain (word role) := by
  cases role <;> exact .ofList (by decide)

theorem plain_propertyType (type : PropertyType) : Plain (word type) := by
  cases type <;> exact .ofList (by decide)

theorem plain_executeAfter (kind : ActionExecuteAfter) : Plain (word kind) := by
  cases kind <;> exact .ofList (by decide)

theorem NamedItem.plain_word (item : NamedItem) : Plain item.word := by
  cases item <;> exact .ofList (by decide)

theorem NamedItem.plain_unnamedMessage (item : NamedItem) : Plain item.unnamedMessage := by
  cases item <;> exact .ofList (by decide)

theorem EdgePart.plain_phrase (part : EdgePart) : Plain part.phrase := by
  cases part <;> exact .ofList (by decide)

theorem plain_requiredOption (type : ActionType) : Plain (requiredOption type) := by
  cases type <;> exact .ofList (by decide)

theorem plain_actionStyle (type : ActionType) : Plain (actionStyle type) := by
  cases type <;> exact .ofList (by decide)

end Words

/-- How a message is put together from printable ASCII characters and the texts that it quotes,
without a sequence that would stand across two parts. -/
inductive Quotes : List String → String → Prop
  | plain {fixed : String} (h : Plain fixed) : Quotes [] fixed
  | text (t : String) : Quotes [t] t
  | append {texts more : List String} {s t : String} (hs : Quotes texts s) (ht : Quotes more t)
      (hparts : unstyled (s ++ t) = unstyled s ++ unstyled t) : Quotes (texts ++ more) (s ++ t)
  | list {fixed : String} (texts : List String) (h : Plain fixed) (hapart : BeginsApart fixed) :
      Quotes texts (fixed.intercalate texts)

/-- The beginning of a message, which goes on with another part. -/
structure Opening (texts : List String) (s : String) : Prop where
  quotes : Quotes texts s
  isClosed : IsClosed s

section Parts

variable {texts more : List String} {s t word : String} {cs : List Char}

theorem Opening.ofList (h : cs.all (fun c => decide (Json.IsPlain c)) = true) :
    Opening [] (String.ofList cs) :=
  ⟨.plain (.ofList h), (Plain.ofList h).isClosed⟩

theorem Opening.append (hs : Opening texts s) (ht : Quotes more t) :
    Quotes (texts ++ more) (s ++ t) :=
  hs.quotes.append ht (hs.isClosed t)

theorem Opening.before (hs : Opening texts s) (h : Plain word) : Opening texts (s ++ word) := by
  have happend := hs.append (.plain h)
  rw [List.append_nil] at happend
  exact ⟨happend, hs.isClosed.append h.isClosed⟩

theorem Opening.fixed (hs : Opening texts s)
    (h : cs.all (fun c => decide (Json.IsPlain c)) = true) :
    Opening texts (s ++ String.ofList cs) :=
  hs.before (.ofList h)

theorem Opening.quote (hs : Opening texts s) (t : String) : Quotes (texts ++ [t]) (s ++ t) :=
  hs.append (.text t)

/-- What follows a text that is quoted begins with a character that cuts sequences off. -/
theorem Quotes.fixed (hs : Quotes texts s) (hapart : cs.head?.any cutsSequence = true)
    (h : cs.all (fun c => decide (Json.IsPlain c)) = true) :
    Opening texts (s ++ String.ofList cs) := by
  have happend := hs.append (.plain (.ofList h)) ((BeginsApart.ofList hapart).unstyled_append s)
  rw [List.append_nil] at happend
  exact ⟨happend, (Plain.ofList h).isClosed_append (.ofList hapart) s⟩

end Parts

namespace Quotes

variable {texts : List String} {s : String} {ends : Char → Bool}

theorem unstyled_eq_self_iff (h : Quotes texts s) :
    unstyled s = s ↔ ∀ t ∈ texts, unstyled t = t := by
  induction h with
  | plain h => exact iff_of_true h.unstyled_eq (List.forall_mem_nil _)
  | text t => rw [List.forall_mem_singleton]
  | append _ _ hparts hs ht =>
    rw [hparts, Text.unstyled_append_eq_iff, hs, ht, List.forall_mem_append]
  | list texts h hapart => exact Text.unstyled_intercalate_eq_iff h hapart texts

theorem unbroken_iff (hends : EndsLines ends) (h : Quotes texts s) :
    Unbroken ends (unstyled s) ↔ ∀ t ∈ texts, Unbroken ends (unstyled t) := by
  induction h with
  | plain h => exact iff_of_true (h.unstyled_eq.symm ▸ h.unbroken hends) (List.forall_mem_nil _)
  | text t => rw [List.forall_mem_singleton]
  | append _ _ hparts hs ht => rw [hparts, Text.unbroken_append, hs, ht, List.forall_mem_append]
  | list texts h hapart =>
    rw [Text.unstyled_intercalate h hapart, Text.unbroken_intercalate hends h,
      List.forall_mem_map]

theorem standsOnLine_iff (hends : EndsLines ends) (h : Quotes texts s) :
    StandsOnLine ends s ↔ ∀ t ∈ texts, StandsOnLine ends t := by
  simp only [Text.standsOnLine_iff, h.unbroken_iff hends, h.unstyled_eq_self_iff]
  exact ⟨fun hall t ht => ⟨hall.1 t ht, hall.2 t ht⟩,
    fun hall => ⟨fun t ht => (hall t ht).1, fun t ht => (hall t ht).2⟩⟩

end Quotes

theorem Problem.message_quotes (p : Problem) : Quotes p.texts p.message := by
  cases p with
  | unnamed item => exact .plain item.plain_unnamedMessage
  | noSource => exact .plain (.ofList (by decide))
  | noActiveTarget => exact .plain (.ofList (by decide))
  | duplicateName item name =>
    exact Opening.ofList (by decide) |>.before item.plain_word |>.fixed (by decide) |>.quote name
  | sortedSource source =>
    exact Opening.ofList (by decide) |>.quote source |>.fixed (by decide) (by decide) |>.quotes
  | sortedTarget target =>
    exact Opening.ofList (by decide) |>.quote target |>.fixed (by decide) (by decide) |>.quotes
  | nodeFragment fragment mapping =>
    exact Opening.ofList (by decide) |>.before (plain_fragment fragment) |>.fixed (by decide)
      |>.quote mapping
  | edgeFragment fragment mapping =>
    exact Opening.ofList (by decide) |>.before (plain_fragment fragment) |>.fixed (by decide)
      |>.quote mapping
  | endpointRole role fragment =>
    exact Opening.ofList (by decide) |>.before (plain_role role) |>.fixed (by decide)
      |>.before (plain_fragment fragment) |>.quotes
  | noEdgePart part target =>
    exact Opening.ofList (by decide) |>.before part.plain_phrase |>.fixed (by decide)
      |>.quote target
  | incompatibleModes target =>
    exact Opening.ofList (by decide) |>.quote target |>.fixed (by decide) (by decide)
      |>.fixed (by decide) |>.quotes
  | unmappedAggregation field =>
    have hfield : Quotes field.toList (field.getD "None") := by
      cases field with
      | none => exact .plain (.ofList (by decide))
      | some field => exact .text field
    exact Opening.ofList (by decide) |>.append hfield |>.fixed (by decide) (by decide) |>.quotes
  | tooManyFields property target fields =>
    exact Opening.ofList (by decide) |>.quote property |>.fixed (by decide) (by decide)
      |>.quote target |>.fixed (by decide) (by decide)
      |>.append (.list fields (.ofList (by decide)) (.ofList (by decide)))
  | tooManyTypes property target types =>
    have htypes : Plain (", ".intercalate (types.map word)) := by
      refine .intercalate (.ofList (by decide)) fun part hpart => ?_
      obtain ⟨type, _, rfl⟩ := List.mem_map.mp hpart
      exact plain_propertyType type
    exact Opening.ofList (by decide) |>.quote property |>.fixed (by decide) (by decide)
      |>.quote target |>.fixed (by decide) (by decide) |>.before htypes |>.quotes
  | missingOption type action =>
    exact Opening.ofList (by decide) |>.before (plain_requiredOption type) |>.fixed (by decide)
      |>.before (plain_actionStyle type) |>.fixed (by decide) |>.quote action
  | dependencyUnnamed action kind =>
    exact Opening.ofList (by decide) |>.quote action |>.fixed (by decide) (by decide)
      |>.before (plain_executeAfter kind) |>.fixed (by decide) |>.quotes
  | dependencyUnknown action kind name =>
    exact Opening.ofList (by decide) |>.quote action |>.fixed (by decide) (by decide)
      |>.before (plain_executeAfter kind) |>.fixed (by decide) |>.quote name
  -- The other messages name one item at their end.
  | _ => exact Opening.ofList (by decide) |>.quote _

section Origins

/-- The names, fields and constants of a target. -/
def targetTexts (t : Target) : List String :=
  t.name :: t.source ::
    ((t.mappings.flatMap fun m => m.name :: (m.field.toList ++ m.constant.toList)) ++
      t.transform.aggregations.filterMap Aggregation.field)

/-- The names of an action and of what it waits for. -/
def actionTexts (a : Action) : List String :=
  a.name :: a.executeAfterName.toList

/-- The names, fields and constants of a job spec, as far as the rules look at them. -/
def specTexts (spec : JobSpec) : List String :=
  spec.sources.map Source.name ++ spec.activeTargets.flatMap targetTexts ++
    spec.actions.flatMap actionTexts

/-- Whether a problem quotes nothing but given texts, as they stand or between single quotes. -/
def Problem.QuotesFrom (p : Problem) (known : List String) : Prop :=
  ∀ t ∈ p.texts, ∃ s ∈ known, t = s ∨ t = s!"'{s}'"

theorem Problem.QuotesFrom.mono {p : Problem} {known more : List String} (h : p.QuotesFrom known)
    (hmore : known ⊆ more) : p.QuotesFrom more := by
  intro t ht
  obtain ⟨s, hs, heq⟩ := h t ht
  exact ⟨s, hmore hs, heq⟩

theorem quotesFrom_of_texts {p : Problem} {known : List String} (h : ∀ t ∈ p.texts, t ∈ known) :
    p.QuotesFrom known :=
  fun t ht => ⟨t, h t ht, .inl rfl⟩

theorem quotesFrom_nothing {p : Problem} {known : List String} (h : p.texts = []) :
    p.QuotesFrom known :=
  quotesFrom_of_texts (h ▸ List.forall_mem_nil _)

theorem quotesFrom_one {p : Problem} {known : List String} {text : String} (h : p.texts = [text])
    (hknown : text ∈ known) : p.QuotesFrom known :=
  quotesFrom_of_texts (h ▸ List.forall_mem_singleton.mpr hknown)

theorem quotesFrom_nameReport (item : NamedItem) (earlier : List String) {name : String}
    {known : List String} (h : name ∈ known) :
    ∀ p ∈ nameReport item earlier name, p.QuotesFrom known := by
  rw [nameReport, List.forall_mem_append, forall_mem_reported, forall_mem_reported]
  exact ⟨fun _ => quotesFrom_nothing rfl, fun _ => quotesFrom_one rfl h⟩

theorem quotesFrom_sourceReport (earlier : List Source) {s : Source} {known : List String}
    (h : s.name ∈ known) : ∀ p ∈ sourceReport earlier s, p.QuotesFrom known := by
  rw [sourceReport, List.forall_mem_append, forall_mem_reported]
  exact ⟨quotesFrom_nameReport _ _ h, fun _ => quotesFrom_one rfl h⟩

section Targets

variable (t : Target)

theorem name_mem_targetTexts : t.name ∈ targetTexts t :=
  List.mem_cons_self

variable {t} in
theorem mem_targetTexts_of_mapping {m : Mapping} (hm : m ∈ t.mappings) {text : String}
    (h : text = m.name ∨ m.field = some text ∨ m.constant = some text) : text ∈ targetTexts t := by
  have hmapping : text ∈ t.mappings.flatMap fun m =>
      m.name :: (m.field.toList ++ m.constant.toList) := by
    rw [List.mem_flatMap]
    exact ⟨m, hm, by simpa [Option.mem_toList] using h⟩
  exact List.mem_cons_of_mem _ (List.mem_cons_of_mem _ (List.mem_append_left _ hmapping))

theorem quotesFrom_nodeReport : ∀ p ∈ nodeReport t, p.QuotesFrom (targetTexts t) := by
  simp only [nodeReport, List.forall_mem_append, List.forall_mem_flatMap, forall_mem_reported]
  have hname := name_mem_targetTexts t
  exact ⟨⟨fun m hm _ => quotesFrom_one rfl (mem_targetTexts_of_mapping hm (.inl rfl)),
    fun _ => quotesFrom_one rfl hname⟩, fun _ => quotesFrom_one rfl hname⟩

theorem quotesFrom_edgeReport : ∀ p ∈ edgeReport t, p.QuotesFrom (targetTexts t) := by
  simp only [edgeReport, List.forall_mem_append, List.forall_mem_flatMap, forall_mem_reported]
  refine ⟨⟨⟨⟨fun m hm => ⟨fun _ => ?_, fun _ => ?_⟩, ?_⟩, ?_⟩, ?_⟩, ?_⟩
  · exact quotesFrom_one rfl (mem_targetTexts_of_mapping hm (.inl rfl))
  · exact quotesFrom_nothing rfl
  all_goals exact fun _ => quotesFrom_one rfl (name_mem_targetTexts t)

theorem quotesFrom_queryReport : ∀ p ∈ queryReport t, p.QuotesFrom (targetTexts t) := by
  simp only [queryReport, List.forall_mem_append, forall_mem_reported]
  have hname := name_mem_targetTexts t
  exact ⟨⟨fun _ => quotesFrom_one rfl hname, fun _ => quotesFrom_one rfl hname⟩,
    fun _ => quotesFrom_one rfl hname⟩

theorem quotesFrom_typeReport : ∀ p ∈ typeReport t, p.QuotesFrom (targetTexts t) := by
  unfold typeReport
  split
  · exact quotesFrom_nodeReport t
  · exact quotesFrom_edgeReport t
  · exact quotesFrom_queryReport t
  · exact List.forall_mem_nil _

theorem quotesFrom_aggregationReport :
    ∀ p ∈ aggregationReport t, p.QuotesFrom (targetTexts t) := by
  simp only [aggregationReport, List.forall_mem_flatMap, forall_mem_reported]
  intro a ha _
  refine quotesFrom_of_texts fun text htext => ?_
  have hfield : a.field = some text := Option.mem_toList.mp htext
  have hmem : text ∈ t.transform.aggregations.filterMap Aggregation.field :=
    List.mem_filterMap.mpr ⟨a, ha, hfield⟩
  exact List.mem_cons_of_mem _ (List.mem_cons_of_mem _ (List.mem_append_right _ hmem))

/-- What feeds a property is a field of one of its mappings, or a constant in quotes. -/
theorem mem_entriesOf {property text : String} (h : text ∈ entriesOf t.mappings property) :
    ∃ s ∈ targetTexts t, text = s ∨ text = s!"'{s}'" := by
  rw [entriesOf, List.mem_eraseDups, List.mem_filterMap] at h
  obtain ⟨m, hm, hentry⟩ := h
  have hmapping := (List.mem_filter.mp hm).1
  cases hfield : m.field with
  | some field =>
    rw [enteredField?, hfield] at hentry
    cases hentry
    exact ⟨text, mem_targetTexts_of_mapping hmapping (.inr (.inl hfield)), .inl rfl⟩
  | none =>
    cases hconstant : m.constant with
    | some constant =>
      rw [enteredField?, hfield, hconstant] at hentry
      cases hentry
      exact ⟨constant, mem_targetTexts_of_mapping hmapping (.inr (.inr hconstant)), .inr rfl⟩
    | none =>
      rw [enteredField?, hfield, hconstant] at hentry
      cases hentry

theorem quotesFrom_cardinalityReport :
    ∀ p ∈ cardinalityReport t, p.QuotesFrom (targetTexts t) := by
  simp only [cardinalityReport, List.forall_mem_append, List.forall_mem_flatMap,
    forall_mem_reported]
  intro property hproperty
  obtain ⟨m, hm, hname⟩ := List.mem_map.mp (List.mem_eraseDups.mp hproperty)
  have hknown : property ∈ targetTexts t := mem_targetTexts_of_mapping hm (.inl hname.symm)
  refine ⟨fun _ text htext => ?_, fun _ => quotesFrom_of_texts fun text htext => ?_⟩
  · simp only [Problem.texts, List.mem_cons] at htext
    rcases htext with rfl | rfl | hentry
    · exact ⟨text, hknown, .inl rfl⟩
    · exact ⟨t.name, name_mem_targetTexts t, .inl rfl⟩
    · exact mem_entriesOf t hentry
  · simp only [Problem.texts, List.mem_cons, List.not_mem_nil, or_false] at htext
    rcases htext with rfl | rfl
    · exact hknown
    · exact name_mem_targetTexts t

theorem quotesFrom_referenceReport (spec : JobSpec) :
    ∀ p ∈ referenceReport spec t, p.QuotesFrom (targetTexts t) := by
  simp only [referenceReport, List.forall_mem_append, forall_mem_reported]
  have hsource : t.source ∈ targetTexts t := List.mem_cons_of_mem _ List.mem_cons_self
  exact ⟨⟨fun _ => quotesFrom_nothing rfl, fun _ => quotesFrom_one rfl hsource⟩,
    fun _ => quotesFrom_one rfl (name_mem_targetTexts t)⟩

theorem quotesFrom_targetReport (spec : JobSpec) (earlier : List Target) :
    ∀ p ∈ targetReport spec earlier t, p.QuotesFrom (targetTexts t) := by
  simp only [targetReport, List.forall_mem_append]
  refine ⟨⟨⟨⟨quotesFrom_nameReport _ _ (name_mem_targetTexts t),
    quotesFrom_referenceReport t spec⟩, quotesFrom_typeReport t⟩,
    quotesFrom_aggregationReport t⟩, ?_⟩
  split
  · exact List.forall_mem_nil _
  · exact quotesFrom_cardinalityReport t

end Targets

theorem quotesFrom_actionReport (earlier : List Action) (a : Action) :
    ∀ p ∈ actionReport earlier a, p.QuotesFrom (actionTexts a) := by
  rw [actionReport, List.forall_mem_append, forall_mem_reported]
  have hname : a.name ∈ actionTexts a := List.mem_cons_self
  exact ⟨quotesFrom_nameReport _ _ hname, fun _ => quotesFrom_one rfl hname⟩

theorem quotesFrom_dependencyReport (spec : JobSpec) (a : Action) :
    ∀ p ∈ dependencyReport spec a, p.QuotesFrom (actionTexts a) := by
  unfold dependencyReport
  split
  · exact List.forall_mem_nil _
  · split
    · split
      · rw [List.forall_mem_singleton]
        exact quotesFrom_one rfl List.mem_cons_self
      next name hawaited =>
        have htexts : actionTexts a = [a.name, name] := by
          rw [actionTexts, (filled?_eq_some.mp hawaited).1]
          rfl
        rw [forall_mem_reported, htexts]
        exact fun _ => quotesFrom_of_texts fun _ h => h
    · exact List.forall_mem_nil _

/-- Problems quote nothing but names, fields and constants of the job spec. -/
theorem quotesFrom_report (spec : JobSpec) : ∀ p ∈ report spec, p.QuotesFrom (specTexts spec) := by
  have hsources : spec.sources.map Source.name ⊆ specTexts spec := fun _ h =>
    List.mem_append_left _ (List.mem_append_left _ h)
  have htargets {t : Target} (ht : t ∈ spec.activeTargets) : targetTexts t ⊆ specTexts spec :=
    fun _ h => List.mem_append_left _ (List.mem_append_right _ (List.mem_flatMap.mpr ⟨t, ht, h⟩))
  have hactions {a : Action} (ha : a ∈ spec.actions) : actionTexts a ⊆ specTexts spec :=
    fun _ h => List.mem_append_right _ (List.mem_flatMap.mpr ⟨a, ha, h⟩)
  simp only [report, List.forall_mem_append, forall_mem_reported, List.forall_mem_flatMap]
  refine ⟨⟨⟨⟨?_, ?_⟩, fun _ => quotesFrom_nothing rfl⟩, ?_⟩, ?_⟩
  · exact forall_mem_alongside fun earlier s hs =>
      quotesFrom_sourceReport earlier (hsources (List.mem_map_of_mem hs))
  · exact forall_mem_alongside fun earlier t ht p hp =>
      (quotesFrom_targetReport t spec earlier p hp).mono (htargets ht)
  · exact forall_mem_alongside fun earlier a ha p hp =>
      (quotesFrom_actionReport earlier a p hp).mono (hactions ha)
  · exact fun a ha p hp => (quotesFrom_dependencyReport spec a p hp).mono (hactions ha)

/-- When the names, fields and constants of a job spec stand on a line each, so do all texts that
are quoted. -/
theorem standsOnLine_report {ends : Char → Bool} (hends : EndsLines ends) {spec : JobSpec}
    (h : ∀ s ∈ specTexts spec, StandsOnLine ends s) :
    ∀ p ∈ report spec, ∀ t ∈ p.texts, StandsOnLine ends t := by
  intro p hp t ht
  obtain ⟨s, hs, rfl | rfl⟩ := quotesFrom_report spec p hp t ht
  · exact h t hs
  · have hquoted : Quotes [s] s!"'{s}'" :=
      Opening.ofList (by decide) |>.quote s |>.fixed (by decide) (by decide) |>.quotes
    exact (hquoted.standsOnLine_iff hends).mpr (List.forall_mem_singleton.mpr (h s hs))

end Origins

end GraphImport.Rules
