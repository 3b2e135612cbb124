import Mathlib.Data.List.ReduceOption
import GraphImport.Proofs.Rules.Feeds
import GraphImport.Proofs.Spec.RoundTrip

/-!
# Readers of a feed under review

Readers of a feed's problems are started and asked in any order while mappings are added. A reader
has some limits of the feed ahead. Asked, it passes limits that are kept, up to one that is not,
and tells the problem of that one as the feed stands then. So it tells of each limit at most once,
in order, and misses one only if it was kept when the reader passed it.
-/

namespace GraphImport.Rules

open scoped List
open Spec

/-- The limits of a feed: it has one field, and one type. -/
inductive Limit
  | fields
  | types
deriving DecidableEq, Repr

namespace Feed

/-- How many of what a limit counts a feed holds. -/
def held (feed : Feed) : Limit → Nat
  | .fields => feed.fields.length
  | .types => feed.types.length

/-- The problem that lists all of what a limit counts. -/
def listing (feed : Feed) : Limit → Problem
  | .fields => .tooManyFields feed.property feed.target feed.fields
  | .types => .tooManyTypes feed.property feed.target feed.types

/-- The problem of a limit that a feed does not keep. -/
def excess? (feed : Feed) (limit : Limit) : Option Problem :=
  if feed.held limit > 1 then some (feed.listing limit) else none

end Feed

/-- The limit that a problem is about. -/
def Problem.limit? : Problem → Option Limit
  | .tooManyFields _ _ _ => some .fields
  | .tooManyTypes _ _ _ => some .types
  | _ => none

/-- The limits that a reader has ahead. -/
def Cursor.ahead : Cursor → List Limit
  | .start => [.fields, .types]
  | .afterFields => [.types]
  | .done => []

namespace Feed

theorem excess?_fields (feed : Feed) : feed.excess? .fields = feed.fieldProblem? := rfl

theorem excess?_types (feed : Feed) : feed.excess? .types = feed.typeProblem? := rfl

theorem excess?_eq_some {feed : Feed} {limit : Limit} {p : Problem} :
    feed.excess? limit = some p ↔ 1 < feed.held limit ∧ p = feed.listing limit := by
  rw [excess?, Option.ite_none_right_eq_some, Option.some.injEq, gt_iff_lt, eq_comm (a := p)]

theorem limit?_listing (feed : Feed) (limit : Limit) :
    (feed.listing limit).limit? = some limit := by
  cases limit <;> rfl

theorem problems_eq (feed : Feed) : feed.problems = Cursor.start.ahead.filterMap feed.excess? := by
  cases hfields : feed.fieldProblem? <;> cases htypes : feed.typeProblem? <;>
    simp [problems, Cursor.ahead, excess?_fields, excess?_types, hfields, htypes]

/-- A reader passes limits up to the first that is not kept, and tells its problem. When all are
kept it has ended. -/
theorem next_spec (feed : Feed) (cursor : Cursor) : ∃ passed,
    cursor.ahead = passed ++ (feed.next cursor).2.ahead ∧
      passed.filterMap feed.excess? = (feed.next cursor).1.toList ∧
      ((feed.next cursor).1 = none → (feed.next cursor).2 = .done) := by
  cases cursor with
  | start =>
    cases hfields : feed.fieldProblem? with
    | none =>
      refine ⟨[.fields, .types], ?_, ?_, ?_⟩ <;>
        cases htypes : feed.typeProblem? <;> simp [next, next.types, Cursor.ahead, excess?_fields,
          excess?_types, hfields, htypes]
    | some p => exact ⟨[.fields], by simp [next, Cursor.ahead, excess?_fields, hfields]⟩
  | afterFields =>
    refine ⟨[.types], ?_, ?_, ?_⟩ <;>
      cases htypes : feed.typeProblem? <;> simp [next, next.types, Cursor.ahead, excess?_types, htypes]
  | done => exact ⟨[], rfl, rfl, fun _ => rfl⟩

/-- The problems of limits are about these limits, in order. -/
theorem limits_sublist (feed : Feed) (limits : List Limit) :
    (limits.filterMap feed.excess?).map Problem.limit? <+ limits.map some := by
  induction limits with
  | nil => exact List.Sublist.slnil
  | cons limit rest ih =>
    cases hexcess : feed.excess? limit with
    | none =>
      rw [List.filterMap_cons_none hexcess]
      exact ih.cons _
    | some p =>
      rw [List.filterMap_cons_some hexcess, List.map_cons, List.map_cons,
        (excess?_eq_some.mp hexcess).2, limit?_listing]
      exact ih.cons_cons _

/-- What a reader tells is a problem of the feed as it stands. -/
theorem mem_problems_of_next {feed : Feed} {cursor : Cursor} {p : Problem}
    (h : (feed.next cursor).1 = some p) : p ∈ feed.problems := by
  obtain ⟨passed, hahead, htold, _⟩ := feed.next_spec cursor
  have hp : p ∈ cursor.ahead.filterMap feed.excess? := by
    rw [hahead, List.filterMap_append, htold, h]
    simp
  have hsublist : cursor.ahead <+ Cursor.start.ahead := by
    cases cursor <;> simp [Cursor.ahead]
  rw [problems_eq]
  exact (hsublist.filterMap _).subset hp

/-- A limit that is not kept is told when it is passed. -/
theorem next_eq_of_passed {feed : Feed} {cursor : Cursor} {limit : Limit} {p : Problem}
    (hahead : limit ∈ cursor.ahead) (hpassed : limit ∉ (feed.next cursor).2.ahead)
    (h : feed.excess? limit = some p) : (feed.next cursor).1 = some p := by
  obtain ⟨passed, hsplit, htold, _⟩ := feed.next_spec cursor
  rw [hsplit, List.mem_append, or_iff_left hpassed] at hahead
  have hp : p ∈ passed.filterMap feed.excess? := List.mem_filterMap.mpr ⟨limit, hahead, h⟩
  rwa [htold, Option.mem_toList] at hp

end Feed

/-- A step of a review: a mapping is added, or a reader is started or asked under its name. -/
inductive Step
  | add (m : Mapping)
  | start (id : String)
  | next (id : String)
deriving DecidableEq, Repr

/-- The mappings that steps add. -/
def added (steps : List Step) : List Mapping :=
  steps.filterMap fun
    | .add m => some m
    | _ => none

theorem added_append (steps more : List Step) : added (steps ++ more) = added steps ++ added more :=
  List.filterMap_append

namespace Review

/-- A review of a feed to which nothing was added yet. -/
def opened (target property : String) : Review where
  feed := { target, property }

def step (review : Review) : Step → Review
  | .add m => review.add m
  | .start id => review.start id
  | .next id => (review.next id).2

/-- A review after steps. -/
def after (review : Review) (steps : List Step) : Review :=
  steps.foldl step review

/-- What a reader answers to the steps that ask it; none when it has ended. -/
def answers (id : String) (review : Review) : List Step → List (Option Problem)
  | [] => []
  | step :: rest =>
    (if step = .next id then [(review.next id).1] else []) ++ answers id (review.step step) rest

/-- How far a reader has come. -/
def position? (review : Review) (id : String) : Option Cursor :=
  review.readers.lookup id

/-- Whether a reader passes a limit when it is asked now. -/
def Passes (review : Review) (id : String) (limit : Limit) : Prop :=
  ∃ cursor cursor', review.position? id = some cursor ∧
    (review.next id).2.position? id = some cursor' ∧
    limit ∈ cursor.ahead ∧ limit ∉ cursor'.ahead

/-- What a reader started now answers when it is asked as often as it can find a problem, and once
more. -/
def freshAnswers (review : Review) (id : String) : List (Option Problem) :=
  answers id (review.start id) [.next id, .next id, .next id]

theorem after_append (review : Review) (steps more : List Step) :
    review.after (steps ++ more) = (review.after steps).after more :=
  List.foldl_append

section Feeds

theorem feed_start (review : Review) (id : String) : (review.start id).feed = review.feed := rfl

theorem feed_next (review : Review) (id : String) : (review.next id).2.feed = review.feed := by
  unfold next
  cases review.readers.lookup id <;> rfl

/-- The feed of a review is what the mappings collect that were added to it. -/
theorem feed_after (target property : String) (steps : List Step) :
    ((opened target property).after steps).feed = collected target property (added steps) := by
  induction steps using List.reverseRecOn with
  | nil => rfl
  | append_singleton steps step ih =>
    have hsame : ((opened target property).after steps).feed =
        collected target property (added steps ++ []) := by rw [List.append_nil, ih]
    rw [after_append, added_append]
    cases step with
    | add m =>
      have hadded : (((opened target property).after steps).feed.add m) =
          collected target property (added steps ++ [m]) := by rw [ih, collected_append]
      exact hadded
    | start id => exact hsame
    | next id => exact (feed_next _ id).trans hsame

end Feeds

section Positions

variable {review : Review} {id other : String}

theorem position?_setReader_self (review : Review) (id : String) (cursor : Cursor) :
    (review.setReader id cursor).position? id = some cursor :=
  List.lookup_cons_self

theorem position?_setReader_of_ne (review : Review) (cursor : Cursor) (h : id ≠ other) :
    (review.setReader other cursor).position? id = review.position? id := by
  have hother : (id == other) = false := beq_false_of_ne h
  rw [position?, setReader, List.lookup_cons, hother, position?]
  induction review.readers with
  | nil => rfl
  | cons reader rest ih =>
    obtain ⟨name, cursor⟩ := reader
    by_cases hname : name = other
    · subst hname
      simp [List.lookup_cons, hother, ih]
    · by_cases hid : id = name <;> simp [List.lookup_cons, hname, hid, ih]

theorem next_eq {cursor : Cursor} (h : review.position? id = some cursor) :
    review.next id = ((review.feed.next cursor).1,
      review.setReader id (review.feed.next cursor).2) := by
  rw [position?] at h
  rw [next, h]

theorem position?_next {cursor : Cursor} (h : review.position? id = some cursor) :
    (review.next id).2.position? id = some (review.feed.next cursor).2 := by
  rw [next_eq h, position?_setReader_self]

/-- A reader stays where it is unless it is started again or asked. -/
theorem position?_step_of_ne {step : Step} (hstart : step ≠ .start id) (hnext : step ≠ .next id) :
    (review.step step).position? id = review.position? id := by
  cases step with
  | add m => rfl
  | start other =>
    have hne : id ≠ other := fun h => hstart (h ▸ rfl)
    exact position?_setReader_of_ne review .start hne
  | next other =>
    have hne : id ≠ other := fun h => hnext (h ▸ rfl)
    cases hposition : review.position? other with
    | none =>
      rw [position?] at hposition
      rw [step, next, hposition]
    | some cursor =>
      rw [step, next_eq hposition]
      exact position?_setReader_of_ne review _ hne

end Positions

section Answers

variable {review : Review} {id : String} {cursor : Cursor} {steps : List Step}

theorem answers_append (id : String) (review : Review) (steps more : List Step) :
    answers id review (steps ++ more) =
      answers id review steps ++ answers id (review.after steps) more := by
  induction steps generalizing review with
  | nil => rfl
  | cons step rest ih => simp only [List.cons_append, answers, ih, List.append_assoc, after,
      List.foldl_cons]

theorem answers_next (steps : List Step) (h : review.position? id = some cursor) :
    answers id review (.next id :: steps) =
      (review.feed.next cursor).1 :: answers id (review.next id).2 steps := by
  have hfirst : (review.next id).1 = (review.feed.next cursor).1 := by rw [next_eq h]
  rw [answers, if_pos rfl, hfirst]
  rfl

theorem mem_answers_of_split (id : String) (review : Review) (earlier later : List Step) :
    ((review.after earlier).next id).1 ∈ answers id review (earlier ++ .next id :: later) := by
  simp [answers_append, answers]

/-- The answers of a reader are problems about limits that it had ahead, in order, and then
nothing. It has ended when there was nothing to answer. -/
theorem exists_answers (h : review.position? id = some cursor) (hstart : .start id ∉ steps) :
    ∃ (problems : List Problem) (silent : Nat) (cursor' : Cursor),
      answers id review steps = problems.map some ++ List.replicate silent none ∧
      problems.map Problem.limit? <+ cursor.ahead.map some ∧
      (review.after steps).position? id = some cursor' ∧
      (0 < silent ∨ cursor = .done → cursor' = .done) := by
  induction steps generalizing review cursor with
  | nil => exact ⟨[], 0, cursor, rfl, List.nil_sublist _, h, fun h => h.resolve_left (by decide)⟩
  | cons step rest ih =>
    rw [List.mem_cons, not_or] at hstart
    by_cases hnext : step = .next id
    · subst hnext
      obtain ⟨passed, hahead, htold, hended⟩ := review.feed.next_spec cursor
      obtain ⟨problems, silent, cursor', hanswers, hlimits, hposition, hdone⟩ :=
        ih (position?_next h) hstart.2
      rw [answers_next rest h, hanswers]
      cases hanswer : (review.feed.next cursor).1 with
      | none =>
        -- Nothing is ahead of the reader any more, so it has no problem left to tell.
        rw [hended hanswer] at hlimits
        have hnone : problems = [] := by simpa [Cursor.ahead] using hlimits
        refine ⟨[], silent + 1, cursor', ?_, List.nil_sublist _, hposition, fun _ => ?_⟩
        · rw [hnone]
          rfl
        · exact hdone (.inr (hended hanswer))
      | some p =>
        refine ⟨p :: problems, silent, cursor', rfl, ?_, hposition, fun h => hdone ?_⟩
        · have hp := review.feed.limits_sublist passed
          rw [htold, hanswer] at hp
          rw [hahead, List.map_append, List.map_cons]
          exact hp.append hlimits
        · refine h.imp_right fun hcursor => ?_
          subst hcursor
          rfl
    · have hposition : (review.step step).position? id = some cursor :=
        (position?_step_of_ne (Ne.symm hstart.1) hnext).trans h
      obtain ⟨problems, silent, cursor', hanswers, hrest⟩ := ih hposition hstart.2
      refine ⟨problems, silent, cursor', ?_, hrest⟩
      rw [answers, if_neg hnext, hanswers, List.nil_append]

/-- A limit that a reader had ahead and has no more was passed at one of the steps. -/
theorem exists_passing {cursor' : Cursor} {limit : Limit} (h : review.position? id = some cursor)
    (hstart : .start id ∉ steps) (hahead : limit ∈ cursor.ahead)
    (hposition : (review.after steps).position? id = some cursor')
    (hpassed : limit ∉ cursor'.ahead) : ∃ earlier later, steps = earlier ++ .next id :: later ∧
      (review.after earlier).Passes id limit := by
  induction steps generalizing review cursor with
  | nil =>
    cases h.symm.trans hposition
    exact absurd hahead hpassed
  | cons step rest ih =>
    rw [List.mem_cons, not_or] at hstart
    by_cases hnext : step = .next id
    · subst hnext
      by_cases hstill : limit ∈ (review.feed.next cursor).2.ahead
      · obtain ⟨earlier, later, rfl, hpasses⟩ :=
          ih (position?_next h) hstart.2 hstill hposition
        exact ⟨.next id :: earlier, later, rfl, hpasses⟩
      · exact ⟨[], rest, rfl, cursor, _, h, position?_next h, hahead, hstill⟩
    · have hsame : (review.step step).position? id = some cursor :=
        (position?_step_of_ne (Ne.symm hstart.1) hnext).trans h
      obtain ⟨earlier, later, rfl, hpasses⟩ := ih hsame hstart.2 hahead hposition
      exact ⟨step :: earlier, later, rfl, hpasses⟩

/-- A fresh reader that nothing interferes with tells all problems of the feed. -/
theorem freshAnswers_eq (review : Review) (id : String) :
    (review.freshAnswers id).reduceOption = review.feed.problems := by
  have hstart : (review.start id).position? id = some .start :=
    position?_setReader_self review id .start
  have hfirst := position?_next hstart
  have hsecond := position?_next hfirst
  rw [freshAnswers, answers_next _ hstart, answers_next _ hfirst, answers_next _ hsecond]
  simp only [feed_next, feed_start, answers]
  cases hfields : review.feed.fieldProblem? <;> cases htypes : review.feed.typeProblem? <;>
    simp [Feed.next, Feed.next.types, Feed.problems, hfields, htypes, List.reduceOption]

end Answers

/-- How a reader that stands at the start of a review tells of the limits during some steps. -/
structure ReadsLazily (review : Review) (id : String) (steps : List Step) : Prop where
  /-- It answers with at most one problem about fields, then one about types, then nothing. -/
  once : ∃ (problems : List Problem) (silent : Nat),
    answers id review steps = problems.map some ++ List.replicate silent none ∧
      problems.map Problem.limit? <+ [some .fields, some .types]
  /-- Each problem is one that a fresh reader would tell at that step, and lists all that the feed
  holds then. -/
  timely : ∀ earlier later p, steps = earlier ++ .next id :: later →
    ((review.after earlier).next id).1 = some p →
    (∀ fresh, some p ∈ (review.after earlier).freshAnswers fresh) ∧
      ∃ limit, p = (review.after earlier).feed.listing limit
  /-- A limit that is not kept when it is passed is told. -/
  told : ∀ earlier later limit, steps = earlier ++ .next id :: later →
    (review.after earlier).Passes id limit → 1 < (review.after earlier).feed.held limit →
    ((review.after earlier).next id).1 = some ((review.after earlier).feed.listing limit)
  /-- Once the reader has ended, a limit of which it did not tell was passed while it was kept. -/
  missed : none ∈ answers id review steps → ∀ limit,
    (∀ p, some p ∈ answers id review steps → p.limit? ≠ some limit) →
    ∃ earlier later, steps = earlier ++ .next id :: later ∧
      (review.after earlier).Passes id limit ∧ (review.after earlier).feed.held limit ≤ 1

theorem Passes.told {review : Review} {id : String} {limit : Limit}
    (h : review.Passes id limit) (hheld : 1 < review.feed.held limit) :
    (review.next id).1 = some (review.feed.listing limit) := by
  obtain ⟨cursor, cursor', hposition, hposition', hahead, hpassed⟩ := h
  cases (position?_next hposition).symm.trans hposition'
  rw [next_eq hposition]
  exact Feed.next_eq_of_passed hahead hpassed (Feed.excess?_eq_some.mpr ⟨hheld, rfl⟩)

theorem mem_problems_of_answer {review : Review} {id : String} {p : Problem}
    (h : (review.next id).1 = some p) : p ∈ review.feed.problems := by
  cases hposition : review.position? id with
  | none =>
    rw [position?] at hposition
    rw [next, hposition] at h
    cases h
  | some cursor =>
    rw [next_eq hposition] at h
    exact Feed.mem_problems_of_next h

theorem readsLazily {review : Review} {id : String} {steps : List Step}
    (h : review.position? id = some .start) (hstart : .start id ∉ steps) :
    ReadsLazily review id steps := by
  obtain ⟨problems, silent, cursor, hanswers, hlimits, hposition, hdone⟩ :=
    exists_answers h hstart
  refine ⟨⟨problems, silent, hanswers, hlimits⟩, ?_, ?_, ?_⟩
  · intro earlier later p _ hp
    have hmem := mem_problems_of_answer hp
    refine ⟨fun fresh => ?_, ?_⟩
    · rwa [← List.reduceOption_mem_iff, freshAnswers_eq]
    · rw [Feed.problems_eq, List.mem_filterMap] at hmem
      obtain ⟨limit, _, hexcess⟩ := hmem
      exact ⟨limit, (Feed.excess?_eq_some.mp hexcess).2⟩
  · intro earlier later limit _ hpasses hheld
    exact hpasses.told hheld
  · intro hended limit huntold
    have hsilent : 0 < silent := by
      rw [hanswers, List.mem_append] at hended
      rcases hended with hnone | hnone
      · simp at hnone
      · exact Nat.pos_of_ne_zero (List.mem_replicate.mp hnone).1
    have hahead : limit ∈ Cursor.start.ahead := by cases limit <;> simp [Cursor.ahead]
    have hpassed : limit ∉ cursor.ahead := by
      rw [hdone (.inl hsilent)]
      exact List.not_mem_nil
    obtain ⟨earlier, later, hsplit, hpasses⟩ :=
      exists_passing h hstart hahead hposition hpassed
    refine ⟨earlier, later, hsplit, hpasses, Nat.not_lt.mp fun hheld => ?_⟩
    -- A limit that was not kept would have been told there.
    have htold := mem_answers_of_split id review earlier later
    rw [hpasses.told hheld, ← hsplit] at htold
    exact huntold _ htold (Feed.limit?_listing _ limit)

end Review

open Review

/-- However mappings are added and readers started and asked, a feed holds exactly what the mappings
added so far collect, each entry once; readers change nothing about it, and one that starts now
tells its problems if nothing interferes. Each reader, from its start on, tells of the limits
lazily. -/
theorem readers_interleaved (target property : String) (before later : List Step) (id : String)
    (h : .start id ∉ later) :
    (∀ steps, ((opened target property).after steps).feed =
      collected target property (added steps)) ∧
    (∀ ms, (collected target property ms).fields.Nodup ∧
      ((collected target property ms).types.map word).Nodup) ∧
    (∀ (review : Review) (other : String), (review.start other).feed = review.feed ∧
      (review.next other).2.feed = review.feed ∧
      (review.freshAnswers other).reduceOption = review.feed.problems) ∧
    ReadsLazily ((opened target property).after (before ++ [.start id])) id later := by
  refine ⟨feed_after target property, fun ms => ⟨nodup_eraseDups _, ?_⟩, fun review other => ?_, ?_⟩
  · exact (nodup_eraseDups _).map word_injective
  · exact ⟨feed_start review other, feed_next review other, freshAnswers_eq review other⟩
  · rw [after_append]
    exact readsLazily (position?_setReader_self _ id .start) h

/-- Two fields of two types for one property. -/
def bornMappings : List Mapping :=
  [{ name := "born", field := "year", fragment := .node, role := .key },
    { name := "born", field := "date", fragment := .node, type := some .integer },
    { name := "born", field := "year", fragment := .node, type := some .date }]

/-- Mappings are added while the readers "r" and "s" are asked in turn. -/
def crossed : List Step :=
  [.add bornMappings[1], .next "s", .next "r", .add bornMappings[2], .next "s", .next "s"]

theorem crossed_lazily :
    ReadsLazily ((opened "Person" "born").after
      ([.start "r", .add bornMappings[0], .next "r"] ++ [.start "s"])) "s" crossed ∧
    answers "s" ((opened "Person" "born").after
      ([.start "r", .add bornMappings[0], .next "r"] ++ [.start "s"])) crossed =
        [some (.tooManyFields "born" "Person" ["year", "date"]),
          some (.tooManyTypes "born" "Person" [.integer, .date]), none] ∧
    answers "r" (opened "Person" "born")
      ([.start "r", .add bornMappings[0], .next "r"] ++ .start "s" :: crossed) = [none, none] :=
  ⟨(readers_interleaved "Person" "born" [.start "r", .add bornMappings[0], .next "r"] crossed "s"
    (by decide)).2.2.2, by decide, by decide⟩

end GraphImport.Rules
