import Mathlib.Data.List.Induction
import Mathlib.Tactic.Common

/-!
# Runs of a machine

A machine takes an input in a state, produces an output and moves to another
state.  A run lists its steps with the states around them, so that a property
of a run can speak about the state in which a step was taken.
-/

namespace UoscoreUedhoc.Runs

/-- One step of a run. -/
structure Event (σ ι ο : Type) where
  before : σ
  input : ι
  output : ο
  after : σ

variable {σ ι ο : Type}

/-- The steps a machine can take. -/
abbrev Machine (σ ι ο : Type) := Event σ ι ο → Prop

/-- A run from a state through a list of steps to a state. -/
inductive Run (machine : Machine σ ι ο) : σ → List (Event σ ι ο) → σ → Prop
  | nil (state : σ) : Run machine state [] state
  | cons {event : Event σ ι ο} {events : List (Event σ ι ο)} {last : σ}
      (step : machine event) (rest : Run machine event.after events last) :
      Run machine event.before (event :: events) last

variable {machine : Machine σ ι ο}
  {first last : σ} {events left right : List (Event σ ι ο)}
  {event : Event σ ι ο}

theorem Run.cons_iff :
    Run machine first (event :: events) last ↔
      first = event.before ∧ machine event ∧
        Run machine event.after events last := by
  constructor
  · intro run
    cases run with
    | cons step rest =>
        exact ⟨rfl, step, rest⟩
  · rintro ⟨rfl, step, rest⟩
    exact .cons step rest

theorem Run.nil_iff : Run machine first [] last ↔ first = last := by
  constructor
  · intro run
    cases run
    rfl
  · intro same
    rw [same]
    exact .nil last

theorem Run.append_iff :
    Run machine first (left ++ right) last ↔
      ∃ middle, Run machine first left middle ∧
        Run machine middle right last := by
  induction left generalizing first with
  | nil =>
      constructor
      · intro run
        exact ⟨first, .nil first, run⟩
      · intro split
        obtain ⟨middle, empty, run⟩ := split
        rw [Run.nil_iff.mp empty]
        exact run
  | cons event left inductionHypothesis =>
      simp only [List.cons_append, Run.cons_iff, inductionHypothesis]
      constructor
      · rintro ⟨rfl, step, middle, leftRun, rightRun⟩
        exact ⟨middle, ⟨rfl, step, leftRun⟩, rightRun⟩
      · rintro ⟨middle, ⟨rfl, step, leftRun⟩, rightRun⟩
        exact ⟨rfl, step, middle, leftRun, rightRun⟩

/-- Every event of a run is a step of the machine. -/
theorem Run.step_of_mem (run : Run machine first events last)
    (member : event ∈ events) : machine event := by
  induction run with
  | nil =>
      cases member
  | cons step _ inductionHypothesis =>
      rcases List.mem_cons.mp member with rfl | later
      · exact step
      · exact inductionHypothesis later

/-- Steps that lead back to where they were taken can be left out. -/
theorem Run.filter {keep : Event σ ι ο → Bool}
    (run : Run machine first events last)
    (skipped : ∀ event ∈ events, keep event = false →
      event.after = event.before) :
    Run machine first (events.filter keep) last := by
  induction run with
  | nil state =>
      exact .nil state
  | @cons event events _ step _ inductionHypothesis =>
      have rest := inductionHypothesis fun other member =>
        skipped other (List.mem_cons_of_mem _ member)
      cases kept : keep event with
      | true =>
          rw [List.filter_cons_of_pos kept]
          exact .cons step rest
      | false =>
          rw [List.filter_cons_of_neg (by simp [kept]),
            ← skipped event List.mem_cons_self kept]
          exact rest

/-- What every step of a run keeps holds at its end. -/
theorem Run.invariant {holds : σ → Prop}
    (run : Run machine first events last) (initial : holds first)
    (kept : ∀ event ∈ events, machine event →
      holds event.before → holds event.after) :
    holds last := by
  induction run with
  | nil =>
      exact initial
  | @cons event _ _ step _ inductionHypothesis =>
      apply inductionHypothesis
      · exact kept event List.mem_cons_self step initial
      · intro later member
        exact kept later (List.mem_cons_of_mem _ member)

/-- What every step of a run keeps holds before each of them. -/
theorem Run.invariant_before {holds : σ → Prop}
    (run : Run machine first events last) (initial : holds first)
    (kept : ∀ event ∈ events, machine event →
      holds event.before → holds event.after)
    (member : event ∈ events) : holds event.before := by
  obtain ⟨left, right, rfl⟩ := List.append_of_mem member
  obtain ⟨middle, leftRun, rightRun⟩ := Run.append_iff.mp run
  obtain ⟨rfl, _, _⟩ := Run.cons_iff.mp rightRun
  refine leftRun.invariant initial ?_
  intro earlier earlierMember
  exact kept earlier (List.mem_append_left _ earlierMember)

/-- A reflexive and transitive relation that every step respects relates the
ends of a run. -/
theorem Run.related {relation : σ → σ → Prop}
    [Std.Refl relation] [IsTrans σ relation]
    (run : Run machine first events last)
    (stepRelated : ∀ event ∈ events, machine event →
      relation event.before event.after) :
    relation first last := by
  refine run.invariant (refl first) ?_
  intro event member step related
  exact IsTrans.trans _ _ _ related (stepRelated event member step)

/-- A run up to one of its steps, the step, and the run after it. -/
theorem Run.split_iff :
    Run machine first (left ++ event :: right) last ↔
      Run machine first left event.before ∧ machine event ∧
        Run machine event.after right last := by
  rw [Run.append_iff]
  constructor
  · intro run
    obtain ⟨middle, before, rest⟩ := run
    obtain ⟨rfl, step, after⟩ := Run.cons_iff.mp rest
    exact ⟨before, step, after⟩
  · intro run
    obtain ⟨before, step, after⟩ := run
    exact ⟨event.before, before, .cons step after⟩

/-- What every step keeps of a state and the steps that led to it holds at the
end of a run. -/
theorem Run.history {holds : List (Event σ ι ο) → σ → Prop}
    (run : Run machine first events last) (initial : holds [] first)
    (kept : ∀ past, ∀ event ∈ events, machine event →
      holds past event.before → holds (past ++ [event]) event.after) :
    holds events last := by
  induction events using List.reverseRecOn generalizing last with
  | nil =>
      rw [← Run.nil_iff.mp run]
      exact initial
  | append_singleton events event inductionHypothesis =>
      obtain ⟨before, step, rest⟩ := Run.split_iff.mp run
      rw [← Run.nil_iff.mp rest]
      apply kept events event (by simp) step
      apply inductionHypothesis before
      intro past other member
      exact kept past other (List.mem_append_left _ member)

/-! ## The last step with a property -/

section LastWhere

variable {α : Type} {property : α → Prop} {items : List α} {item other : α}

/-- The item has the property and none behind it does. -/
def LastWhere (property : α → Prop) (items : List α) (item : α) : Prop :=
  ∃ front back, items = front ++ item :: back ∧ property item ∧
    ∀ later ∈ back, ¬ property later

theorem lastWhere_concat_self (holds : property item) :
    LastWhere property (items ++ [item]) item :=
  ⟨items, [], rfl, holds, fun _ member => by cases member⟩

theorem LastWhere.concat (last : LastWhere property items item)
    (fails : ¬ property other) :
    LastWhere property (items ++ [other]) item := by
  obtain ⟨front, back, rfl, holds, none⟩ := last
  refine ⟨front, back ++ [other], by simp, holds, ?_⟩
  intro later member
  rcases List.mem_append.mp member with earlier | same
  · exact none later earlier
  · rw [List.mem_singleton.mp same]
    exact fails

theorem not_lastWhere_nil : ¬ LastWhere property [] item := by
  intro last
  obtain ⟨front, back, empty, _⟩ := last
  simp at empty

/-- What the last item of a longer list can be. -/
theorem lastWhere_concat_iff :
    LastWhere property (items ++ [other]) item ↔
      (property other ∧ item = other) ∨
        (¬ property other ∧ LastWhere property items item) := by
  constructor
  · intro last
    obtain ⟨front, back, equal, holds, none⟩ := last
    induction back using List.reverseRecOn with
    | nil =>
        have same := List.append_inj_right' equal rfl
        rw [List.singleton_inj] at same
        rw [same]
        exact Or.inl ⟨holds, rfl⟩
    | append_singleton back final _ =>
        have shape : items ++ [other] = (front ++ item :: back) ++ [final] := by
          simpa using equal
        have same := List.append_inj_right' shape rfl
        rw [List.singleton_inj] at same
        subst same
        refine Or.inr ⟨none other (by simp), front, back, ?_, holds, ?_⟩
        · exact List.append_inj_left' shape rfl
        · intro later member
          exact none later (List.mem_append_left _ member)
  · intro cases
    rcases cases with ⟨holds, same⟩ | ⟨fails, last⟩
    · rw [same]
      exact lastWhere_concat_self holds
    · exact last.concat fails

/-- The last item with a property is the last one with any property that
implies it and that it has. -/
theorem LastWhere.of_implies {stronger : α → Prop}
    (last : LastWhere property items item) (holds : stronger item)
    (implies : ∀ other ∈ items, stronger other → property other) :
    LastWhere stronger items item := by
  obtain ⟨front, back, equal, _, none⟩ := last
  refine ⟨front, back, equal, holds, ?_⟩
  intro later member laterHolds
  apply none later member
  apply implies later _ laterHolds
  rw [equal]
  exact List.mem_append_right _ (List.mem_cons_of_mem _ member)

theorem LastWhere.mem (last : LastWhere property items item) :
    item ∈ items := by
  obtain ⟨front, back, equal, _⟩ := last
  rw [equal]
  simp

theorem LastWhere.holds (last : LastWhere property items item) :
    property item := by
  obtain ⟨_, _, _, holds, _⟩ := last
  exact holds

theorem LastWhere.unique (last : LastWhere property items item)
    (otherLast : LastWhere property items other) : item = other := by
  induction items using List.reverseRecOn with
  | nil =>
      exact absurd last not_lastWhere_nil
  | append_singleton items final inductionHypothesis =>
      rcases lastWhere_concat_iff.mp last with ⟨holds, same⟩ | ⟨fails, last⟩
      · rcases lastWhere_concat_iff.mp otherLast with
          ⟨_, otherSame⟩ | ⟨fails, _⟩
        · exact same.trans otherSame.symm
        · exact absurd holds fails
      · rcases lastWhere_concat_iff.mp otherLast with
          ⟨holds, _⟩ | ⟨_, otherLast⟩
        · exact absurd holds fails
        · exact inductionHypothesis last otherLast

end LastWhere

/-! ## Properties of each step and its past -/

section Throughout

variable {α : Type} {property : List α → α → Prop} {items : List α} {item : α}

/-- Every item has the property together with the items before it. -/
def Throughout (property : List α → α → Prop) (items : List α) : Prop :=
  ∀ past item rest, items = past ++ item :: rest → property past item

theorem throughout_nil : Throughout property [] := by
  intro past item rest split
  simp at split

theorem throughout_cons_iff :
    Throughout property (item :: items) ↔
      property [] item ∧
        Throughout (fun past other => property (item :: past) other) items := by
  constructor
  · intro all
    constructor
    · exact all [] item items rfl
    · intro past other rest split
      apply all (item :: past) other rest
      rw [split]
      rfl
  · intro all past other rest split
    obtain ⟨first, others⟩ := all
    cases past with
    | nil =>
        obtain ⟨same, _⟩ := List.cons.inj split
        rw [← same]
        exact first
    | cons head past =>
        obtain ⟨same, restSplit⟩ := List.cons.inj split
        rw [← same]
        exact others past other rest restSplit

theorem Throughout.front {back : List α}
    (all : Throughout property (items ++ back)) :
    Throughout property items := by
  intro past other rest split
  apply all past other (rest ++ back)
  rw [split]
  simp

end Throughout

/-- What only steps with a property change is, at the end of a run, what the
last of them left. -/
theorem Run.since_last {β : Type} (property : Event σ ι ο → Prop)
    (part : σ → β) (run : Run machine first events last)
    (unchanged : ∀ event ∈ events, machine event → ¬ property event →
      part event.after = part event.before) :
    ((∀ event ∈ events, ¬ property event) ∧ part last = part first) ∨
      ∃ event, LastWhere property events event ∧
        part last = part event.after := by
  induction events using List.reverseRecOn generalizing last with
  | nil =>
      rw [← Run.nil_iff.mp run]
      refine Or.inl ⟨?_, rfl⟩
      intro event member
      cases member
  | append_singleton events event inductionHypothesis =>
      obtain ⟨before, step, rest⟩ := Run.split_iff.mp run
      rw [← Run.nil_iff.mp rest]
      by_cases holds : property event
      · exact Or.inr ⟨event, lastWhere_concat_self holds, rfl⟩
      · rw [unchanged event (by simp) step holds]
        have earlier :=
          inductionHypothesis before fun other member =>
            unchanged other (List.mem_append_left _ member)
        rcases earlier with ⟨none, same⟩ | ⟨other, isLast, same⟩
        · refine Or.inl ⟨?_, same⟩
          intro other member
          rcases List.mem_append.mp member with earlier | equal
          · exact none other earlier
          · rw [List.mem_singleton.mp equal]
            exact holds
        · exact Or.inr ⟨other, isLast.concat holds, same⟩

end UoscoreUedhoc.Runs
