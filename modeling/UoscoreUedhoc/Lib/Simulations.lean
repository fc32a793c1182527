import Mathlib.Data.List.Forall2
import UoscoreUedhoc.Lib.Runs

/-!
# Simulations

A machine simulates another one when each of its steps is a step of the other
between states that are related to the past of the run.  A run of the one is
then a run of the other, and what holds of each step there together with the
steps before it holds here too.
-/

namespace UoscoreUedhoc.Runs

variable {σ ι ο τ κ π : Type}
  {concrete : Machine σ ι ο} {abstract : Machine τ κ π}
  {first last : σ} {events : List (Event σ ι ο)}
  {start : τ}
  {related : List (Event σ ι ο) → τ → Prop}
  {performs : Event σ ι ο → Event τ κ π → Prop}

/-- A run whose steps have counterparts in the abstract machine has a
counterpart there. -/
theorem Run.simulated (run : Run concrete first events last)
    (initial : related [] start)
    (counterpart : ∀ past event rest, events = past ++ event :: rest →
      concrete event → ∀ state, related past state →
      ∃ abstractEvent, abstractEvent.before = state ∧
        abstract abstractEvent ∧ performs event abstractEvent ∧
        related (past ++ [event]) abstractEvent.after) :
    ∃ abstractEvents final,
      Run abstract start abstractEvents final ∧
        List.Forall₂ performs events abstractEvents ∧
        related events final := by
  induction events using List.reverseRecOn generalizing last with
  | nil =>
      exact ⟨[], start, .nil start, .nil, initial⟩
  | append_singleton events event inductionHypothesis =>
      obtain ⟨before, step, _⟩ := Run.split_iff.mp run
      obtain ⟨abstractEvents, middle, abstractRun, performed, isRelated⟩ :=
        inductionHypothesis before fun past other rest split =>
          counterpart past other (rest ++ [event]) (by rw [split]; simp)
      obtain ⟨abstractEvent, rfl, abstractStep, eventPerformed, stillRelated⟩ :=
        counterpart events event [] rfl step middle isRelated
      refine
        ⟨abstractEvents ++ [abstractEvent], abstractEvent.after, ?_, ?_,
          stillRelated⟩
      · exact Run.split_iff.mpr ⟨abstractRun, abstractStep, .nil _⟩
      · exact List.rel_append performed (.cons eventPerformed .nil)

section Transfer

variable {α β : Type} {performs : α → β → Prop} {items : List α}
  {counterparts : List β} {holds : List α → α → Prop}
  {abstractHolds : List β → β → Prop}

/-- An item of a list and the items before it have counterparts. -/
theorem split_of_forall₂ (performed : List.Forall₂ performs items counterparts)
    {past rest : List α} {item : α} (split : items = past ++ item :: rest) :
    ∃ abstractPast counterpart abstractRest,
      counterparts = abstractPast ++ counterpart :: abstractRest ∧
        List.Forall₂ performs past abstractPast ∧
        performs item counterpart := by
  subst split
  induction past generalizing counterparts with
  | nil =>
      cases performed with
      | cons itemPerformed _ =>
          exact ⟨[], _, _, rfl, .nil, itemPerformed⟩
  | cons head past inductionHypothesis =>
      cases performed with
      | cons headPerformed restPerformed =>
          obtain ⟨abstractPast, counterpart, abstractRest, rfl, pastPerformed,
            itemPerformed⟩ := inductionHypothesis restPerformed
          exact
            ⟨_ :: abstractPast, counterpart, abstractRest, rfl,
              .cons headPerformed pastPerformed, itemPerformed⟩

theorem mem_of_forall₂ (performed : List.Forall₂ performs items counterparts)
    {counterpart : β} (member : counterpart ∈ counterparts) :
    ∃ item ∈ items, performs item counterpart := by
  induction performed with
  | nil =>
      cases member
  | @cons item other items others itemPerformed _ inductionHypothesis =>
      rcases List.mem_cons.mp member with rfl | later
      · exact ⟨item, List.mem_cons_self, itemPerformed⟩
      · obtain ⟨found, foundMember, foundPerformed⟩ :=
          inductionHypothesis later
        exact ⟨found, List.mem_cons_of_mem _ foundMember, foundPerformed⟩

/-- What each counterpart has together with those before it passes on. -/
theorem Throughout.of_forall₂
    (performed : List.Forall₂ performs items counterparts)
    (all : Throughout abstractHolds counterparts)
    (passes : ∀ past item abstractPast counterpart,
      List.Forall₂ performs past abstractPast → performs item counterpart →
      abstractHolds abstractPast counterpart → holds past item) :
    Throughout holds items := by
  intro past item rest split
  obtain ⟨abstractPast, counterpart, abstractRest, abstractSplit,
    pastPerformed, itemPerformed⟩ := split_of_forall₂ performed split
  apply passes past item abstractPast counterpart pastPerformed itemPerformed
  exact all abstractPast counterpart abstractRest abstractSplit

end Transfer

end UoscoreUedhoc.Runs
