import Mathlib.Data.Set.Insert
import Mathlib.Logic.Function.Basic
import UoscoreUedhoc.Lib.Runs

/-!
# Authenticated channels

A channel between parties of which each has a peer.  A party hands messages to
the channel, and the channel hands a party only messages of its peer.  It can
lose messages, repeat them and change their order; it cannot change them, make
them up or send them back.
-/

namespace UoscoreUedhoc.Channels

open UoscoreUedhoc.Runs

/-- What a step has to do with the channel. -/
inductive Action (π μ : Type) where
  | send (party : π) (message : μ)
  | deliver (party : π) (message : μ)
  | idle

/-- The messages that each party has handed to the channel. -/
abbrev Channel (π μ : Type) := π → Set μ

variable {π μ : Type}

/-- A channel to which nothing has been handed. -/
def Channel.empty : Channel π μ :=
  fun _ => ∅

/-- A channel with one more message of a party. -/
def Channel.send [DecidableEq π] (channel : Channel π μ) (party : π)
    (message : μ) : Channel π μ :=
  Function.update channel party (insert message (channel party))

abbrev ChannelEvent (π μ : Type) := Event (Channel π μ) (Action π μ) Unit

/-- Messages stay in the channel, and a party gets those of its peer. -/
def channelMachine [DecidableEq π] (peer : π → π) :
    Machine (Channel π μ) (Action π μ) Unit :=
  fun event =>
    match event.input with
    | .send party message =>
        event.after = event.before.send party message
    | .deliver party message =>
        message ∈ event.before (peer party) ∧ event.after = event.before
    | .idle => event.after = event.before

variable [DecidableEq π] {channel first last : Channel π μ}
  {party other : π} {message otherMessage : μ} {peer : π → π}
  {events : List (ChannelEvent π μ)} {event : ChannelEvent π μ}

theorem Channel.mem_send_iff :
    otherMessage ∈ channel.send party message other ↔
      (other = party ∧ otherMessage = message) ∨
        otherMessage ∈ channel other := by
  unfold Channel.send
  by_cases same : other = party
  · subst same
    rw [Function.update_self, Set.mem_insert_iff]
    simp
  · rw [Function.update_of_ne same]
    simp [same]

/-- A step hands a message to the channel or leaves it as it was. -/
theorem mem_after_iff (step : channelMachine peer event) :
    message ∈ event.after party ↔
      event.input = .send party message ∨ message ∈ event.before party := by
  unfold channelMachine at step
  cases called : event.input with
  | send sender sent =>
      rw [called] at step
      dsimp only at step
      rw [step, Channel.mem_send_iff, Action.send.injEq, eq_comm (a := party),
        eq_comm (a := message)]
  | deliver receiver delivered =>
      rw [called] at step
      rw [step.2]
      simp
  | idle =>
      rw [called] at step
      dsimp only at step
      rw [step]
      simp

/-- The channel holds what has been handed to it. -/
theorem mem_last_iff
    (run : Run (channelMachine peer) Channel.empty events last) :
    message ∈ last party ↔
      ∃ event ∈ events, event.input = .send party message := by
  let held : List (ChannelEvent π μ) → Channel π μ → Prop :=
    fun past channel => message ∈ channel party ↔
      ∃ event ∈ past, event.input = .send party message
  change held events last
  apply run.history
  · simp [held, Channel.empty]
  · intro past event _ step before
    change message ∈ event.before party ↔ _ at before
    change message ∈ event.after party ↔ _
    rw [mem_after_iff step, before]
    simp [or_comm]

/-- A party gets only what its peer has handed to the channel before. -/
theorem delivered_sent
    (run : Run (channelMachine peer) Channel.empty events last) :
    Throughout
      (fun past event => ∀ party message,
        event.input = .deliver party message →
        ∃ earlier ∈ past, earlier.input = .send (peer party) message)
      events := by
  intro past event rest split party message called
  obtain ⟨before, step, _⟩ := Run.split_iff.mp (split ▸ run)
  unfold channelMachine at step
  rw [called] at step
  exact (mem_last_iff before).mp step.1

end UoscoreUedhoc.Channels
