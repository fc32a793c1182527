import UoscoreUedhoc.Oscore.KeySeparation
import UoscoreUedhoc.Oscore.KidContexts

/-!
# The keys of a party

The keys of a context come from the IDs of its parameters and from some ID
context no longer than theirs, whatever was called on it: also where
`context_update` fails between two derivations, and the keys are then those of
different ID contexts.  Where HKDF does not collide on the infos of the
parameters, no key a context encrypts with is one that it decrypts with.
-/

namespace UoscoreUedhoc.Oscore

open UoscoreUedhoc
open UoscoreUedhoc.Runs
open Update

variable {platform : Platform} {params : OscoreInitParams}

/-! ## Where keys come from -/

/-- The key is derived from the ID and some ID context that the parameters
allow. -/
def KeyOf (platform : Platform) (params : OscoreInitParams) (id key : Bytes) :
    Prop :=
  ∃ idContext info, idContext.length ≤ params.idContext.length ∧
    oscoreCreateHkdfInfo platform.toCborEncoder id idContext params.aeadAlg
      .key = .ok info ∧
    platform.hkdfSha256 params.masterSecret params.masterSalt info
      senderKeyLen = some key

/-- Both keys come from the IDs of the parameters. -/
structure KeysOf (platform : Platform) (params : OscoreInitParams)
    (c : Context) : Prop where
  parameters : HasParameters params c
  idContext : c.cc.idContext.length ≤ params.idContext.length
  senderKey : KeyOf platform params params.senderId c.sc.senderKey
  recipientKey : KeyOf platform params params.recipientId c.rc.recipientKey

theorem HasParameters.keyOf {c : Context} {id key : Bytes}
    (has : HasParameters params c)
    (fits : c.cc.idContext.length ≤ params.idContext.length)
    (derived : derive platform c.cc id .key senderKeyLen = .ok key) :
    KeyOf platform params id key := by
  unfold derive at derived
  rw [has.aeadAlg, has.masterSecret, has.masterSalt] at derived
  obtain ⟨info, created, derived⟩ := outcome_bind_eq_ok.mp derived
  split at derived
  · exact ⟨_, info, fits, created, tryExpect_eq_ok.mp derived⟩
  · cases derived

theorem Initialised.keysOf {c : Context}
    (initialised : Initialised platform params c) :
    KeysOf platform params c := by
  have has := initialised.hasParameters
  have fits : c.cc.idContext.length ≤ params.idContext.length :=
    (congrArg List.length initialised.idContext).le
  have keys := initialised_keysDerived initialised
  have sender := keys.senderKey
  have recipient := keys.recipientKey
  rw [has.senderId] at sender
  rw [has.recipientId] at recipient
  exact ⟨has, fits, has.keyOf fits sender, has.keyOf fits recipient⟩

/-! ## Every call keeps it -/

theorem KeysOf.of_same {before after : Context}
    (keys : KeysOf platform params before)
    (same : SameParameters before after)
    (idContext : after.cc.idContext.length ≤ before.cc.idContext.length)
    (senderKey : after.sc.senderKey = before.sc.senderKey)
    (recipientKey : after.rc.recipientKey = before.rc.recipientKey) :
    KeysOf platform params after := by
  refine
    ⟨keys.parameters.of_same same, idContext.trans keys.idContext, ?_, ?_⟩
  · rw [senderKey]
    exact keys.senderKey
  · rw [recipientKey]
    exact keys.recipientKey

theorem kidContextUpdate_keysOf (newKidContext : ByteArrayView) :
    Keeps (Preserves (KeysOf platform params))
      (kidContextUpdate platform newKidContext) := by
  refine kidContextUpdate_keeps_of newKidContext ?_ ?_ ?_ ?_ ?_
  · intro c kidContext _ keys
    exact keys.of_same ⟨rfl, rfl, rfl, rfl, rfl, rfl, rfl⟩ le_rfl rfl rfl
  · intro c idContext shorter keys
    exact keys.of_same ⟨rfl, rfl, rfl, rfl, rfl, rfl, rfl⟩ shorter rfl rfl
  · intro c commonIv _ keys
    exact keys.of_same ⟨rfl, rfl, rfl, rfl, rfl, rfl, rfl⟩ le_rfl rfl rfl
  · intro c senderKey derived keys
    have has := keys.parameters
    unfold deriveSenderKey at derived
    rw [has.senderId] at derived
    exact
      ⟨has.of_same ⟨rfl, rfl, rfl, rfl, rfl, rfl, rfl⟩, keys.idContext,
        has.keyOf keys.idContext derived, keys.recipientKey⟩
  · intro c recipientKey derived keys
    have has := keys.parameters
    unfold deriveRecipientKey at derived
    rw [has.recipientId] at derived
    exact
      ⟨has.of_same ⟨rfl, rfl, rfl, rfl, rfl, rfl, rfl⟩, keys.idContext,
        keys.senderKey, has.keyOf keys.idContext derived⟩

theorem KeysOf.of_sameKeys {before after : Context}
    (keys : KeysOf platform params before) (same : SameKeys before after) :
    KeysOf platform params after := by
  apply keys.of_same same.sameParameters
  · rw [same.cc]
  · exact same.senderKey
  · rw [same.rc]

theorem CallRun.keysOf {first last : Context} {events : List CallEvent}
    (run : CallRun platform first events last)
    (initial : KeysOf platform params first) : KeysOf platform params last :=
  run.invariant_of (fun _ _ same keys => keys.of_sameKeys same)
    (fun _ _ keys =>
      keys.of_same ⟨rfl, rfl, rfl, rfl, rfl, rfl, rfl⟩ le_rfl rfl rfl)
    (fun _ _ _ keys =>
      keys.of_same ⟨rfl, rfl, rfl, rfl, rfl, rfl, rfl⟩ le_rfl rfl rfl)
    (fun _ _ keys =>
      keys.of_same ⟨rfl, rfl, rfl, rfl, rfl, rfl, rfl⟩ le_rfl rfl rfl)
    kidContextUpdate_keysOf initial

/-! ## Both directions -/

/-- HKDF has no two infos of these parameters with one output: those with
either ID and an ID context no longer than theirs. -/
def CollisionFree (platform : Platform) (params : OscoreInitParams) : Prop :=
  ∀ leftId ∈ [params.senderId, params.recipientId],
  ∀ rightId ∈ [params.senderId, params.recipientId],
  ∀ leftContext rightContext key : Bytes,
    leftContext.length ≤ params.idContext.length →
    rightContext.length ≤ params.idContext.length →
    let info := fun id idContext =>
      hkdfInfo platform.toCborEncoder id idContext params.aeadAlg .key
    platform.hkdfSha256 params.masterSecret params.masterSalt
        (info leftId leftContext) senderKeyLen = some key →
      platform.hkdfSha256 params.masterSecret params.masterSalt
        (info rightId rightContext) senderKeyLen = some key →
      info leftId leftContext = info rightId rightContext

/-- A key of one ID is none of the other. -/
theorem KeyOf.ne (canonical : platform.toCborEncoder.IsCanonical)
    (different : params.senderId ≠ params.recipientId)
    (collisionFree : CollisionFree platform params)
    {senderKey recipientKey : Bytes}
    (sender : KeyOf platform params params.senderId senderKey)
    (recipient : KeyOf platform params params.recipientId recipientKey) :
    senderKey ≠ recipientKey := by
  rintro rfl
  obtain ⟨leftContext, left, leftFits, leftCreated, leftDerived⟩ := sender
  obtain ⟨rightContext, right, rightFits, rightCreated, rightDerived⟩ :=
    recipient
  rw [oscoreCreateHkdfInfo_eq] at leftCreated rightCreated
  obtain ⟨short, rfl⟩ := oscoreCreateHkdfInfoInto_eq_ok.mp leftCreated
  obtain ⟨_, rfl⟩ := oscoreCreateHkdfInfoInto_eq_ok.mp rightCreated
  have same :=
    collisionFree params.senderId (by simp) params.recipientId (by simp)
      leftContext rightContext senderKey leftFits rightFits leftDerived
      rightDerived
  have fits := lt_of_le_of_lt short (UInt32.toNat_lt _)
  exact different (hkdfInfo_injective canonical fits same).1

end UoscoreUedhoc.Oscore
