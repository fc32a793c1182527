import UoscoreUedhoc.Oscore.Calls

/-!
# Rejected packets

`oscore2coap` writes the fields of a request into the context before it knows
whether the request is authentic, and takes nothing back.  A rejected packet
therefore leaves the context as it was only where it did not get as far as
`context_update`, or where `context_update` found there what it writes.
-/

namespace UoscoreUedhoc.Oscore

open UoscoreUedhoc
open UoscoreUedhoc.Runs
open Update

/-! ## Requests that reach the update -/

/-- The input is an OSCORE request whose fields `context_update` gets. -/
structure ReachesUpdate (c : Context) (input : Bytes) (packet : OCoapPacket)
    (option : CompressedOscoreOption) (first : UInt8)
    (piv kidContext : ByteArrayView) : Prop where
  parsed : buf2coap input = .ok packet
  optionParsed : oscoreOptionParser packet = .ok (option, true)
  request : isRequest packet = true
  fields : RequestFields c option first piv kidContext

theorem ReachesUpdate.unique {c : Context} {input : Bytes}
    {packet packet' : OCoapPacket} {option option' : CompressedOscoreOption}
    {first first' : UInt8} {piv piv' kidContext kidContext' : ByteArrayView}
    (reaches : ReachesUpdate c input packet option first piv kidContext)
    (other : ReachesUpdate c input packet' option' first' piv' kidContext') :
    packet' = packet ∧ first' = first ∧ piv' = piv ∧
      kidContext' = kidContext := by
  have parsed := other.parsed
  rw [reaches.parsed, Except.ok.injEq] at parsed
  subst parsed
  have optionParsed := other.optionParsed
  rw [reaches.optionParsed] at optionParsed
  cases optionParsed
  have sameFirst := other.fields.first
  rw [reaches.fields.first, Except.ok.injEq] at sameFirst
  have samePiv := other.fields.piv
  rw [reaches.fields.piv, Except.ok.injEq] at samePiv
  have sameContext := other.fields.kidContext
  rw [reaches.fields.kidContext, Option.some.injEq] at sameContext
  exact ⟨rfl, sameFirst.symm, samePiv.symm, sameContext.symm⟩

/-- Any other input leaves the context as it is, whatever the outcome. -/
theorem oscore2coap_of_not_reaches {platform : Platform} {input : Bytes}
    {capacity : Nat} {c : Context}
    (unreached : ∀ packet option first piv kidContext,
      ¬ ReachesUpdate c input packet option first piv kidContext) :
    (exec (oscore2coap platform input capacity) c).2 = c := by
  cases parsed : buf2coap input with
  | error fault =>
      unfold oscore2coap
      rw [exec_lift_bind, parsed]
      rfl
  | ok packet =>
      cases request : isRequest packet with
      | false =>
          exact oscore2coap_of_not_isRequest c parsed request
      | true =>
          unfold oscore2coap
          rw [exec_lift_bind, parsed, andThen_ok, exec_lift_bind]
          cases optionParsed : oscoreOptionParser packet with
          | error fault =>
              rfl
          | ok parsedOption =>
              obtain ⟨option, flag⟩ := parsedOption
              rw [andThen_ok, exec_ite]
              cases flag with
              | false =>
                  rfl
              | true =>
                  rw [if_pos rfl]
                  have unread : ∀ first piv kidContext,
                      ¬ RequestFields c option first piv kidContext := by
                    intro first piv kidContext fields
                    exact
                      unreached packet option first piv kidContext
                        ⟨parsed, optionParsed, request, fields⟩
                  unfold oscorePacketDecrypt
                  rw [exec_bind, exec_lift_bind]
                  cases orUndefined packet.options with
                  | error fault =>
                      rfl
                  | ok options =>
                      obtain ⟨fault, refused⟩ :=
                        @exec_requestAccept_of_not_fields platform options
                          option c unread
                      rw [andThen_ok, exec_bind, exec_whenRequest,
                        if_pos request, refused]

/-- What follows `context_update` for a request. -/
def afterUpdate (platform : Platform) (packet : OCoapPacket) (first : UInt8)
    (capacity : Nat) (c : Context) : Outcome (Option Bytes) × Context :=
  match payloadDecrypt platform c packet with
  | .error fault => (.error fault, c)
  | .ok plaintext =>
      ((deliver plaintext packet capacity).map some, c.recordPiv first)

theorem afterUpdate_context (platform : Platform) (packet : OCoapPacket)
    (first : UInt8) (capacity : Nat) (c : Context) :
    (afterUpdate platform packet first capacity c).2 = c ∨
      (afterUpdate platform packet first capacity c).2 = c.recordPiv first := by
  unfold afterUpdate
  cases payloadDecrypt platform c packet with
  | error fault =>
      exact Or.inl rfl
  | ok plaintext =>
      exact Or.inr rfl

theorem exec_oscore2coap_of_reaches (platform : Platform) {input : Bytes}
    (capacity : Nat) {c : Context} {packet : OCoapPacket}
    {option : CompressedOscoreOption} {first : UInt8}
    {piv kidContext : ByteArrayView}
    (reaches : ReachesUpdate c input packet option first piv kidContext) :
    ∃ options,
      exec (oscore2coap platform input capacity) c =
        match exec (contextUpdate platform .server options piv kidContext)
            c with
        | (.error fault, between) => (.error fault, between)
        | (.ok _, between) =>
            afterUpdate platform packet first capacity between := by
  obtain ⟨parsed, optionParsed, request, fields⟩ := reaches
  obtain ⟨options, present⟩ : ∃ options, packet.options = some options := by
    unfold oscoreOptionParser at optionParsed
    obtain ⟨options, present, _⟩ := outcome_bind_eq_ok.mp optionParsed
    exact ⟨options, orUndefined_eq_ok.mp present⟩
  refine ⟨options, ?_⟩
  unfold oscore2coap oscorePacketDecrypt
  rw [exec_lift_bind, parsed, andThen_ok, exec_lift_bind, optionParsed,
    andThen_ok, exec_ite, if_pos rfl, exec_bind, exec_lift_bind, present,
    orUndefined_some, andThen_ok, exec_bind, exec_whenRequest, if_pos request,
    exec_requestAccept fields]
  generalize exec (contextUpdate platform .server options piv kidContext) c =
    step
  obtain ⟨outcome, between⟩ := step
  cases outcome with
  | error fault =>
      rfl
  | ok done =>
      dsimp only
      unfold afterUpdate
      rw [exec_get_bind, exec_lift_bind]
      cases payloadDecrypt platform between packet with
      | error fault =>
          rfl
      | ok plaintext =>
          rw [andThen_ok, exec_bind, exec_whenRequest, if_pos request]
          unfold replayWindowUpdate
          rw [exec_lift_bind, fields.first, andThen_ok, exec_modify]
          dsimp only
          rw [exec_pure]
          dsimp only
          rw [exec_lift_bind]
          cases deliver plaintext packet capacity with
          | error fault =>
              rfl
          | ok output =>
              rfl

/-! ## Updates that change nothing -/

/-- `context_update`, and where the payload decrypts the update of the replay
window, write what the context holds.  With a KID context that does not fit,
`context_update` stops before it writes more than the Partial IV and its own
copy of the KID context. -/
def FindsItsValues (platform : Platform) (c : Context) (packet : OCoapPacket)
    (first : UInt8) (piv kidContext : ByteArrayView) : Prop :=
  piv.content = c.rrc.piv ∧
    if arrayEquals c.cc.idContext kidContext = .ok true then
      createNonce c.rrc.kid c.rrc.piv c.cc.commonIv = .ok c.rrc.nonce ∧
        if (requestAad platform.toCborEncoder c).length ≤
            c.rrc.aad.length then
          requestAad platform.toCborEncoder c = c.rrc.aad ∧
            ((payloadDecrypt platform c packet).isOk →
              updateReplayWindow first.toUInt64 c.rc.replayWindow =
                c.rc.replayWindow)
        else
          platform.residue (requestAad platform.toCborEncoder c) c.rrc.aad =
            c.rrc.aad
    else
      maxKidContextLen < kidContext.len ∨
        (c.cc.idContext.length < kidContext.len ∧
          c.rrc.kidContext = kidContext.content)

/-- A KID context that is refused for its length is not taken over. -/
theorem kidContextUpdate_unchanged_iff {platform : Platform}
    {kidContext : ByteArrayView} {c after : Context} {code : Err}
    (different : arrayEquals c.cc.idContext kidContext ≠ .ok true)
    (failed :
      exec (kidContextUpdate platform kidContext) c =
        (.error (.err code), after)) :
    after = c ↔
      maxKidContextLen < kidContext.len ∨
        (c.cc.idContext.length < kidContext.len ∧
          c.rrc.kidContext = kidContext.content) := by
  unfold kidContextUpdate at failed
  simp only [exec_lift_bind, exec_modify_bind, exec_get_bind, exec_modify]
    at failed
  rw [andThen_eq_error] at failed
  rcases failed with ⟨refused, rfl⟩ | ⟨copy, copied, failed⟩
  · simp [memcpyS_eq_err refused]
  · obtain ⟨short, inBounds, rfl⟩ := memcpyS_eq_ok.mp copied
    have notLong : ¬ maxKidContextLen < kidContext.len := not_lt.mpr short
    rw [andThen_eq_error] at failed
    rcases failed with ⟨refused, rfl⟩ | ⟨idContext, copied, failed⟩
    · have long := memcpyS_eq_err refused
      simp only [notLong, false_or, long, true_and]
      constructor
      · intro same
        exact (congrArg (fun c => c.rrc.kidContext) same).symm
      · intro same
        rw [ByteArrayView.content] at same
        rw [← same]
    · obtain ⟨fits, _, rfl⟩ := memcpyS_eq_ok.mp copied
      have changed : after.cc.idContext = kidContext.content := by
        simp only [andThen_eq_error] at failed
        rcases failed with ⟨_, rfl⟩ | ⟨_, _, ⟨_, rfl⟩ | ⟨_, _, failed⟩⟩
        · rfl
        · rfl
        · rcases failed with ⟨_, rfl⟩ | ⟨_, _, failed⟩
          · rfl
          · cases failed
      constructor
      · intro same
        rw [same] at changed
        exact absurd (arrayEquals_eq_true.mpr ⟨inBounds, changed.symm⟩) different
      · intro refused
        omega

theorem Context.setPiv_eq_self {c : Context} {piv : Bytes} :
    c.setPiv piv = c ↔ piv = c.rrc.piv := by
  constructor
  · intro same
    exact congrArg (fun c => c.rrc.piv) same
  · intro same
    rw [same]
    rfl

theorem Context.setNonceAndAad_eq_self {c : Context} {nonce aad : Bytes} :
    c.setNonceAndAad nonce aad = c ↔
      nonce = c.rrc.nonce ∧ aad = c.rrc.aad := by
  constructor
  · intro same
    exact
      ⟨congrArg (fun c => c.rrc.nonce) same,
        congrArg (fun c => c.rrc.aad) same⟩
  · intro same
    rw [same.1, same.2]
    rfl

theorem Context.recordPiv_eq_self {c : Context} {nonce aad : Bytes}
    {first : UInt8} :
    (c.setNonceAndAad nonce aad).recordPiv first = c ↔
      c.setNonceAndAad nonce aad = c ∧
        updateReplayWindow first.toUInt64 c.rc.replayWindow =
          c.rc.replayWindow := by
  constructor
  · intro same
    refine ⟨Context.setNonceAndAad_eq_self.mpr ⟨?_, ?_⟩, ?_⟩
    · exact congrArg (fun c => c.rrc.nonce) same
    · exact congrArg (fun c => c.rrc.aad) same
    · exact congrArg (fun c => c.rc.replayWindow) same
  · intro same
    obtain ⟨written, recorded⟩ := same
    rw [written]
    unfold Context.recordPiv
    rw [recorded]

/-- From the nonce on, a rejected request leaves the context as it is when it
finds its nonce, its AAD and its replay window there. -/
theorem nonceAndAadUpdate_then_unchanged_iff {platform : Platform}
    {options : List OCoapOption} {packet : OCoapPacket} {first : UInt8}
    {capacity : Nat} {c after : Context} {code : Err}
    (failed :
      (match exec (nonceAndAadUpdate platform options) c with
        | (.error fault, between) => (.error fault, between)
        | (.ok _, between) =>
            afterUpdate platform packet first capacity between) =
        (.error (.err code), after)) :
    after = c ↔
      createNonce c.rrc.kid c.rrc.piv c.cc.commonIv = .ok c.rrc.nonce ∧
        if (requestAad platform.toCborEncoder c).length ≤
            c.rrc.aad.length then
          requestAad platform.toCborEncoder c = c.rrc.aad ∧
            ((payloadDecrypt platform c packet).isOk →
              updateReplayWindow first.toUInt64 c.rc.replayWindow =
                c.rc.replayWindow)
        else
          platform.residue (requestAad platform.toCborEncoder c) c.rrc.aad =
            c.rrc.aad := by
  rw [exec_nonceAndAadUpdate] at failed
  cases created : createNonce c.rrc.kid c.rrc.piv c.cc.commonIv with
  | error fault =>
      rw [created] at failed
      simp only [Prod.mk.injEq, Except.error.injEq] at failed
      rw [failed.1] at created
      exact absurd created createNonce_ne_err
  | ok nonce =>
      rw [created] at failed
      simp only [Except.ok.injEq]
      by_cases fits :
          (requestAad platform.toCborEncoder c).length ≤ c.rrc.aad.length
      · simp only [if_pos fits] at failed ⊢
        rw [← and_assoc, ← Context.setNonceAndAad_eq_self]
        unfold afterUpdate at failed
        cases decrypted : payloadDecrypt platform
            (c.setNonceAndAad nonce (requestAad platform.toCborEncoder c))
            packet with
        | error fault =>
            rw [decrypted] at failed
            obtain ⟨_, rfl⟩ := Prod.mk.inj failed
            constructor
            · intro same
              refine ⟨same, ?_⟩
              intro decrypts
              rw [same] at decrypted
              rw [decrypted] at decrypts
              cases decrypts
            · intro same
              exact same.1
        | ok plaintext =>
            rw [decrypted] at failed
            obtain ⟨_, rfl⟩ := Prod.mk.inj failed
            rw [Context.recordPiv_eq_self]
            apply and_congr_right
            intro same
            rw [same] at decrypted
            rw [decrypted]
            simp [Except.isOk, Except.toBool]
      · simp only [if_neg fits, fail, Prod.mk.injEq] at failed ⊢
        rw [← failed.2]
        exact Context.setNonceAndAad_eq_self

/-- From the nonce on, only the nonce, the AAD and the replay window change. -/
theorem nonceAndAadUpdate_then_keeps {platform : Platform}
    {options : List OCoapOption} {packet : OCoapPacket} {first : UInt8}
    {capacity : Nat} {c after : Context} {outcome : Outcome (Option Bytes)}
    (done :
      (match exec (nonceAndAadUpdate platform options) c with
        | (.error fault, between) => (.error fault, between)
        | (.ok _, between) =>
            afterUpdate platform packet first capacity between) =
        (outcome, after)) :
    after.rrc.piv = c.rrc.piv ∧ after.cc = c.cc := by
  obtain ⟨nonce, aad, written⟩ := nonceAndAadUpdate_same platform options c
  generalize exec (nonceAndAadUpdate platform options) c = step
    at done written
  obtain ⟨result, between⟩ := step
  dsimp only at written
  subst written
  cases result with
  | error fault =>
      obtain ⟨_, rfl⟩ := Prod.mk.inj done
      exact ⟨rfl, rfl⟩
  | ok _ =>
      dsimp only at done
      have final :=
        afterUpdate_context platform packet first capacity
          (c.setNonceAndAad nonce aad)
      rw [done] at final
      rcases final with rfl | rfl
      · exact ⟨rfl, rfl⟩
      · exact ⟨rfl, rfl⟩

/-- With another KID context, a rejected request leaves the context as it is
when its Partial IV is the one there and its KID context is refused. -/
theorem kidContextUpdate_then_unchanged_iff {platform : Platform}
    {options : List OCoapOption} {packet : OCoapPacket} {first : UInt8}
    {capacity : Nat} {c after : Context} {piv : Bytes}
    {kidContext : ByteArrayView} {code : Err}
    (compared : arrayEquals c.cc.idContext kidContext = .ok false)
    (failed :
      (match
          exec
            (kidContextUpdate platform kidContext >>= fun _ =>
              nonceAndAadUpdate platform options)
            (c.setPiv piv) with
        | (.error fault, between) => (.error fault, between)
        | (.ok _, between) =>
            afterUpdate platform packet first capacity between) =
        (.error (.err code), after)) :
    after = c ↔
      piv = c.rrc.piv ∧
        (maxKidContextLen < kidContext.len ∨
          (c.cc.idContext.length < kidContext.len ∧
            c.rrc.kidContext = kidContext.content)) := by
  rw [exec_bind] at failed
  have kept := kidContextUpdate_keeps platform kidContext (c.setPiv piv)
  cases updated : exec (kidContextUpdate platform kidContext) (c.setPiv piv) with
  | mk outcome between =>
      rw [updated] at failed kept
      cases outcome with
      | error fault =>
          simp only [Prod.mk.injEq, Except.error.injEq] at failed
          obtain ⟨rfl, rfl⟩ := failed
          have different :
              arrayEquals (c.setPiv piv).cc.idContext kidContext ≠
                .ok true := by
            rw [show (c.setPiv piv).cc = c.cc from rfl, compared]
            simp
          have unchanged := kidContextUpdate_unchanged_iff different updated
          by_cases samePiv : piv = c.rrc.piv
          · rw [Context.setPiv_eq_self.mpr samePiv] at unchanged
            rw [unchanged, and_iff_right samePiv]
          · constructor
            · intro same
              rw [same] at kept
              exact absurd kept.piv.symm samePiv
            · intro found
              exact absurd found.1 samePiv
      | ok done =>
          dsimp only at failed
          obtain ⟨inBounds, shortKid, shortId, _, _, _, _, _, _, rfl⟩ :=
            kidContextUpdate_eq_ok.mp updated
          have written := (nonceAndAadUpdate_then_keeps failed).2
          constructor
          · intro same
            rw [same] at written
            have equal : arrayEquals c.cc.idContext kidContext = .ok true := by
              rw [arrayEquals_eq_true, written]
              exact ⟨inBounds, rfl⟩
            rw [compared] at equal
            cases equal
          · intro found
            have notLong : ¬ (c.cc.idContext.length < kidContext.len) :=
              not_lt.mpr shortId
            obtain ⟨_, long | long⟩ := found
            · omega
            · exact absurd long.1 notLong

/-- The writes of a rejected request are those of `context_update` and of the
replay window. -/
theorem ReachesUpdate.unchanged_iff {platform : Platform} {input : Bytes}
    {capacity : Nat} {c after : Context} {packet : OCoapPacket}
    {option : CompressedOscoreOption} {first : UInt8}
    {piv kidContext : ByteArrayView} {code : Err}
    (reaches : ReachesUpdate c input packet option first piv kidContext)
    (short : piv.len ≤ maxPivLen)
    (failed :
      exec (oscore2coap platform input capacity) c =
        (.error (.err code), after)) :
    after = c ↔ FindsItsValues platform c packet first piv kidContext := by
  obtain ⟨options, step⟩ :=
    exec_oscore2coap_of_reaches platform capacity reaches
  rw [step] at failed
  unfold contextUpdate at failed
  simp only [exec_bind] at failed
  rw [exec_serverUpdate] at failed
  unfold FindsItsValues
  cases copied : memcpyS maxPivLen piv.ptr piv.len with
  | error fault =>
      rw [copied] at failed
      simp only [Prod.mk.injEq, Except.error.injEq] at failed
      rw [failed.1] at copied
      have long := memcpyS_eq_err copied
      omega
  | ok bytes =>
      obtain ⟨_, _, content⟩ := memcpyS_eq_ok.mp copied
      rw [← ByteArrayView.content] at content
      subst content
      rw [copied] at failed
      cases compared : arrayEquals c.cc.idContext kidContext with
      | error fault =>
          rw [compared] at failed
          simp only [Prod.mk.injEq, Except.error.injEq] at failed
          rw [failed.1] at compared
          exact absurd compared arrayEquals_ne_err
      | ok same =>
          rw [compared] at failed
          cases same with
          | true =>
              dsimp only at failed
              rw [if_pos rfl]
              by_cases samePiv : piv.content = c.rrc.piv
              · rw [Context.setPiv_eq_self.mpr samePiv] at failed
                have unchanged := nonceAndAadUpdate_then_unchanged_iff failed
                rw [unchanged, and_iff_right samePiv]
              · have written := (nonceAndAadUpdate_then_keeps failed).1
                constructor
                · intro same
                  rw [same] at written
                  exact absurd written.symm samePiv
                · intro found
                  exact absurd found.1 samePiv
          | false =>
              dsimp only at failed
              rw [← exec_bind] at failed
              rw [if_neg (by simp)]
              exact kidContextUpdate_then_unchanged_iff compared failed

/-! ## The length of the Partial IV -/

/-- The Partial IV of a compressed option, where it has been written, fits
into its array of the context. -/
def PivFits (out : CompressedOscoreOption) : Prop :=
  ∀ len, out.pivLen = some len → len ≤ maxPivLen

theorem pivNBits_le {first : UInt8}
    (notReserved : ¬ (first &&& compOscoreOptPivNMask = 6 ∨
      first &&& compOscoreOptPivNMask = 7)) :
    (first &&& compOscoreOptPivNMask).toNat ≤ maxPivLen := by
  have bounded : first &&& compOscoreOptPivNMask ≤ 7 := by
    have mask : (first &&& compOscoreOptPivNMask).toNat ≤ 7 := by
      rw [UInt8.toNat_and]
      exact Nat.and_le_right
    exact UInt8.le_iff_toNat_le.mpr mask
  generalize first &&& compOscoreOptPivNMask = n at notReserved bounded ⊢
  rw [not_or] at notReserved
  have notSix : n.toNat ≠ 6 := fun same =>
    notReserved.1 (UInt8.toNat_inj.mp same)
  have notSeven : n.toNat ≠ 7 := fun same =>
    notReserved.2 (UInt8.toNat_inj.mp same)
  have small : n.toNat ≤ 7 := UInt8.le_iff_toNat_le.mp bounded
  unfold maxPivLen
  omega

theorem parsePiv_pivFits {out : CompressedOscoreOption} {n kidLen : UInt8}
    {p : Bytes} {result : CompressedOscoreOption × Bytes × UInt8}
    (fits : PivFits out)
    (small : ¬ (n = 6 ∨ n = 7) → n.toNat ≤ maxPivLen)
    (done : parsePiv out n p kidLen = .ok result) : PivFits result.1 := by
  unfold parsePiv at done
  split at done
  · cases done
    exact fits
  · split at done
    · cases done
    · rename_i notReserved
      cases done
      intro len same
      cases same
      exact small notReserved

theorem parseKidContext_pivFits {out : CompressedOscoreOption}
    {h kidLen : UInt8} {p : Bytes}
    {result : CompressedOscoreOption × Bytes × UInt8} (fits : PivFits out)
    (done : parseKidContext out h p kidLen = .ok result) :
    PivFits result.1 := by
  unfold parseKidContext at done
  split at done
  · cases done
    exact fits
  · split at done
    · cases done
    · cases done
      exact fits

theorem parseOscoreValue_pivFits {out result : CompressedOscoreOption}
    {option : OCoapOption} (fits : PivFits out)
    (done : parseOscoreValue out option = .ok result) : PivFits result := by
  unfold parseOscoreValue at done
  split at done
  · cases done
  · simp only [outcome_bind_eq_ok] at done
    obtain ⟨withPiv, pivDone, withContext, contextDone, done⟩ := done
    have pivFits : PivFits withPiv.1 := by
      refine parsePiv_pivFits ?_ pivNBits_le pivDone
      exact fits
    have contextFits := parseKidContext_pivFits pivFits contextDone
    cases done
    exact contextFits

theorem oscoreOptionStep_pivFits
    {state next : CompressedOscoreOption × Bool} {option : OCoapOption}
    (fits : PivFits state.1) (done : oscoreOptionStep state option = .ok next) :
    PivFits next.1 := by
  unfold oscoreOptionStep at done
  split at done
  · split at done
    · cases done
      exact fits
    · obtain ⟨out, parsed, done⟩ := outcome_bind_eq_ok.mp done
      cases done
      exact parseOscoreValue_pivFits fits parsed
  · cases done
    exact fits

theorem oscoreOptionSteps_pivFits {options : List OCoapOption}
    {state final : CompressedOscoreOption × Bool} (fits : PivFits state.1)
    (done : options.foldlM oscoreOptionStep state = .ok final) :
    PivFits final.1 := by
  induction options generalizing state with
  | nil =>
      cases done
      exact fits
  | cons option options inductionHypothesis =>
      rw [List.foldlM_cons, outcome_bind_eq_ok] at done
      obtain ⟨next, step, done⟩ := done
      exact inductionHypothesis (oscoreOptionStep_pivFits fits step) done

theorem oscoreOptionParser_pivFits {packet : OCoapPacket}
    {option : CompressedOscoreOption} {flag : Bool}
    (done : oscoreOptionParser packet = .ok (option, flag)) :
    PivFits option := by
  unfold oscoreOptionParser at done
  obtain ⟨options, _, done⟩ := outcome_bind_eq_ok.mp done
  refine oscoreOptionSteps_pivFits ?_ done
  intro len written
  cases written

theorem ReachesUpdate.pivFits {c : Context} {input : Bytes}
    {packet : OCoapPacket} {option : CompressedOscoreOption} {first : UInt8}
    {piv kidContext : ByteArrayView}
    (reaches : ReachesUpdate c input packet option first piv kidContext) :
    piv.len ≤ maxPivLen := by
  have read := reaches.fields.piv
  unfold pivArray at read
  simp only [outcome_bind_eq_ok, orUndefined_eq_ok] at read
  obtain ⟨ptr, _, len, lenWritten, done⟩ := read
  cases done
  exact oscoreOptionParser_pivFits reaches.optionParsed len lenWritten

/-! ## The property -/

/-- A packet that `oscore2coap` rejects in this state leaves it as it is. -/
def Undisturbed (platform : Platform) (c : Context) (input : Bytes) : Prop :=
  ∀ packet option first piv kidContext,
    ReachesUpdate c input packet option first piv kidContext →
    FindsItsValues platform c packet first piv kidContext

theorem oscore2coap_unchanged_iff {platform : Platform} {input : Bytes}
    {capacity : Nat} {c after : Context} {code : Err}
    (failed :
      exec (oscore2coap platform input capacity) c =
        (.error (.err code), after)) :
    after = c ↔ Undisturbed platform c input := by
  by_cases reached : ∃ packet option first piv kidContext,
      ReachesUpdate c input packet option first piv kidContext
  · obtain ⟨packet, option, first, piv, kidContext, reaches⟩ := reached
    rw [reaches.unchanged_iff reaches.pivFits failed]
    constructor
    · intro found packet' option' first' piv' kidContext' other
      obtain ⟨rfl, rfl, rfl, rfl⟩ := reaches.unique other
      exact found
    · intro undisturbed
      exact undisturbed packet option first piv kidContext reaches
  · have unreached : ∀ packet option first piv kidContext,
        ¬ ReachesUpdate c input packet option first piv kidContext := by
      intro packet option first piv kidContext reaches
      exact reached ⟨packet, option, first, piv, kidContext, reaches⟩
    have unchanged :=
      @oscore2coap_of_not_reaches platform input capacity c unreached
    rw [failed] at unchanged
    constructor
    · intro _ packet option first piv kidContext reaches
      exact absurd reaches (unreached packet option first piv kidContext)
    · intro _
      exact unchanged

/-- The step rejects a packet. -/
def rejects (event : CallEvent) : Bool :=
  match event.input, event.output with
  | .oscore2coap _ _, .error (.err _) => true
  | _, _ => false

theorem rejects_eq_true {event : CallEvent} :
    rejects event = true ↔
      ∃ input capacity code, event.input = .oscore2coap input capacity ∧
        event.output = .error (.err code) := by
  unfold rejects
  split
  · rename_i called failed
    simp [called, failed]
  · rename_i other
    simp only [Bool.false_eq_true, false_iff, not_exists, not_and]
    intro input capacity code called failed
    exact other input capacity code called failed

/-- A rejected packet leaves a context as it is exactly when the context is
undisturbed by it.  Where all rejected packets of a run are of that kind, the
run reaches the same context without them. -/
theorem rejected_unchanged_iff (platform : Platform) :
    (∀ (c : Context) (input : Bytes) (capacity : Nat) (code : Err),
      (exec (oscore2coap platform input capacity) c).1 = fail code →
      ((exec (oscore2coap platform input capacity) c).2 = c ↔
        Undisturbed platform c input)) ∧
    (∀ (first last : Context) (events : List CallEvent),
      CallRun platform first events last →
      (∀ event ∈ events, rejects event = true →
        ∀ input capacity, event.input = .oscore2coap input capacity →
          Undisturbed platform event.before input) →
      CallRun platform first (events.filter fun event => !rejects event)
        last) := by
  constructor
  · intro c input capacity code failed
    exact oscore2coap_unchanged_iff (Prod.ext failed rfl)
  · intro first last events run undisturbed
    apply run.filter
    intro event member skipped
    have rejected : rejects event = true := by
      simpa using skipped
    obtain ⟨input, capacity, code, called, failed⟩ :=
      rejects_eq_true.mp rejected
    have ran := callMachine_oscore2coap (run.step_of_mem member) called
    rw [failed] at ran
    exact
      (oscore2coap_unchanged_iff ran).mpr
        (undisturbed event member rejected input capacity called)

/-- A request to the server of test vector T1 that nobody has encrypted. -/
private def t1Forged (piv : UInt8) : Bytes :=
  [0x40, 2, 0, 1, 0x92, 9, piv, 0xFF] ++ List.replicate 13 0

private def t1ServedForged : CallEvent :=
  callEvent t1Platform t1Server (.oscore2coap (t1Forged 5) 64)

/-- The server of test vector T1 is undisturbed by a forged request that
repeats the Partial IV of the last one. -/
theorem rejected_unchanged_t1 :
    Undisturbed t1Platform
      (callEvent t1Platform t1Server (.oscore2coap t1OscoreRequest 64)).after
      (t1Forged 0) := by
  apply
    ((rejected_unchanged_iff t1Platform).1 _ (t1Forged 0) 64
      .unexpectedResultFromExtLib ?_).mp
  · decide +kernel
  · decide +kernel

/-- A forged request with another Partial IV changes the context. -/
theorem rejected_changed :
    ¬ ∀ (platform : Platform) (params : OscoreInitParams)
        (first last : Context) (events : List CallEvent),
        Initialised platform params first →
        CallRun platform first events last →
        ∀ event ∈ events, ∀ input capacity code,
          event.input = .oscore2coap input capacity →
          event.output = fail code → event.after = event.before := by
  intro unchanged
  have run : CallRun t1Platform t1Server [t1ServedForged]
      t1ServedForged.after :=
    .cons (callEvent_step (by decide +kernel)) (.nil _)
  have same :=
    unchanged t1Platform t1ServerParams t1Server t1ServedForged.after
      [t1ServedForged] t1Server_initialised run t1ServedForged
      List.mem_cons_self (t1Forged 5) 64 .unexpectedResultFromExtLib rfl
      (by decide +kernel)
  have changed : t1ServedForged.after ≠ t1ServedForged.before := by
    decide +kernel
  exact changed same

end UoscoreUedhoc.Oscore
