import UoscoreUedhoc.Edhoc.HonestRuns

/-!
# Delivery of `message_1`

What the responder reads of the `message_1` that an initiator has generated.
`msg1_parse` passes the length zero for a byte string `C_I`, and it writes the
length of `EAD_1` only when the message has one.
-/

namespace UoscoreUedhoc.Edhoc

open UoscoreUedhoc

/-- No byte of the identifier is in a byte string. -/
def Cx.HasNoBytes : Cx → Prop
  | .int _ => True
  | .bstr value => value = []

instance : DecidablePred Cx.HasNoBytes
  | .int _ => inferInstanceAs (Decidable True)
  | .bstr value => inferInstanceAs (Decidable (value = []))

/-- The length of `EAD_1` that a caller with a buffer of `ead1Len` bytes finds
after `msg1_parse`. -/
def ParsedMsg1.ead1Reported (ead1Len : Nat) (parsed : ParsedMsg1) : Nat :=
  match parsed.ead1 with
  | some ead1 => ead1.length
  | none => ead1Len

/-- What `msg1_parse` has written is what the initiator has sent. -/
structure ParsedMsg1.Restores (parsed : ParsedMsg1) (c : InitiatorContext)
    (ead1Len : Nat) : Prop where
  method : parsed.method = c.method
  suitesI : parsed.suitesI = c.suitesI
  gX : parsed.gX = c.gX
  cI : parsed.cI = c.cI
  ead1Length : parsed.ead1Reported ead1Len = c.ead1.length
  ead1 : c.ead1.length ≠ 0 → parsed.ead1 = some c.ead1

/-- The responder gets all of `message_1`. -/
def Message1Delivered (platform : EdhocPlatform) (c : InitiatorContext)
    (msg1 : Bytes) (ead1Len : Nat) : Prop :=
  ∃ parsed, msg1Parse platform msg1 ead1Len = .ok parsed ∧
    parsed.Restores c ead1Len

/-- A byte string `C_I` arrives empty. -/
theorem parseCI_restores_iff {cI : Cx} :
    parseCI (cI.read []) = cI ↔ cI.HasNoBytes := by
  cases cI with
  | int value =>
      exact iff_of_true rfl trivial
  | bstr value =>
      constructor
      · intro same
        exact (Cx.bstr.inj same).symm
      · intro isEmpty
        exact congrArg Cx.bstr isEmpty.symm

/-- The length of `EAD_1` is reported when there is one, or when the caller had
no room for any. -/
theorem receivedEad1_reported_iff {ead1 : Bytes} {ead1Len : Nat} :
    (match receivedEad1 ead1 with
      | some received => received.length
      | none => ead1Len) = ead1.length ↔
      (ead1 = [] → ead1Len = 0) := by
  unfold receivedEad1
  by_cases isEmpty : ead1 = []
  · subst isEmpty
    simp
  · have notEmpty : ead1.length ≠ 0 := by
      rwa [ne_eq, List.length_eq_zero_iff]
    simp [notEmpty, isEmpty]

theorem cIDefaultSize_isStored {cI : Cx} (fits : cI.FitsInto cIDefaultSize) :
    cI.IsStored := by
  cases cI with
  | int value =>
      exact trivial
  | bstr value =>
      have short : value.length ≤ 8 := fits
      have isShort : value.length < 2 ^ 32 := by
        omega
      exact isShort

/-- A generated `message_1` reaches the responder unchanged just when `C_I` is
an integer or empty, the buffer has room for `EAD_1`, and it has none at all
when there is no `EAD_1`. -/
theorem message1_delivered_iff (platform : EdhocPlatform)
    (inverts : platform.zcbor.Inverts platform.cbor) (c : InitiatorContext)
    (fewSuites : c.suitesI.length ≤ 5) (gXShort : c.gX.length ≤ gXDefaultSize)
    (cIFits : c.cI.FitsInto cIDefaultSize) (ead1Stored : IsByteArray c.ead1)
    (msg1 : Bytes) (generated : msg1Gen platform c = .ok msg1)
    (ead1Len : Nat) :
    Message1Delivered platform c msg1 ead1Len ↔
      c.cI.HasNoBytes ∧ c.ead1.length ≤ ead1Len ∧
        (c.ead1 = [] → ead1Len = 0) := by
  have gXStored : IsByteArray c.gX := by
    unfold gXDefaultSize p256PubKeyCompressedSize at gXShort
    unfold IsByteArray
    omega
  have stored : c.IsStored :=
    ⟨gXStored, cIDefaultSize_isStored cIFits, ead1Stored⟩
  have parses := fun parsed =>
    @msg1Parse_eq_ok platform inverts c stored msg1 generated ead1Len parsed
  constructor
  · rintro ⟨parsed, isParsed, restores⟩
    obtain ⟨_, _, ead1Fits, rfl⟩ := (parses parsed).mp isParsed
    exact
      ⟨parseCI_restores_iff.mp restores.cI, ead1Fits,
        receivedEad1_reported_iff.mp restores.ead1Length⟩
  · rintro ⟨noBytes, ead1Fits, noRoom⟩
    refine ⟨_, (parses _).mpr ⟨fewSuites, gXShort, ead1Fits, rfl⟩, ?_⟩
    constructor
    · rfl
    · rfl
    · rfl
    · exact parseCI_restores_iff.mpr noBytes
    · exact receivedEad1_reported_iff.mpr noRoom
    · intro hasEad1
      exact if_pos hasEad1

/-! ## The initiator of the vector -/

/-- The initiator of the vector with other identifiers and application data. -/
def v1InitiatorWith (cI : Cx) (ead1 : Bytes) : InitiatorContext :=
  { v1Initiator with cI := cI, ead1 := ead1 }

theorem v1Msg1Gen_with {cI : Cx} {ead1 : Bytes}
    (short : (message1Encoding v1CompletedPlatform.cbor
      (v1InitiatorWith cI ead1)).length ≤ msg1DefaultSize) :
    msg1Gen v1CompletedPlatform (v1InitiatorWith cI ead1) =
      .ok
        (message1Encoding v1CompletedPlatform.cbor
          (v1InitiatorWith cI ead1)) := by
  have someSuites : v1Initiator.suitesI.length ≠ 0 := by
    decide
  have fewSuites : v1Initiator.suitesI.length ≤ 10 := by
    decide
  exact msg1Gen_eq_ok.mpr ⟨someSuites, fewSuites, short, rfl⟩

/-- With an integer as `C_I` and two bytes of application data all of the
message arrives. -/
theorem message1_delivered_v1 :
    Message1Delivered v1CompletedPlatform (v1InitiatorWith (.int 7) [1, 2])
      (message1Encoding v1CompletedPlatform.cbor
        (v1InitiatorWith (.int 7) [1, 2])) 8 :=
  (message1_delivered_iff v1CompletedPlatform canonicalZcbor_inverts
    (v1InitiatorWith (.int 7) [1, 2]) (by decide) (by decide) trivial
    (by decide) _ (v1Msg1Gen_with (by decide)) 8).mpr
      ⟨trivial, by decide, nofun⟩

/-- A byte string of one byte as `C_I` does not arrive. -/
theorem cI_lost :
    ¬ ∀ (platform : EdhocPlatform), platform.zcbor.Inverts platform.cbor →
        ∀ c : InitiatorContext, IsMethod c.method → c.suitesI.length ≤ 5 →
          c.gX.length ≤ gXDefaultSize → c.cI.FitsInto cIDefaultSize →
            IsByteArray c.ead1 →
              ∀ msg1 : Bytes, msg1Gen platform c = .ok msg1 →
                ∀ ead1Len : Nat, c.ead1.length ≤ ead1Len →
                  Message1Delivered platform c msg1 ead1Len := by
  intro delivers
  obtain ⟨parsed, isParsed, restores⟩ :=
    delivers v1CompletedPlatform canonicalZcbor_inverts
      (v1InitiatorWith (.bstr [7]) [1, 2]) (Or.inr (Or.inr (Or.inr rfl)))
      (by decide) (by decide) (Nat.le_add_left 1 7) (by decide) _
      (v1Msg1Gen_with (by decide)) 8 (by decide)
  have stored : (v1InitiatorWith (.bstr [7]) [1, 2]).IsStored :=
    ⟨by decide, by decide, by decide⟩
  obtain ⟨_, _, _, rfl⟩ :=
    (msg1Parse_eq_ok canonicalZcbor_inverts stored
      (v1Msg1Gen_with (by decide))).mp isParsed
  have isEmpty : (Cx.bstr [7]).HasNoBytes :=
    parseCI_restores_iff.mp restores.cI
  exact absurd isEmpty (by decide)

end UoscoreUedhoc.Edhoc
