import UoscoreUedhoc.Edhoc.HonestRuns

/-!
# Negotiation

`METHOD` and the last integer of `SUITES_I` decide with which suite and with
which kind of keys `msg2_gen` runs.  It looks at eight bits of the suite, and it
does not look at the method before it runs: `authentication_type_get` returns
`ok` for every method, and for one that does not exist the variable
`static_dh_r` is read with whatever it held before.
-/

namespace UoscoreUedhoc.Edhoc

open UoscoreUedhoc

/-- The integers of `SUITES_I`, as they were sent. -/
def SuitesIItem.values : SuitesIItem → List Int32
  | .suite values => values
  | .int value => [value]

/-- The table of the methods: whether the initiator and the responder
authenticate with a static DH key. -/
def methodTable (method : Int32) : Option (Bool × Bool) :=
  if method = 0 then some (false, false)
  else if method = 1 then some (false, true)
  else if method = 2 then some (true, false)
  else if method = 3 then some (true, true)
  else none

section

variable (platform : EdhocPlatform)

/-- The part of `msg2_gen` that runs with a suite and with the two flags. -/
def msg2Complete (c : ResponderContext) (msg1 : Bytes)
    (selected : SelectedSuite) : Outcome Msg2Output := do
  let suite := selected.suite
  let th2 ← th2Calculate platform suite.edhocHash msg1 c.gY c.cR
  let gXy ←
    tryExpect
      (platform.crypto.sharedSecretDerive suite.edhocEcdh c.y selected.gX)
  let prk2e ←
    tryExpect (platform.crypto.hkdfExtract suite.edhocHash [] gXy)
  let staticDhR ← orUndefined selected.staticDhR
  let prk3e2m ← prkDerive platform staticDhR suite prk2e selected.gX c.r
  checkBufferSize signatureDefaultSize (getSignatureLen suite.edhocSign)
  let signOrMac2 ←
    signatureOrMacGenerate platform staticDhR suite c.skR c.pkR
      prk3e2m th2 c.idCredR c.credR c.ead2 mac2Label
  let ciphertext2 ←
    ciphertextGen platform .ciphertext2 suite c.idCredR signOrMac2 c.ead2
      prk2e th2
  let msg2 ← msg2Encode platform c.gY c.cR ciphertext2
  let th3 ← th3Calculate platform suite.edhocHash th2 ciphertext2
  .ok ⟨msg2, suite, selected.staticDhI, prk3e2m, th3, selected.ead1⟩

/-- The variable `static_dh_r` holds `unset` where nothing was written to it. -/
def SelectedSuite.holding (unset : Bool) (selected : SelectedSuite) :
    SelectedSuite :=
  { selected with staticDhR := some (selected.staticDhR.getD unset) }

/-- `msg2_gen` on a machine on which the variable `static_dh_r` holds `unset`
before anything is written to it. -/
def msg2GenWith (unset : Bool) (c : ResponderContext)
    (buffers : ResponderBuffers) (msg1 : Bytes) : Outcome Msg2Output := do
  let selected ← msg1Process platform c buffers msg1
  msg2Complete platform c msg1 (selected.holding unset)

/-- The output is that of a run with the suite and the flags that the message
names. -/
def RunsAsNegotiated (c : ResponderContext) (m : Message1) (msg1 : Bytes)
    (output : Msg2Output) : Prop :=
  ∃ label suite staticDhI staticDhR,
    m.suitesI.values.getLast? = some (int32OfByte label) ∧
      label ∈ c.suitesR ∧ getSuite label = .ok suite ∧
        methodTable m.method = some (staticDhI, staticDhR) ∧
          msg2Complete platform c msg1
              ⟨suite, staticDhI, some staticDhR, m.gX.content,
                m.ead1.map ByteArrayView.content⟩ =
            .ok output

end

/-- With this method, these suites of the initiator and these of the responder,
`msg2_gen` returns `ok` only from a run as the message says, whatever else the
message, the context of the responder and the unset variable hold. -/
def NegotiatesFaithfully (method : Int32) (suitesI : List Int32)
    (suitesR : Bytes) : Prop :=
  ∀ (platform : EdhocPlatform) (c : ResponderContext)
    (buffers : ResponderBuffers) (msg1 : Bytes) (m : Message1) (unset : Bool)
    (output : Msg2Output),
    c.suitesR = suitesR → cborDecodeMessage1 platform msg1 = .ok m →
      m.method = method → m.suitesI.values = suitesI →
        msg2GenWith platform unset c buffers msg1 = .ok output →
          RunsAsNegotiated platform c m msg1 output

/-- The last eight bits of the suite are not among the suites of the responder,
or no suite has this number. -/
def RefusesSuite (suitesR : Bytes) (last : Int32) : Prop :=
  byteOfInt32 last ∉ suitesR.take 256 ∨ 3 < (byteOfInt32 last).toNat

/-- The message is refused, or its method exists and its last suite has eight
bits. -/
def IsNegotiable (method : Int32) (suitesI : List Int32) (suitesR : Bytes) :
    Prop :=
  5 < suitesI.length ∨
    ∀ last, suitesI.getLast? = some last →
      RefusesSuite suitesR last ∨
        IsMethod method ∧ 0 ≤ last.toInt ∧ last.toInt < 256

/-! ## Suites and methods -/

theorem int32OfByte_byteOfInt32 {value : Int32} (notNegative : 0 ≤ value.toInt)
    (small : value.toInt < 256) : int32OfByte (byteOfInt32 value) = value := by
  apply Int32.toInt_inj.mp
  unfold int32OfByte byteOfInt32
  rw [Int.emod_eq_of_lt notNegative small,
    UInt8.toNat_ofNat_of_lt' (show value.toInt.toNat < 256 by omega),
    Int32.toInt_ofInt_of_le (by omega) (by omega)]
  omega

theorem int32OfByte_range (label : UInt8) :
    0 ≤ (int32OfByte label).toInt ∧ (int32OfByte label).toInt < 256 := by
  have small := label.toNat_lt
  unfold int32OfByte
  rw [Int32.toInt_ofInt_of_le (by omega) (by omega)]
  omega

/-- There are suites just under the numbers up to three. -/
theorem getSuite_exists_iff (label : UInt8) :
    (∃ suite, getSuite label = .ok suite) ↔ label.toNat ≤ 3 := by
  have numbers : label.toNat ≤ 3 ↔
      label = 0 ∨ label = 1 ∨ label = 2 ∨ label = 3 := by
    rw [← UInt8.toNat_inj, ← UInt8.toNat_inj, ← UInt8.toNat_inj,
      ← UInt8.toNat_inj]
    show _ ↔ _ = 0 ∨ _ = 1 ∨ _ = 2 ∨ _ = 3
    omega
  rw [numbers]
  constructor
  · rintro ⟨suite, isSuite⟩
    by_contra other
    simp only [not_or] at other
    simp [getSuite, other, fail] at isSuite
  · rintro (rfl | rfl | rfl | rfl)
    · exact ⟨_, rfl⟩
    · exact ⟨_, rfl⟩
    · exact ⟨_, rfl⟩
    · exact ⟨_, rfl⟩

theorem methodTable_eq_none_iff (method : Int32) :
    methodTable method = none ↔ ¬ IsMethod method := by
  unfold methodTable IsMethod
  split_ifs with is0 is1 is2 is3
  · simp [is0]
  · simp [is1]
  · simp [is2]
  · simp [is3]
  · simp [is0, is1, is2, is3]

/-- For a method of the table both flags are written. -/
theorem authenticationTypeGet_of_methodTable {method : Int32}
    {staticDhI staticDhR : Bool}
    (inTable : methodTable method = some (staticDhI, staticDhR))
    (before : AuthenticationType) :
    authenticationTypeGet method before = ⟨some staticDhI, some staticDhR⟩ := by
  unfold methodTable at inTable
  unfold authenticationTypeGet
  split_ifs at inTable with is0 is1 is2 is3
  · cases inTable
    rw [if_pos is0]
  · cases inTable
    rw [if_neg is0, if_pos is1]
  · cases inTable
    rw [if_neg is0, if_neg is1, if_pos is2]
  · cases inTable
    rw [if_neg is0, if_neg is1, if_neg is2, if_pos is3]

/-! ## The parser -/

section

variable {platform : EdhocPlatform}

theorem parseSuitesI_values {suitesI : SuitesIItem} {parsed : Bytes} :
    parseSuitesI 5 suitesI = .ok parsed ↔
      suitesI.values.length ≤ 5 ∧
        parsed = suitesI.values.map byteOfInt32 := by
  cases suitesI with
  | int value =>
      simp only [parseSuitesI, SuitesIItem.values, Except.ok.injEq,
        List.length_singleton, List.map_singleton]
      constructor
      · intro same
        exact ⟨by decide, same.symm⟩
      · intro both
        exact both.2.symm
  | suite values =>
      simp only [parseSuitesI, SuitesIItem.values]
      by_cases tooLong : 5 < values.length
      · rw [if_pos tooLong]
        simp only [fail, reduceCtorEq, false_iff]
        omega
      · rw [if_neg tooLong, Except.ok.injEq]
        constructor
        · intro same
          exact ⟨Nat.le_of_not_lt tooLong, same.symm⟩
        · intro both
          exact both.2.symm

/-- What `msg1_parse` takes from a decoded message. -/
theorem msg1Parse_of_decoded {msg1 : Bytes} {m : Message1}
    (decoded : cborDecodeMessage1 platform msg1 = .ok m) {ead1Len : Nat}
    {parsed : ParsedMsg1}
    (isParsed : msg1Parse platform msg1 ead1Len = .ok parsed) :
    m.suitesI.values.length ≤ 5 ∧ parsed.method = m.method ∧
      parsed.suitesI = m.suitesI.values.map byteOfInt32 ∧
        parsed.gX = m.gX.content ∧
          parsed.ead1 = m.ead1.map ByteArrayView.content := by
  unfold msg1Parse at isParsed
  rw [decoded, outcome_ok_bind] at isParsed
  obtain ⟨suitesI, isSuitesI, run⟩ := outcome_bind_eq_ok.mp isParsed
  obtain ⟨gX, isGX, run⟩ := outcome_bind_eq_ok.mp run
  obtain ⟨few, rfl⟩ := parseSuitesI_values.mp isSuitesI
  obtain ⟨_, _, rfl⟩ := memcpyS_eq_ok.mp isGX
  cases isEad1 : m.ead1 with
  | none =>
      rw [isEad1] at run
      cases run
      exact ⟨few, rfl, rfl, rfl, rfl⟩
  | some view =>
      rw [isEad1] at run
      obtain ⟨ead1, copied, run⟩ := outcome_bind_eq_ok.mp run
      obtain ⟨_, _, rfl⟩ := memcpyS_eq_ok.mp copied
      cases run
      exact ⟨few, rfl, rfl, rfl, rfl⟩

/-! ## Runs -/

theorem msg2Gen_eq (c : ResponderContext) (buffers : ResponderBuffers)
    (msg1 : Bytes) :
    msg2Gen platform c buffers msg1 =
      (do
        let selected ← msg1Process platform c buffers msg1
        msg2Complete platform c msg1 selected) :=
  rfl

/-- A run that reads no unset variable is the same on every machine. -/
theorem msg2GenWith_of_msg2Gen {c : ResponderContext}
    {buffers : ResponderBuffers} {msg1 : Bytes} {output : Msg2Output}
    (generated : msg2Gen platform c buffers msg1 = .ok output)
    (unset : Bool) :
    msg2GenWith platform unset c buffers msg1 = .ok output := by
  rw [msg2Gen_eq] at generated
  obtain ⟨selected, processed, completed⟩ := outcome_bind_eq_ok.mp generated
  unfold msg2GenWith
  rw [processed, outcome_ok_bind]
  cases isSet : selected.staticDhR with
  | some staticDhR =>
      have same : selected.holding unset = selected := by
        unfold SelectedSuite.holding
        rw [isSet, Option.getD_some, ← isSet]
      rw [same, completed]
  | none =>
      -- without the flag the run does not get beyond it
      unfold msg2Complete at completed
      simp only [isSet, orUndefined, undefinedBehaviour, outcome_bind_eq_ok,
        reduceCtorEq, false_and, exists_false, and_false] at completed

/-- On a message that is negotiable `msg2_gen` runs as it says. -/
theorem runsAsNegotiated_of_isNegotiable {c : ResponderContext}
    {buffers : ResponderBuffers} {msg1 : Bytes} {m : Message1}
    (decoded : cborDecodeMessage1 platform msg1 = .ok m)
    (negotiable : IsNegotiable m.method m.suitesI.values c.suitesR)
    {unset : Bool} {output : Msg2Output}
    (generated : msg2GenWith platform unset c buffers msg1 = .ok output) :
    RunsAsNegotiated platform c m msg1 output := by
  obtain ⟨selected, processed, completed⟩ := outcome_bind_eq_ok.mp generated
  obtain ⟨parsed, label, suite, staticDhI, isParsed, last, found, isSuite,
    written, rfl⟩ := msg1Process_parsed_eq_ok.mp processed
  obtain ⟨few, method, suitesI, gX, ead1⟩ :=
    msg1Parse_of_decoded decoded isParsed
  rw [suitesI, List.getLast?_map, Option.map_eq_some_iff] at last
  obtain ⟨sent, isLast, rfl⟩ := last
  have defined := (getSuite_exists_iff _).mp ⟨suite, isSuite⟩
  have accepted : ¬ RefusesSuite c.suitesR sent := by
    rintro (unknown | undefined)
    · exact unknown found
    · omega
  rcases negotiable with tooMany | named
  · omega
  rcases named sent isLast with refused | ⟨known, notNegative, small⟩
  · exact absurd refused accepted
  cases inTable : methodTable m.method with
  | none =>
      exact absurd known ((methodTable_eq_none_iff _).mp inTable)
  | some flags =>
      have flagsAre := authenticationTypeGet_of_methodTable inTable
        ⟨some false, none⟩
      rw [← method] at flagsAre
      rw [flagsAre] at written
      cases written
      refine ⟨byteOfInt32 sent, suite, flags.1, flags.2, ?_,
        List.mem_of_mem_take found, isSuite, inTable, ?_⟩
      · rw [int32OfByte_byteOfInt32 notNegative small, isLast]
      · rw [← gX, ← ead1]
        unfold SelectedSuite.holding at completed
        rw [flagsAre] at completed
        exact completed

end

/-! ## A responder that always answers -/

def noRecords : EdhocRecords :=
  ⟨[], [], [], [], [], []⟩

theorem noRecords_lengths : noRecords.LengthsRight where
  aead := nofun
  hash := nofun
  hkdfExtract := nofun
  hkdfExpand := nofun
  sign := nofun

/-- A wrapper whose functions all return zero bytes. -/
def zeroPlatform : EdhocPlatform where
  crypto :=
    { EdhocWrapper.completed noRecords noRecords_lengths with
      sign := fun _ _ _ _ => some (List.replicate signatureDefaultSize 0)
      sign_length := by
        intro alg sk pk message signature signed
        cases signed
        exact List.length_replicate }
  cbor := canonicalMapCbor
  zcbor := canonicalZcbor

/-- A responder with a `kid` and without keys. -/
def zeroResponder (suitesR : Bytes) : ResponderContext where
  msg4 := false
  cR := .int 0
  suitesR := suitesR
  gY := []
  y := []
  r := []
  ead2 := []
  ead4 := []
  idCredR := (IdCredX.kid 0).encoding canonicalMapCbor
  credR := []
  skR := []
  pkR := []

def zeroBuffers : ResponderBuffers :=
  ⟨[], 0, 0⟩

/-- Neither the message nor the suites of the responder matter for the rest of
the run. -/
theorem zero_completes_alike (suitesR msg1 : Bytes)
    (selected : SelectedSuite) :
    msg2Complete zeroPlatform (zeroResponder suitesR) msg1 selected =
      msg2Complete zeroPlatform (zeroResponder []) [] selected :=
  rfl

theorem zero_completes (suitesR msg1 : Bytes) {label : UInt8} {suite : Suite}
    (isSuite : getSuite label = .ok suite) (staticDhI staticDhR : Bool) :
    ∃ output,
      msg2Complete zeroPlatform (zeroResponder suitesR) msg1
          ⟨suite, staticDhI, some staticDhR, [], none⟩ =
        .ok output := by
  have four : suite ∈ [⟨.aesCcm16_64_128, .sha256, .mac8, .x25519, .edDsa⟩,
      ⟨.aesCcm16_128_128, .sha256, .mac16, .x25519, .edDsa⟩,
      ⟨.aesCcm16_64_128, .sha256, .mac8, .p256, .es256⟩,
      (⟨.aesCcm16_128_128, .sha256, .mac16, .p256, .es256⟩ : Suite)] := by
    unfold getSuite at isSuite
    split_ifs at isSuite
    · cases isSuite
      simp
    · cases isSuite
      simp
    · cases isSuite
      simp
    · cases isSuite
      simp
    · cases isSuite
  have runs : ∀ suite ∈ [⟨.aesCcm16_64_128, .sha256, .mac8, .x25519, .edDsa⟩,
      ⟨.aesCcm16_128_128, .sha256, .mac16, .x25519, .edDsa⟩,
      ⟨.aesCcm16_64_128, .sha256, .mac8, .p256, .es256⟩,
      (⟨.aesCcm16_128_128, .sha256, .mac16, .p256, .es256⟩ : Suite)],
      ∀ flagI flagR,
        (msg2Complete zeroPlatform (zeroResponder []) []
          ⟨suite, flagI, some flagR, [], none⟩).isOk = true := by
    decide +kernel
  have isOk := runs suite four staticDhI staticDhR
  rw [zero_completes_alike]
  cases run : msg2Complete zeroPlatform (zeroResponder []) []
      ⟨suite, staticDhI, some staticDhR, [], none⟩ with
  | ok output =>
      exact ⟨output, rfl⟩
  | error reason =>
      rw [run] at isOk
      cases isOk

/-- A message with this method and these suites and without keys. -/
def bareMessage1 (method : Int32) (suitesI : List Int32) : SentMessage1 :=
  ⟨method, suitesI, [], .int 0, []⟩

theorem readSuites_values {suitesI : List Int32} :
    (readSuites suitesI).values = suitesI := by
  match suitesI with
  | [] =>
      rfl
  | [suite] =>
      rfl
  | first :: second :: others =>
      rfl

theorem bareMessage1_decoded (method : Int32) {suitesI : List Int32}
    (notEmpty : suitesI.length ≠ 0) (few : suitesI.length ≤ 5) :
    ∃ msg1 m, cborDecodeMessage1 zeroPlatform msg1 = .ok m ∧
      m.method = method ∧ m.suitesI.values = suitesI ∧ m.gX.len = 0 ∧
        m.ead1 = none := by
  have fewEnough : suitesI.length ≤ 10 := by
    omega
  have stored : (bareMessage1 method suitesI).IsStored :=
    ⟨Nat.two_pow_pos 32, trivial, Nat.two_pow_pos 32⟩
  obtain ⟨gXRest, cIRest, decoded⟩ :=
    sentMessage1_decode canonicalZcbor_inverts stored notEmpty fewEnough
  exact
    ⟨_, _, tryExpect_eq_ok.mpr decoded, rfl, readSuites_values, rfl, rfl⟩

theorem bareMessage1_parsed (method : Int32) {suitesI : List Int32}
    (few : suitesI.length ≤ 5) {m : Message1} {msg1 : Bytes}
    (decoded : cborDecodeMessage1 zeroPlatform msg1 = .ok m)
    (isMethod : m.method = method) (values : m.suitesI.values = suitesI)
    (noGX : m.gX.len = 0) (noEad1 : m.ead1 = none) :
    ∃ cI, msg1Parse zeroPlatform msg1 0 =
      .ok ⟨method, suitesI.map byteOfInt32, [], cI, none⟩ := by
  refine ⟨parseCI m.cI, ?_⟩
  have parsed : parseSuitesI 5 m.suitesI =
      .ok (suitesI.map byteOfInt32) := by
    apply parseSuitesI_values.mpr
    rw [values]
    exact ⟨few, rfl⟩
  have copied : memcpyS gXDefaultSize m.gX.ptr m.gX.len = .ok [] :=
    memcpyS_eq_ok.mpr
      ⟨by omega, by omega, by rw [noGX, List.take_zero]⟩
  unfold msg1Parse
  rw [decoded, outcome_ok_bind, parsed, outcome_ok_bind, copied,
    outcome_ok_bind, noEad1, isMethod]

theorem authenticationTypeGet_staticDhI (method : Int32) (flag : Bool) :
    ∃ staticDhI,
      (authenticationTypeGet method ⟨some flag, none⟩).staticDhI =
        some staticDhI := by
  unfold authenticationTypeGet
  split_ifs
  · exact ⟨_, rfl⟩
  · exact ⟨_, rfl⟩
  · exact ⟨_, rfl⟩
  · exact ⟨_, rfl⟩
  · exact ⟨_, rfl⟩

/-- A responder all of whose functions succeed answers every message whose last
suite it does not refuse. -/
theorem zero_answers (method : Int32) {suitesI : List Int32} {suitesR : Bytes}
    (few : suitesI.length ≤ 5) {last : Int32}
    (isLast : suitesI.getLast? = some last)
    (accepted : ¬ RefusesSuite suitesR last) :
    ∃ msg1 m output,
      cborDecodeMessage1 zeroPlatform msg1 = .ok m ∧ m.method = method ∧
        m.suitesI.values = suitesI ∧
          msg2GenWith zeroPlatform false (zeroResponder suitesR) zeroBuffers
              msg1 =
            .ok output := by
  have notEmpty : suitesI.length ≠ 0 := by
    intro isEmpty
    rw [List.eq_nil_of_length_eq_zero isEmpty] at isLast
    cases isLast
  simp only [RefusesSuite, not_or, not_not, Nat.not_lt] at accepted
  obtain ⟨suite, isSuite⟩ := (getSuite_exists_iff _).mpr accepted.2
  obtain ⟨staticDhI, written⟩ := authenticationTypeGet_staticDhI method false
  obtain ⟨msg1, m, decoded, isMethod, values, noGX, noEad1⟩ :=
    bareMessage1_decoded method notEmpty few
  obtain ⟨cI, parsed⟩ :=
    bareMessage1_parsed method few decoded isMethod values noGX noEad1
  have lastParsed : (suitesI.map byteOfInt32).getLast? =
      some (byteOfInt32 last) := by
    rw [List.getLast?_map, isLast]
    rfl
  have processed :
      msg1Process zeroPlatform (zeroResponder suitesR) zeroBuffers msg1 =
        .ok
          ⟨suite, staticDhI,
            (authenticationTypeGet method ⟨some false, none⟩).staticDhR, [],
            none⟩ :=
    msg1Process_parsed_eq_ok.mpr
      ⟨_, byteOfInt32 last, suite, staticDhI, parsed, lastParsed, accepted.1,
        isSuite, written, rfl⟩
  obtain ⟨output, completed⟩ := zero_completes suitesR msg1 isSuite staticDhI
    ((authenticationTypeGet method ⟨some false, none⟩).staticDhR.getD false)
  refine ⟨msg1, m, output, decoded, isMethod, values, ?_⟩
  unfold msg2GenWith
  rw [processed, outcome_ok_bind]
  exact completed

/-- A message that is not negotiable has an answer that it does not name. -/
theorem isNegotiable_of_negotiatesFaithfully {method : Int32}
    {suitesI : List Int32} {suitesR : Bytes}
    (faithful : NegotiatesFaithfully method suitesI suitesR) :
    IsNegotiable method suitesI suitesR := by
  by_cases tooMany : 5 < suitesI.length
  · exact Or.inl tooMany
  apply Or.inr
  intro last isLast
  by_cases refused : RefusesSuite suitesR last
  · exact Or.inl refused
  apply Or.inr
  have few : suitesI.length ≤ 5 := Nat.le_of_not_lt tooMany
  obtain ⟨msg1, m, output, decoded, isMethod, values, generated⟩ :=
    zero_answers method few isLast refused
  obtain ⟨label, _, flagI, flagR, isSent, _, _, inTable, _⟩ :=
    faithful zeroPlatform (zeroResponder suitesR) zeroBuffers msg1 m false
      output rfl decoded isMethod values generated
  rw [isMethod] at inTable
  rw [values, isLast, Option.some.injEq] at isSent
  subst isSent
  refine ⟨?_, int32OfByte_range label⟩
  by_contra unknown
  rw [(methodTable_eq_none_iff method).mpr unknown] at inTable
  cases inTable

/-- `msg2_gen` negotiates faithfully just where the message is refused, or its
method exists and its last suite has eight bits. -/
theorem negotiation_faithful_iff (method : Int32) (suitesI : List Int32)
    (suitesR : Bytes) :
    NegotiatesFaithfully method suitesI suitesR ↔
      IsNegotiable method suitesI suitesR := by
  constructor
  · exact isNegotiable_of_negotiatesFaithfully
  · rintro negotiable platform c buffers msg1 m unset output rfl decoded rfl
      rfl generated
    exact runsAsNegotiated_of_isNegotiable decoded negotiable generated

/-- Suite 256 with method 4 is answered by a responder that only has suite
0. -/
theorem negotiation_unfaithful :
    ¬ ∀ (method : Int32) (suitesI : List Int32) (suitesR : Bytes),
      NegotiatesFaithfully method suitesI suitesR := by
  intro faithful
  rcases isNegotiable_of_negotiatesFaithfully (faithful 4 [256] [0]) with
    tooMany | named
  · exact absurd tooMany (by decide)
  rcases named 256 rfl with (unknown | undefined) | ⟨known, _⟩
  · exact unknown (by decide)
  · exact absurd undefined (by decide)
  · revert known
    unfold IsMethod
    decide

end UoscoreUedhoc.Edhoc
