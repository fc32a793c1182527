import UoscoreUedhoc.Edhoc.CredentialEntries

/-!
# Plaintexts read by their receiver

A party that identifies itself by a `kid`, an `x5t` or an `x5chain` is known to
the receiver of its plaintext under the same `ID_CRED_x`.  What stands behind
the signature or MAC is only read as far as it is a byte string.
-/

namespace UoscoreUedhoc.Edhoc

open UoscoreUedhoc

/-! ## `ID_CRED_x` -/

/-- An identifier whose strings have lengths in a `uint32_t`. -/
def IdCredX.IsStored : IdCredX → Prop
  | .kid _ => True
  | .x5chain value => IsByteArray value
  | .x5t _ hash => IsByteArray hash

section IdCred

variable {zcbor : ZcborDecoder} {cbor : CborMapEncoder}
  {count : Nat} {rest : Bytes}

/-- The identifier as the entry of a map. -/
def IdCredX.entry : IdCredX → IdCredEntry
  | .kid value => .kid value
  | .x5chain value => .string .x5chain value
  | .x5t alg hash => .certHash .x5t (.int alg) hash

theorem IdCredX.entry_encoding (idCredX : IdCredX) :
    idCredX.entry.encoding cbor = idCredX.encoding cbor := by
  cases idCredX with
  | kid value =>
      rfl
  | x5chain value =>
      rfl
  | x5t alg hash =>
      rfl

theorem IdCredX.IsStored.isReadable (inverts : zcbor.Inverts cbor)
    {idCredX : IdCredX} (stored : idCredX.IsStored) :
    idCredX.entry.IsReadable zcbor cbor := by
  cases idCredX with
  | kid value =>
      exact trivial
  | x5chain value =>
      exact stored
  | x5t alg hash =>
      exact ⟨algorithmName_int_isRead inverts alg, stored⟩

end IdCred

/-! ## Encoding and decoding -/

section

variable {platform : EdhocPlatform}

/-- The `kid` alone, or the whole `ID_CRED_x`. -/
def IdCredX.inPlaintext (cbor : CborMapEncoder) : IdCredX → Bytes
  | .kid value => cbor.int32 value.toInt
  | idCredX => idCredX.encoding cbor

/-- A plaintext of message 2 or 3. -/
def encodedPlaintext (cbor : CborMapEncoder) (idCredX : IdCredX)
    (signatureOrMac ead : Bytes) : Bytes :=
  idCredX.inPlaintext cbor ++ cbor.bstr signatureOrMac ++ ead

/-- Canonical integers of 32 bits take one to five bytes. -/
theorem int32_length (canonical : platform.cbor.IsCanonical)
    (value : Int32) :
    0 < (platform.cbor.int32 value.toInt).length ∧
      (platform.cbor.int32 value.toInt).length ≤ 5 := by
  rw [canonical.int32]
  obtain ⟨majorType, argument, encoded, _, _⟩ :=
    canonicalCbor_int32_head value
  rw [encoded, cborHead_length]
  split_ifs <;> decide

/-- The `kid` alone, or the whole map. -/
def IdCredEntry.inPlaintext (cbor : CborMapEncoder) : IdCredEntry → Bytes
  | .kid value => cbor.int32 value.toInt
  | entry => entry.encoding cbor

theorem cborDecodeIdCredXMap_entry
    (inverts : platform.zcbor.Inverts platform.cbor) {entry : IdCredEntry}
    (readable : entry.IsReadable platform.zcbor platform.cbor) :
    ∃ map : IdCredMap, map.ReadsEntry entry ∧
      cborDecodeIdCredXMap platform (entry.encoding platform.cbor) =
        .ok map := by
  obtain ⟨map, reads, decoded⟩ :=
    @idCredMap_decode_entry _ _ 1 [] inverts (by decide) _ readable
  rw [List.append_nil] at decoded
  refine ⟨map, reads, ?_⟩
  unfold cborDecodeIdCredXMap Decoding.decode
  rw [decoded]
  rfl

/-- The sender takes the `kid` out of a map that has one. -/
theorem idCred2Kid_entry (canonical : platform.cbor.IsCanonical)
    (inverts : platform.zcbor.Inverts platform.cbor) {entry : IdCredEntry}
    (readable : entry.IsReadable platform.zcbor platform.cbor) :
    ∃ kid,
      idCred2Kid platform (entry.encoding platform.cbor) = .ok kid ∧
        (if kid.length ≠ 0 then kid else entry.encoding platform.cbor) =
          entry.inPlaintext platform.cbor := by
  obtain ⟨map, reads, decoded⟩ := cborDecodeIdCredXMap_entry inverts readable
  unfold idCred2Kid
  rw [decoded, outcome_ok_bind]
  cases entry with
  | kid value =>
      obtain ⟨notEmpty, short⟩ := int32_length canonical value
      rw [reads]
      have fits : (platform.cbor.int32 value.toInt).length ≤
          kidDefaultSize := by
        unfold kidDefaultSize
        omega
      refine ⟨_, cborEncode_of_le fits, ?_⟩
      rw [if_pos (by omega)]
      rfl
  | string label value =>
      obtain ⟨_, rfl⟩ := reads
      refine ⟨[], ?_, rfl⟩
      cases label <;> rfl
  | certHash label alg hash =>
      obtain ⟨_, _, _, rfl⟩ := reads
      refine ⟨[], ?_, rfl⟩
      cases label <;> rfl

theorem idCred2Kid_encoding (canonical : platform.cbor.IsCanonical)
    (inverts : platform.zcbor.Inverts platform.cbor) {idCredX : IdCredX}
    (stored : idCredX.IsStored) :
    ∃ kid,
      idCred2Kid platform (idCredX.encoding platform.cbor) = .ok kid ∧
        (if kid.length ≠ 0 then kid else idCredX.encoding platform.cbor) =
          idCredX.inPlaintext platform.cbor := by
  have found :=
    idCred2Kid_entry canonical inverts (stored.isReadable inverts)
  rw [idCredX.entry_encoding] at found
  cases idCredX with
  | kid value =>
      exact found
  | x5chain value =>
      exact found
  | x5t alg hash =>
      exact found

/-- A string of less than 256 bytes has a head of at most two bytes. -/
theorem bstr_length_le_add_two (canonical : platform.cbor.IsCanonical)
    {value : Bytes} (short : value.length < 256) :
    (platform.cbor.bstr value).length ≤ value.length + 2 := by
  rw [canonical.bstr]
  simp only [canonicalCbor, List.length_append, cborHead_length]
  split_ifs <;> omega

/-- What the sender puts into a plaintext of message 2 or 3: its `kid`, or the
whole `ID_CRED_x` where it found none. -/
theorem plaintextEncode_of_idCred2Kid {ctxt : Ciphertext}
    (carriesIdCred : ctxt ≠ .ciphertext4) {idCred kid : Bytes}
    (isKid : idCred2Kid platform idCred = .ok kid)
    {signatureOrMac ead plaintext : Bytes} :
    plaintextEncode platform ctxt idCred signatureOrMac ead =
        .ok plaintext ↔
      (signatureOrMac.length + 2) % 2 ^ 32 ≤ sgnOrMacDefaultSize ∧
        (platform.cbor.bstr signatureOrMac).length ≤
            signatureOrMac.length + 2 ∧
          ((if kid.length ≠ 0 then kid else idCred) ++
              platform.cbor.bstr signatureOrMac ++ ead).length ≤
              plaintextDefaultSize ∧
            plaintext =
              (if kid.length ≠ 0 then kid else idCred) ++
                platform.cbor.bstr signatureOrMac ++ ead := by
  have sameAs2 :
      plaintextEncode platform ctxt idCred signatureOrMac ead =
        plaintextEncode platform .ciphertext2 idCred signatureOrMac ead := by
    cases ctxt with
    | ciphertext2 =>
        rfl
    | ciphertext3 =>
        rfl
    | ciphertext4 =>
        exact absurd rfl carriesIdCred
  rw [sameAs2]
  unfold plaintextEncode encodeByteString
  dsimp only
  simp only [outcome_bind_eq_ok, checkBufferSize_eq_ok, cborEncode_eq_ok,
    isKid, Except.ok.injEq, exists_eq_left', memcpyS_whole_eq_ok]
  generalize (if kid.length ≠ 0 then kid else idCred) = idCredX
  by_cases hasEad : 0 < ead.length
  · simp only [if_pos hasEad, outcome_bind_eq_ok, memcpyS_whole_eq_ok,
      Except.ok.injEq, List.length_append]
    constructor
    · rintro ⟨_, room, _, ⟨encFits, rfl⟩, _, ⟨idFits, rfl⟩, _,
        ⟨sigFits, rfl⟩, _, ⟨eadFits, rfl⟩, rfl⟩
      exact ⟨room, encFits, by omega, rfl⟩
    · rintro ⟨room, encFits, fits, rfl⟩
      exact ⟨(), room, _, ⟨encFits, rfl⟩, _, ⟨by omega, rfl⟩, _,
        ⟨by omega, rfl⟩, _, ⟨by omega, rfl⟩, rfl⟩
  · simp only [if_neg hasEad, Except.ok.injEq]
    have noEad : ead = [] := List.eq_nil_of_length_eq_zero (by omega)
    simp only [noEad, List.append_nil, List.length_append]
    constructor
    · rintro ⟨_, room, _, ⟨encFits, rfl⟩, _, ⟨idFits, rfl⟩, _,
        ⟨sigFits, rfl⟩, rfl⟩
      exact ⟨room, encFits, by omega, rfl⟩
    · rintro ⟨room, encFits, fits, rfl⟩
      exact ⟨(), room, _, ⟨encFits, rfl⟩, _, ⟨by omega, rfl⟩, _,
        ⟨by omega, rfl⟩, rfl⟩

theorem plaintextEncode_eq_ok (canonical : platform.cbor.IsCanonical)
    (inverts : platform.zcbor.Inverts platform.cbor) {ctxt : Ciphertext}
    (carriesIdCred : ctxt ≠ .ciphertext4) {idCredX : IdCredX}
    (stored : idCredX.IsStored) {signatureOrMac ead plaintext : Bytes} :
    plaintextEncode platform ctxt (idCredX.encoding platform.cbor)
        signatureOrMac ead = .ok plaintext ↔
      (signatureOrMac.length + 2) % 2 ^ 32 ≤ sgnOrMacDefaultSize ∧
        (platform.cbor.bstr signatureOrMac).length ≤
            signatureOrMac.length + 2 ∧
          (encodedPlaintext platform.cbor idCredX signatureOrMac ead).length ≤
              plaintextDefaultSize ∧
            plaintext =
              encodedPlaintext platform.cbor idCredX signatureOrMac ead := by
  obtain ⟨kid, isKid, isInPlaintext⟩ :=
    idCred2Kid_encoding canonical inverts stored
  rw [plaintextEncode_of_idCred2Kid carriesIdCred isKid, isInPlaintext]
  rfl

/-! ## Splitting -/

/-- What is decoded of the bytes behind the signature or MAC. -/
def trailingString (zcbor : ZcborDecoder) (ead : Bytes) :
    Option ByteArrayView :=
  (Decoding.string zcbor.bstr ⟨ead, 1⟩).map Prod.fst

/-- A string that is found there is shorter than the bytes it is found in. -/
theorem trailingString_shorter {zcbor : ZcborDecoder} {ead : Bytes}
    {view : ByteArrayView} (found : trailingString zcbor ead = some view) :
    view.len < ead.length := by
  obtain ⟨⟨_, rest⟩, read, rfl⟩ := Option.map_eq_some_iff.mp found
  unfold Decoding.string Decoding.item at read
  rw [if_neg Nat.one_ne_zero] at read
  simp only [Option.map_eq_some_iff, Prod.mk.injEq, Prod.exists] at read
  obtain ⟨_, _, ⟨head, length, decoded, rfl, rfl⟩, rfl, _⟩ := read
  obtain ⟨positive, _, inside⟩ := zcbor.bstr_inBounds decoded
  dsimp only at inside ⊢
  omega

theorem trailingString_nil {zcbor : ZcborDecoder} :
    trailingString zcbor [] = none := by
  unfold trailingString
  rw [Decoding.string_of_nil]
  rfl

theorem present_trailing {zcbor : ZcborDecoder} {ead : Bytes} :
    ∃ final, Decoding.present (Decoding.string zcbor.bstr) ⟨ead, 1⟩ =
      some (trailingString zcbor ead, final) := by
  unfold trailingString Decoding.present
  cases Decoding.string zcbor.bstr ⟨ead, 1⟩ with
  | none =>
      exact ⟨_, rfl⟩
  | some result =>
      exact ⟨_, rfl⟩

/-- What is decoded of the `ID_CRED_x` of a plaintext. -/
def PlaintextIdCred.ReadsEntry (idCred : PlaintextIdCred) :
    IdCredEntry → Prop
  | .kid value => idCred = .int value
  | entry => ∃ map : IdCredMap, idCred = .map map ∧ map.ReadsEntry entry

theorem cborDecodePlaintext_of_read
    (inverts : platform.zcbor.Inverts platform.cbor)
    {idCredX signatureOrMac ead : Bytes}
    (wordLength : IsByteArray signatureOrMac) {idCred : PlaintextIdCred}
    (read :
      Decoding.orElse
          (Decoding.asMember PlaintextIdCred.map
            (IdCredMap.decode platform.zcbor))
          (Decoding.orElse
            (Decoding.asMember PlaintextIdCred.bstr
              (Decoding.string platform.zcbor.bstr))
            (Decoding.asMember PlaintextIdCred.int
              (Decoding.item platform.zcbor.int32)))
          ⟨idCredX ++ (platform.cbor.bstr signatureOrMac ++ ead), 3⟩ =
        some (idCred, ⟨platform.cbor.bstr signatureOrMac ++ ead, 2⟩)) :
    cborDecodePlaintext platform
        (idCredX ++ platform.cbor.bstr signatureOrMac ++ ead) =
      .ok
        ⟨idCred, ⟨signatureOrMac.length, signatureOrMac ++ ead⟩,
          trailingString platform.zcbor ead⟩ := by
  obtain ⟨final, trailing⟩ := @present_trailing platform.zcbor ead
  have signature := @Decoding.string_bstr _ _ 2 ead inverts (by decide) _
    wordLength
  unfold cborDecodePlaintext Decoding.decode Plaintext.decode
  rw [List.append_assoc, Decoding.andThen_of_some read,
    Decoding.andThen_of_some signature, Decoding.asMember_of_some trailing]
  rfl

/-- The decoder of plaintexts reads back every entry. -/
theorem cborDecodePlaintext_entry
    (inverts : platform.zcbor.Inverts platform.cbor) {entry : IdCredEntry}
    (readable : entry.IsReadable platform.zcbor platform.cbor)
    {signatureOrMac ead : Bytes} (wordLength : IsByteArray signatureOrMac) :
    ∃ idCred : PlaintextIdCred, idCred.ReadsEntry entry ∧
      cborDecodePlaintext platform
          (entry.inPlaintext platform.cbor ++
            platform.cbor.bstr signatureOrMac ++ ead) =
        .ok
          ⟨idCred, ⟨signatureOrMac.length, signatureOrMac ++ ead⟩,
            trailingString platform.zcbor ead⟩ := by
  obtain ⟨map, reads, read⟩ := @idCredMap_decode_entry _ _ 3
    (platform.cbor.bstr signatureOrMac ++ ead) inverts (by decide) _ readable
  cases entry with
  | kid value =>
      have noMap : IdCredMap.decode platform.zcbor
          ⟨platform.cbor.int32 value.toInt ++
            (platform.cbor.bstr signatureOrMac ++ ead), 3⟩ = none := by
        unfold IdCredMap.decode Decoding.map
        apply Decoding.andThen_eq_none_of_first
        exact Decoding.item_of_none (inverts.mapStart_int32 value _)
      refine ⟨.int value, rfl, cborDecodePlaintext_of_read inverts wordLength ?_⟩
      rw [IdCredEntry.inPlaintext,
        Decoding.orElse_of_none (Decoding.asMember_of_none noMap),
        Decoding.orElse_of_none (Decoding.asMember_of_none
          (Decoding.string_of_int32 inverts value))]
      exact Decoding.asMember_of_some
        (Decoding.item_int32 inverts (by decide) value)
  | string label value =>
      refine ⟨.map map, ⟨map, rfl, reads⟩, ?_⟩
      apply cborDecodePlaintext_of_read inverts wordLength
      exact Decoding.orElse_of_some (Decoding.asMember_of_some read)
  | certHash label alg hash =>
      refine ⟨.map map, ⟨map, rfl, reads⟩, ?_⟩
      apply cborDecodePlaintext_of_read inverts wordLength
      exact Decoding.orElse_of_some (Decoding.asMember_of_some read)

/-- The entries that `plaintext_split` encodes again. -/
def IdCredEntry.IsReencoded : IdCredEntry → Prop
  | .kid _ => True
  | .string label _ => label = .x5chain
  | .certHash label alg _ => label = .x5t ∧ ∃ value, alg = .int value

/-- The first half of `plaintext_split` restores just these entries. -/
theorem plaintextIdCred_restores_iff {entry : IdCredEntry}
    (short : (entry.encoding platform.cbor).length ≤ idCredDefaultSize)
    {idCred : PlaintextIdCred} (reads : idCred.ReadsEntry entry) :
    plaintextIdCred platform idCredDefaultSize idCred =
        .ok (some (entry.encoding platform.cbor)) ↔
      entry.IsReencoded := by
  cases entry with
  | kid value =>
      refine iff_of_true ?_ trivial
      rw [reads, plaintextIdCred, idCredXEncode]
      exact congrArg (· >>= _) (cborEncode_of_le short)
  | string label value =>
      obtain ⟨map, rfl, behind, rfl⟩ := reads
      by_cases isChain : label = .x5chain
      · subst isChain
        refine iff_of_true ?_ rfl
        simp only [StringLabel.member, IdCredMap.noMember, plaintextIdCred,
          idCredXEncode, ByteArrayView.content, List.take_left]
        rw [show (IdCredX.x5chain value).encoding platform.cbor =
          (IdCredEntry.string .x5chain value).encoding platform.cbor from rfl,
          cborEncode_of_le short]
        rfl
      · refine iff_of_false ?_ isChain
        -- nothing is written
        have unwritten : plaintextIdCred platform idCredDefaultSize
            (.map (label.member ⟨value.length, value ++ behind⟩)) =
              .ok none := by
          cases label with
          | x5chain =>
              exact absurd rfl isChain
          | x5bag | x5u | c5b | c5c | c5u =>
              rfl
        rw [unwritten]
        intro written
        cases written
  | certHash label alg hash =>
      obtain ⟨map, rfl, decoded, behind, names, rfl⟩ := reads
      cases label with
      | x5t =>
          cases alg with
          | int value =>
              refine iff_of_true ?_ ⟨rfl, value, rfl⟩
              rw [names]
              simp only [CertHashLabel.member, IdCredMap.noMember,
                plaintextIdCred, certHashIdCredX, idCredXEncode,
                ByteArrayView.content, List.take_left, outcome_ok_bind]
              rw [show (IdCredX.x5t value hash).encoding platform.cbor =
                (IdCredEntry.certHash .x5t (.int value) hash).encoding
                  platform.cbor from rfl, cborEncode_of_le short]
              rfl
          | text value =>
              obtain ⟨_, rfl⟩ := names
              refine iff_of_false ?_ ?_
              · intro written
                cases written
              · rintro ⟨_, value, isInt⟩
                cases isInt
      | c5t =>
          refine iff_of_false ?_ ?_
          · intro written
            cases written
          · rintro ⟨isX5t, _⟩
            cases isX5t

theorem IdCredX.entry_isReencoded (idCredX : IdCredX) :
    idCredX.entry.IsReencoded := by
  cases idCredX with
  | kid value =>
      exact trivial
  | x5chain value =>
      rfl
  | x5t alg hash =>
      exact ⟨rfl, alg, rfl⟩

theorem IdCredX.entry_inPlaintext (idCredX : IdCredX) (cbor : CborMapEncoder) :
    idCredX.entry.inPlaintext cbor = idCredX.inPlaintext cbor := by
  cases idCredX with
  | kid value =>
      rfl
  | x5chain value =>
      rfl
  | x5t alg hash =>
      rfl

/-- The first half of `plaintext_split` restores the `ID_CRED_x`. -/
theorem plaintext_decode (inverts : platform.zcbor.Inverts platform.cbor)
    {idCredX : IdCredX} (stored : idCredX.IsStored)
    (idCredShort :
      (idCredX.encoding platform.cbor).length ≤ idCredDefaultSize)
    {signatureOrMac ead : Bytes} (wordLength : IsByteArray signatureOrMac) :
    ∃ idCred : PlaintextIdCred,
      plaintextIdCred platform idCredDefaultSize idCred =
          .ok (some (idCredX.encoding platform.cbor)) ∧
        cborDecodePlaintext platform
            (encodedPlaintext platform.cbor idCredX signatureOrMac ead) =
          .ok
            ⟨idCred, ⟨signatureOrMac.length, signatureOrMac ++ ead⟩,
              trailingString platform.zcbor ead⟩ := by
  obtain ⟨idCred, reads, decoded⟩ :=
    @cborDecodePlaintext_entry platform inverts idCredX.entry
      (stored.isReadable inverts) signatureOrMac ead wordLength
  rw [← idCredX.entry_encoding] at idCredShort ⊢
  rw [idCredX.entry_inPlaintext] at decoded
  refine ⟨idCred, ?_, decoded⟩
  exact
    (plaintextIdCred_restores_iff idCredShort reads).mpr
      idCredX.entry_isReencoded

/-- The application data that `plaintext_split` takes. -/
def receivedEad (zcbor : ZcborDecoder) (ead : Bytes) : Bytes :=
  match trailingString zcbor ead with
  | some view => view.content
  | none => []

/-- Application data arrives as it was sent only if there is none. -/
theorem receivedEad_eq_iff {zcbor : ZcborDecoder} {ead : Bytes} :
    receivedEad zcbor ead = ead ↔ ead = [] := by
  unfold receivedEad
  constructor
  · intro same
    cases found : trailingString zcbor ead with
    | none =>
        rw [found] at same
        exact same.symm
    | some view =>
        rw [found] at same
        have shorter := trailingString_shorter found
        have lengths := congrArg List.length same
        simp only [ByteArrayView.content, List.length_take] at lengths
        omega
  · rintro rfl
    rw [trailingString_nil]

theorem plaintextSplit_eq_ok (inverts : platform.zcbor.Inverts platform.cbor)
    {idCredX : IdCredX} (stored : idCredX.IsStored)
    (idCredShort :
      (idCredX.encoding platform.cbor).length ≤ idCredDefaultSize)
    {signatureOrMac ead : Bytes}
    (signatureShort : signatureOrMac.length ≤ sgnOrMacDefaultSize)
    {eadLen : Nat} {split : SplitPlaintext} :
    plaintextSplit platform
        (encodedPlaintext platform.cbor idCredX signatureOrMac ead) eadLen =
          .ok split ↔
      (∀ view, trailingString platform.zcbor ead = some view →
        view.len ≤ eadLen) ∧
      split =
        ⟨some (idCredX.encoding platform.cbor), signatureOrMac,
          receivedEad platform.zcbor ead⟩ := by
  have wordLength : IsByteArray signatureOrMac := by
    unfold sgnOrMacDefaultSize at signatureShort
    unfold IsByteArray
    omega
  obtain ⟨idCred, restored, decoded⟩ :=
    @plaintext_decode _ inverts _ stored idCredShort _ ead wordLength
  unfold plaintextSplit
  rw [decoded, outcome_ok_bind]
  dsimp only
  rw [restored, outcome_ok_bind,
    memcpyS_append_eq_ok.mpr ⟨signatureShort, rfl⟩, outcome_ok_bind]
  unfold receivedEad
  cases found : trailingString platform.zcbor ead with
  | none =>
      simp only [Except.ok.injEq, reduceCtorEq, false_implies, implies_true,
        true_and]
      exact eq_comm
  | some view =>
      have inBounds : view.len ≤ view.ptr.length := by
        obtain ⟨⟨_, rest⟩, read, rfl⟩ := Option.map_eq_some_iff.mp found
        exact (string_inBounds read).1
      simp only [outcome_bind_eq_ok, memcpyS_eq_ok, Except.ok.injEq,
        Option.some.injEq, forall_eq']
      constructor
      · rintro ⟨_, ⟨fits, _, rfl⟩, rfl⟩
        exact ⟨fits, rfl⟩
      · rintro ⟨fits, rfl⟩
        exact ⟨_, ⟨fits, inBounds, rfl⟩, rfl⟩

end

end UoscoreUedhoc.Edhoc
