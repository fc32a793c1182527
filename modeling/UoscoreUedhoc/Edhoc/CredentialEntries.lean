import UoscoreUedhoc.Edhoc.Credentials
import UoscoreUedhoc.Edhoc.Delivery

/-!
# Entries of `ID_CRED_x`

An `ID_CRED_x` map with one entry: a `kid`, one of six byte strings, or one of
two certificate hashes.  The generated decoder of the map reads every entry
back, whatever comes behind the map.
-/

namespace UoscoreUedhoc.Edhoc

open UoscoreUedhoc

/-! ## Members of a map -/

section Members

variable {zcbor : ZcborDecoder} {cbor : CborMapEncoder}
  {α : Type} {rest : Bytes}

theorem expect_label (inverts : zcbor.Inverts cbor) {count : Nat}
    (left : count ≠ 0) (label : UInt32) :
    Decoding.expect zcbor label ⟨cbor.uint32 label.toNat ++ rest, count⟩ =
      some ((), ⟨rest, count - 1⟩) := by
  unfold Decoding.expect
  rw [Decoding.andThen_of_some (Decoding.item_uint32 inverts left label),
    if_pos rfl]

/-- Nothing but the expected label lets a member begin. -/
def LacksLabel (zcbor : ZcborDecoder) (label : UInt32)
    (state : DecodeState) : Prop :=
  Decoding.expect zcbor label state = none

theorem lacksLabel_of_other (inverts : zcbor.Inverts cbor) {count : Nat}
    (left : count ≠ 0) {label other : UInt32} (different : other ≠ label) :
    LacksLabel zcbor label ⟨cbor.uint32 other.toNat ++ rest, count⟩ := by
  unfold LacksLabel Decoding.expect
  rw [Decoding.andThen_of_some (Decoding.item_uint32 inverts left other),
    if_neg different]

theorem lacksLabel_of_no_element (label : UInt32) (payload : Bytes) :
    LacksLabel zcbor label ⟨payload, 0⟩ := by
  apply Decoding.andThen_eq_none_of_first
  exact Decoding.item_of_no_element rfl

/-- A member that is not there. -/
theorem present_of_lacksLabel {label : UInt32} {state : DecodeState}
    {member : Unit → Decoding α} (lacks : LacksLabel zcbor label state) :
    Decoding.present
        (Decoding.andThen (Decoding.expect zcbor label) member) state =
      some (none, state) :=
  Decoding.present_of_none (Decoding.andThen_eq_none_of_first lacks)

/-- A member that is there. -/
theorem present_of_label (inverts : zcbor.Inverts cbor) {count : Nat}
    (left : count ≠ 0) {label : UInt32} {member : Unit → Decoding α}
    {value : α} {final : DecodeState}
    (read : member () ⟨rest, count - 1⟩ = some (value, final)) :
    Decoding.present
        (Decoding.andThen (Decoding.expect zcbor label) member)
        ⟨cbor.uint32 label.toNat ++ rest, count⟩ =
      some (some value, final) := by
  apply Decoding.present_of_some
  rw [Decoding.andThen_of_some (expect_label inverts left label), read]

end Members

/-! ## Entries -/

/-- The labels of byte strings. -/
inductive StringLabel where
  | x5bag
  | x5chain
  | x5u
  | c5b
  | c5c
  | c5u
  deriving DecidableEq, Repr

/-- The labels of certificate hashes. -/
inductive CertHashLabel where
  | x5t
  | c5t
  deriving DecidableEq, Repr

/-- The number or the text that names a hash algorithm. -/
inductive AlgorithmName where
  | int (value : Int32)
  | text (value : Bytes)
  deriving DecidableEq, Repr

/-- One entry of an `ID_CRED_x` map. -/
inductive IdCredEntry where
  | kid (value : Int32)
  | string (label : StringLabel) (value : Bytes)
  | certHash (label : CertHashLabel) (alg : AlgorithmName) (hash : Bytes)
  deriving DecidableEq, Repr

def StringLabel.number : StringLabel → UInt32
  | .x5bag => 32
  | .x5chain => 33
  | .x5u => 35
  | .c5b => 52
  | .c5c => 53
  | .c5u => 55

def CertHashLabel.number : CertHashLabel → UInt32
  | .x5t => 34
  | .c5t => 54

def AlgorithmName.encoding (cbor : CborMapEncoder) : AlgorithmName → Bytes
  | .int value => cbor.int32 value.toInt
  | .text value => cbor.tstr value

/-- The map with this entry. -/
def IdCredEntry.encoding (cbor : CborMapEncoder) : IdCredEntry → Bytes
  | .kid value => cbor.map [(cbor.uint32 4, cbor.int32 value.toInt)]
  | .string label value =>
      cbor.map [(cbor.uint32 label.number.toNat, cbor.bstr value)]
  | .certHash label alg hash =>
      cbor.map
        [(cbor.uint32 label.number.toNat,
          cbor.list [alg.encoding cbor, cbor.bstr hash])]

/-- No string of the entry is too long for a `zcbor_string`. -/
def IdCredEntry.IsStored : IdCredEntry → Prop
  | .kid _ => True
  | .string _ value => IsByteArray value
  | .certHash _ (.int _) hash => IsByteArray hash
  | .certHash _ (.text value) hash => IsByteArray value ∧ IsByteArray hash

/-! ## Decoded maps -/

def IdCredMap.noMember : IdCredMap :=
  ⟨none, none, none, none, none, none, none, none, none⟩

/-- The map with a byte string as its only member. -/
def StringLabel.member (view : ByteArrayView) : StringLabel → IdCredMap
  | .x5bag => { IdCredMap.noMember with x5bag := some view }
  | .x5chain => { IdCredMap.noMember with x5chain := some view }
  | .x5u => { IdCredMap.noMember with x5u := some view }
  | .c5b => { IdCredMap.noMember with c5b := some view }
  | .c5c => { IdCredMap.noMember with c5c := some view }
  | .c5u => { IdCredMap.noMember with c5u := some view }

/-- The map with a certificate hash as its only member. -/
def CertHashLabel.member (certHash : CertHash) : CertHashLabel → IdCredMap
  | .x5t => { IdCredMap.noMember with x5t := some certHash }
  | .c5t => { IdCredMap.noMember with c5t := some certHash }

/-- The decoded name of an algorithm. -/
def HashAlgorithm.Names (decoded : HashAlgorithm) : AlgorithmName → Prop
  | .int value => decoded = .int value
  | .text value => ∃ behind, decoded = .tstr ⟨value.length, value ++ behind⟩

/-- What is decoded of an entry. -/
def IdCredMap.ReadsEntry (map : IdCredMap) : IdCredEntry → Prop
  | .kid value => map = { IdCredMap.noMember with kid := some value }
  | .string label value =>
      ∃ behind, map = label.member ⟨value.length, value ++ behind⟩
  | .certHash label alg hash =>
      ∃ decoded behind, HashAlgorithm.Names decoded alg ∧
        map = label.member ⟨decoded, ⟨hash.length, hash ++ behind⟩⟩

/-! ## Decoding -/

section Decoded

variable {zcbor : ZcborDecoder}

/-- The members that the generated decoder tries one after the other. -/
def IdCredMap.members (zcbor : ZcborDecoder) : Decoding IdCredMap :=
  Decoding.andThen (Decoding.present (IdCredMap.decodeKid zcbor)) fun kid =>
    Decoding.andThen (Decoding.present (IdCredMap.decodeString zcbor 32))
      fun x5bag =>
    Decoding.andThen (Decoding.present (IdCredMap.decodeString zcbor 33))
      fun x5chain =>
    Decoding.andThen (Decoding.present (IdCredMap.decodeCertHash zcbor 34))
      fun x5t =>
    Decoding.andThen (Decoding.present (IdCredMap.decodeString zcbor 35))
      fun x5u =>
    Decoding.andThen (Decoding.present (IdCredMap.decodeString zcbor 52))
      fun c5b =>
    Decoding.andThen (Decoding.present (IdCredMap.decodeString zcbor 53))
      fun c5c =>
    Decoding.andThen (Decoding.present (IdCredMap.decodeCertHash zcbor 54))
      fun c5t =>
    Decoding.asMember (IdCredMap.mk kid x5bag x5chain x5t x5u c5b c5c c5t)
      (Decoding.present (IdCredMap.decodeString zcbor 55))

theorem idCredMap_decode_eq (zcbor : ZcborDecoder) :
    IdCredMap.decode zcbor = Decoding.map zcbor (IdCredMap.members zcbor) :=
  rfl

/-- The state behind the only entry. -/
def ended (behind : Bytes) : DecodeState :=
  ⟨behind, 0⟩

theorem string_ended (label : UInt32) (behind : Bytes) :
    Decoding.present (IdCredMap.decodeString zcbor label) (ended behind) =
      some (none, ended behind) :=
  present_of_lacksLabel (lacksLabel_of_no_element label behind)

theorem certHash_ended (label : UInt32) (behind : Bytes) :
    Decoding.present (IdCredMap.decodeCertHash zcbor label) (ended behind) =
      some (none, ended behind) :=
  present_of_lacksLabel (lacksLabel_of_no_element label behind)

/-- Where the only entry begins, every member with another label is absent. -/
def BeginsWith (zcbor : ZcborDecoder) (label : UInt32) (start : DecodeState) :
    Prop :=
  ∀ expected, label ≠ expected → LacksLabel zcbor expected start

section Begins

variable {label : UInt32} {start : DecodeState}
  (begins : BeginsWith zcbor label start)

include begins

theorem BeginsWith.kid (other : label ≠ 4) :
    Decoding.present (IdCredMap.decodeKid zcbor) start =
      some (none, start) :=
  present_of_lacksLabel (begins 4 other)

theorem BeginsWith.string (expected : UInt32) (other : label ≠ expected) :
    Decoding.present (IdCredMap.decodeString zcbor expected) start =
      some (none, start) :=
  present_of_lacksLabel (begins expected other)

theorem BeginsWith.certHash (expected : UInt32) (other : label ≠ expected) :
    Decoding.present (IdCredMap.decodeCertHash zcbor expected) start =
      some (none, start) :=
  present_of_lacksLabel (begins expected other)

end Begins

section Members

variable {start afterKid afterX5bag afterX5chain afterX5t afterX5u afterC5b
    afterC5c afterC5t final : DecodeState}
  {kid : Option Int32}
  {x5bag x5chain x5u c5b c5c c5u : Option ByteArrayView}
  {x5t c5t : Option CertHash}

/-- The members are read one behind the other. -/
theorem members_of_each
    (kidRead : Decoding.present (IdCredMap.decodeKid zcbor) start =
      some (kid, afterKid))
    (x5bagRead : Decoding.present (IdCredMap.decodeString zcbor 32) afterKid =
      some (x5bag, afterX5bag))
    (x5chainRead :
      Decoding.present (IdCredMap.decodeString zcbor 33) afterX5bag =
        some (x5chain, afterX5chain))
    (x5tRead :
      Decoding.present (IdCredMap.decodeCertHash zcbor 34) afterX5chain =
        some (x5t, afterX5t))
    (x5uRead : Decoding.present (IdCredMap.decodeString zcbor 35) afterX5t =
      some (x5u, afterX5u))
    (c5bRead : Decoding.present (IdCredMap.decodeString zcbor 52) afterX5u =
      some (c5b, afterC5b))
    (c5cRead : Decoding.present (IdCredMap.decodeString zcbor 53) afterC5b =
      some (c5c, afterC5c))
    (c5tRead : Decoding.present (IdCredMap.decodeCertHash zcbor 54) afterC5c =
      some (c5t, afterC5t))
    (c5uRead : Decoding.present (IdCredMap.decodeString zcbor 55) afterC5t =
      some (c5u, final)) :
    IdCredMap.members zcbor start =
      some (⟨kid, x5bag, x5chain, x5t, x5u, c5b, c5c, c5t, c5u⟩, final) := by
  unfold IdCredMap.members
  rw [Decoding.andThen_of_some kidRead, Decoding.andThen_of_some x5bagRead,
    Decoding.andThen_of_some x5chainRead, Decoding.andThen_of_some x5tRead,
    Decoding.andThen_of_some x5uRead, Decoding.andThen_of_some c5bRead,
    Decoding.andThen_of_some c5cRead, Decoding.andThen_of_some c5tRead,
    Decoding.asMember_of_some c5uRead]

end Members

section Found

variable {start : DecodeState} {behind : Bytes}

theorem members_of_string (label : StringLabel)
    (begins : BeginsWith zcbor label.number start) {view : ByteArrayView}
    (found : Decoding.present (IdCredMap.decodeString zcbor label.number)
      start = some (some view, ended behind)) :
    IdCredMap.members zcbor start =
      some (label.member view, ended behind) := by
  cases label with
  | x5bag =>
      exact
        members_of_each (begins.kid (by decide)) found
          (string_ended 33 behind) (certHash_ended 34 behind)
          (string_ended 35 behind) (string_ended 52 behind)
          (string_ended 53 behind) (certHash_ended 54 behind)
          (string_ended 55 behind)
  | x5chain =>
      exact
        members_of_each (begins.kid (by decide))
          (begins.string 32 (by decide)) found (certHash_ended 34 behind)
          (string_ended 35 behind) (string_ended 52 behind)
          (string_ended 53 behind) (certHash_ended 54 behind)
          (string_ended 55 behind)
  | x5u =>
      exact
        members_of_each (begins.kid (by decide))
          (begins.string 32 (by decide)) (begins.string 33 (by decide))
          (begins.certHash 34 (by decide)) found (string_ended 52 behind)
          (string_ended 53 behind) (certHash_ended 54 behind)
          (string_ended 55 behind)
  | c5b =>
      exact
        members_of_each (begins.kid (by decide))
          (begins.string 32 (by decide)) (begins.string 33 (by decide))
          (begins.certHash 34 (by decide)) (begins.string 35 (by decide))
          found (string_ended 53 behind) (certHash_ended 54 behind)
          (string_ended 55 behind)
  | c5c =>
      exact
        members_of_each (begins.kid (by decide))
          (begins.string 32 (by decide)) (begins.string 33 (by decide))
          (begins.certHash 34 (by decide)) (begins.string 35 (by decide))
          (begins.string 52 (by decide)) found (certHash_ended 54 behind)
          (string_ended 55 behind)
  | c5u =>
      exact
        members_of_each (begins.kid (by decide))
          (begins.string 32 (by decide)) (begins.string 33 (by decide))
          (begins.certHash 34 (by decide)) (begins.string 35 (by decide))
          (begins.string 52 (by decide)) (begins.string 53 (by decide))
          (begins.certHash 54 (by decide)) found

theorem members_of_certHash (label : CertHashLabel)
    (begins : BeginsWith zcbor label.number start) {certHash : CertHash}
    (found : Decoding.present (IdCredMap.decodeCertHash zcbor label.number)
      start = some (some certHash, ended behind)) :
    IdCredMap.members zcbor start =
      some (label.member certHash, ended behind) := by
  cases label with
  | x5t =>
      exact
        members_of_each (begins.kid (by decide))
          (begins.string 32 (by decide)) (begins.string 33 (by decide)) found
          (string_ended 35 behind) (string_ended 52 behind)
          (string_ended 53 behind) (certHash_ended 54 behind)
          (string_ended 55 behind)
  | c5t =>
      exact
        members_of_each (begins.kid (by decide))
          (begins.string 32 (by decide)) (begins.string 33 (by decide))
          (begins.certHash 34 (by decide)) (begins.string 35 (by decide))
          (begins.string 52 (by decide)) (begins.string 53 (by decide)) found
          (string_ended 55 behind)

theorem members_of_kid {kid : Int32}
    (found : Decoding.present (IdCredMap.decodeKid zcbor) start =
      some (some kid, ended behind)) :
    IdCredMap.members zcbor start =
      some ({ IdCredMap.noMember with kid := some kid }, ended behind) :=
  members_of_each found (string_ended 32 behind) (string_ended 33 behind)
    (certHash_ended 34 behind) (string_ended 35 behind)
    (string_ended 52 behind) (string_ended 53 behind)
    (certHash_ended 54 behind) (string_ended 55 behind)

end Found

end Decoded

section Entries

variable {zcbor : ZcborDecoder} {cbor : CborMapEncoder} {count : Nat}
  {rest : Bytes}

/-- A map of one entry is read where its value is. -/
theorem idCredMap_of_entry (inverts : zcbor.Inverts cbor) (left : count ≠ 0)
    {label : UInt32} {value : Bytes} {map : Bytes → IdCredMap}
    (read : ∀ behind,
      BeginsWith zcbor label
          ⟨cbor.uint32 label.toNat ++ (value ++ behind), 2⟩ →
        IdCredMap.members zcbor
            ⟨cbor.uint32 label.toNat ++ (value ++ behind), 2⟩ =
          some (map behind, ended behind)) :
    ∃ behind,
      IdCredMap.decode zcbor
          ⟨cbor.map [(cbor.uint32 label.toNat, value)] ++ rest, count⟩ =
        some (map behind, ⟨rest, count - 1⟩) := by
  refine ⟨cbor.mapEnd 1 ++ rest, ?_⟩
  rw [idCredMap_decode_eq]
  apply Decoding.map_of_pairs inverts left (by simp)
  rw [List.map_singleton, List.flatten_singleton, List.append_assoc]
  apply read
  intro expected other
  exact lacksLabel_of_other inverts (by decide) other

/-- The decoder of the two kinds of names. -/
def algorithmDecode (zcbor : ZcborDecoder) : Decoding HashAlgorithm :=
  Decoding.orElse
    (Decoding.asMember HashAlgorithm.int (Decoding.item zcbor.int32))
    (Decoding.asMember HashAlgorithm.tstr (Decoding.string zcbor.tstr))

/-- The name of the algorithm is read back. -/
def AlgorithmName.IsRead (zcbor : ZcborDecoder) (cbor : CborMapEncoder)
    (alg : AlgorithmName) : Prop :=
  ∀ behind, ∃ decoded, HashAlgorithm.Names decoded alg ∧
    algorithmDecode zcbor ⟨alg.encoding cbor ++ behind, 2⟩ =
      some (decoded, ⟨behind, 1⟩)

theorem algorithmName_int_isRead (inverts : zcbor.Inverts cbor)
    (value : Int32) : (AlgorithmName.int value).IsRead zcbor cbor := by
  intro behind
  refine ⟨.int value, rfl, ?_⟩
  exact
    Decoding.orElse_of_some
      (Decoding.asMember_of_some
        (Decoding.item_int32 inverts (by decide) value))

theorem algorithmName_text_isRead (inverts : zcbor.InvertsTexts cbor)
    {value : Bytes} (stored : IsByteArray value) :
    (AlgorithmName.text value).IsRead zcbor cbor := by
  intro behind
  have noInt : Decoding.item zcbor.int32 ⟨cbor.tstr value ++ behind, 2⟩ =
      none :=
    Decoding.item_of_none (inverts.int32_tstr value behind stored)
  refine ⟨.tstr ⟨value.length, value ++ behind⟩, ⟨behind, rfl⟩, ?_⟩
  exact
    (Decoding.orElse_of_none (Decoding.asMember_of_none noInt)).trans
      (Decoding.asMember_of_some
        (Decoding.string_tstr inverts (by decide) stored))

/-- A certificate hash is read where the name of its algorithm is. -/
theorem certHash_read (inverts : zcbor.Inverts cbor) {label : UInt32}
    {alg : AlgorithmName} (isRead : alg.IsRead zcbor cbor) {hash : Bytes}
    (stored : IsByteArray hash) (behind : Bytes) :
    ∃ decoded view, HashAlgorithm.Names decoded alg ∧
      Decoding.present (IdCredMap.decodeCertHash zcbor label)
          ⟨cbor.uint32 label.toNat ++
            (cbor.list [alg.encoding cbor, cbor.bstr hash] ++ behind), 2⟩ =
        some
          (some ⟨decoded, ⟨hash.length, hash ++ view⟩⟩, ended behind) := by
  obtain ⟨decoded, names, algRead⟩ :=
    isRead (cbor.bstr hash ++ (cbor.listEnd 2 ++ behind))
  refine ⟨decoded, cbor.listEnd 2 ++ behind, names, ?_⟩
  apply present_of_label inverts (by decide)
  apply Decoding.list_of_elements inverts (by decide) (by simp)
  simp only [List.flatten_cons, List.flatten_nil, List.append_nil,
    List.append_assoc, List.length_cons, List.length_nil]
  unfold algorithmDecode at algRead
  rw [Decoding.andThen_of_some algRead]
  exact
    Decoding.asMember_of_some
      (Decoding.string_bstr inverts (by decide) stored)

/-- The entry holds an algorithm only under a name that is read back. -/
def IdCredEntry.IsReadable (zcbor : ZcborDecoder) (cbor : CborMapEncoder) :
    IdCredEntry → Prop
  | .kid _ => True
  | .string _ value => IsByteArray value
  | .certHash _ alg hash => alg.IsRead zcbor cbor ∧ IsByteArray hash

theorem IdCredEntry.IsStored.isReadable {entry : IdCredEntry}
    (inverts : zcbor.InvertsTexts cbor) (stored : entry.IsStored) :
    entry.IsReadable zcbor cbor := by
  cases entry with
  | kid value =>
      exact trivial
  | string label value =>
      exact stored
  | certHash label alg hash =>
      cases alg with
      | int value =>
          exact ⟨algorithmName_int_isRead inverts.toInverts value, stored⟩
      | text value =>
          exact ⟨algorithmName_text_isRead inverts stored.1, stored.2⟩

/-- The decoder reads back every map of one entry. -/
theorem idCredMap_decode_entry (inverts : zcbor.Inverts cbor)
    (left : count ≠ 0) {entry : IdCredEntry}
    (readable : entry.IsReadable zcbor cbor) :
    ∃ map : IdCredMap, map.ReadsEntry entry ∧
      IdCredMap.decode zcbor ⟨entry.encoding cbor ++ rest, count⟩ =
        some (map, ⟨rest, count - 1⟩) := by
  cases entry with
  | kid value =>
      obtain ⟨behind, decoded⟩ :=
        @idCredMap_of_entry zcbor cbor count rest inverts left 4
          (cbor.int32 value.toInt)
          (fun _ => { IdCredMap.noMember with kid := some value })
          (fun behind _ =>
            members_of_kid
              (present_of_label inverts (by decide)
                (Decoding.item_int32 inverts (by decide) value)))
      exact ⟨_, rfl, decoded⟩
  | string label value =>
      obtain ⟨behind, decoded⟩ :=
        @idCredMap_of_entry zcbor cbor count rest inverts left label.number
          (cbor.bstr value)
          (fun behind => label.member ⟨value.length, value ++ behind⟩)
          (fun behind begins =>
            members_of_string label begins
              (present_of_label inverts (by decide)
                (Decoding.string_bstr inverts (by decide) readable)))
      exact ⟨_, ⟨behind, rfl⟩, decoded⟩
  | certHash label alg hash =>
      have reads := fun behind =>
        @certHash_read zcbor cbor inverts label.number alg readable.1 hash
          readable.2 behind
      choose decoded view names found using reads
      obtain ⟨behind, isDecoded⟩ :=
        @idCredMap_of_entry zcbor cbor count rest inverts left label.number
          (cbor.list [alg.encoding cbor, cbor.bstr hash])
          (fun behind =>
            label.member
              ⟨decoded behind, ⟨hash.length, hash ++ view behind⟩⟩)
          (fun behind begins =>
            members_of_certHash label begins (found behind))
      exact ⟨_, ⟨_, _, names behind, rfl⟩, isDecoded⟩

end Entries

end UoscoreUedhoc.Edhoc
