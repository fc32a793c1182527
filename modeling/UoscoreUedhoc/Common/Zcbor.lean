import UoscoreUedhoc.Common.External

/-!
# The zcbor runtime for maps and for decoding

The decoders under `src/cbor` are generated over the zcbor runtime.  Its
functions for single items are a parameter: each looks at the bytes that are
left and tells the value and how many bytes the item takes.  What the generated
code builds from them, optional members, unions, lists and maps, is defined
here, with the count of the elements that may still be read.

A decoded string is a pointer into the message and a length, as in
`struct zcbor_string`.
-/

namespace UoscoreUedhoc

/-- The item decoders of zcbor.  A string is given by the length of its head
and its own length, a list or a map by its number of elements or pairs. -/
structure ZcborDecoder where
  int32 : Bytes → Option (Int32 × Nat)
  uint32 : Bytes → Option (UInt32 × Nat)
  bstr : Bytes → Option (Nat × Nat)
  tstr : Bytes → Option (Nat × Nat)
  listStart : Bytes → Option (Nat × Nat)
  listEnd : Nat → Bytes → Option Nat
  mapStart : Bytes → Option (Nat × Nat)
  mapEnd : Nat → Bytes → Option Nat
  /-- A string has a head of at most nine bytes and lies inside the payload. -/
  bstr_inBounds :
    ∀ {payload : Bytes} {head length : Nat},
      bstr payload = some (head, length) →
        0 < head ∧ head ≤ 9 ∧ head + length ≤ payload.length

/-- The encoding functions of zcbor with those for maps. -/
structure CborMapEncoder extends CborEncoder where
  mapStart : Nat → Bytes
  mapEnd : Nat → Bytes

/-- A map of encoded pairs. -/
def CborMapEncoder.map (cbor : CborMapEncoder)
    (pairs : List (Bytes × Bytes)) : Bytes :=
  cbor.mapStart pairs.length ++
    (pairs.map fun (key, value) => key ++ value).flatten ++
      cbor.mapEnd pairs.length

/-- The decoders read back what the encoders write, whatever comes behind it,
and take no item for one of another type. -/
structure ZcborDecoder.Inverts
    (zcbor : ZcborDecoder) (cbor : CborMapEncoder) : Prop where
  int32 : ∀ (value : Int32) (rest : Bytes),
    zcbor.int32 (cbor.int32 value.toInt ++ rest) =
      some (value, (cbor.int32 value.toInt).length)
  uint32 : ∀ (value : UInt32) (rest : Bytes),
    zcbor.uint32 (cbor.uint32 value.toNat ++ rest) =
      some (value, (cbor.uint32 value.toNat).length)
  bstr : ∀ value rest : Bytes, value.length < 2 ^ 32 →
    ∃ head, cbor.bstr value = head ++ value ∧
      zcbor.bstr (cbor.bstr value ++ rest) = some (head.length, value.length)
  listStart : ∀ (count : Nat) (rest : Bytes), count < 2 ^ 32 →
    zcbor.listStart (cbor.listStart count ++ rest) =
      some (count, (cbor.listStart count).length)
  listEnd : ∀ (count : Nat) (rest : Bytes),
    zcbor.listEnd 0 (cbor.listEnd count ++ rest) =
      some (cbor.listEnd count).length
  mapStart : ∀ (count : Nat) (rest : Bytes), count < 2 ^ 32 →
    zcbor.mapStart (cbor.mapStart count ++ rest) =
      some (count, (cbor.mapStart count).length)
  mapEnd : ∀ (count : Nat) (rest : Bytes),
    zcbor.mapEnd 0 (cbor.mapEnd count ++ rest) =
      some (cbor.mapEnd count).length
  int32_bstr : ∀ value rest : Bytes, value.length < 2 ^ 32 →
    zcbor.int32 (cbor.bstr value ++ rest) = none
  bstr_int32 : ∀ (value : Int32) (rest : Bytes),
    zcbor.bstr (cbor.int32 value.toInt ++ rest) = none
  mapStart_int32 : ∀ (value : Int32) (rest : Bytes),
    zcbor.mapStart (cbor.int32 value.toInt ++ rest) = none
  listStart_int32 : ∀ (value : Int32) (rest : Bytes),
    zcbor.listStart (cbor.int32 value.toInt ++ rest) = none

/-- They read texts back as well, and take none for an integer. -/
structure ZcborDecoder.InvertsTexts
    (zcbor : ZcborDecoder) (cbor : CborMapEncoder) : Prop
    extends zcbor.Inverts cbor where
  tstr : ∀ value rest : Bytes, value.length < 2 ^ 32 →
    ∃ head, cbor.tstr value = head ++ value ∧
      zcbor.tstr (cbor.tstr value ++ rest) = some (head.length, value.length)
  int32_tstr : ∀ value rest : Bytes, value.length < 2 ^ 32 →
    zcbor.int32 (cbor.tstr value ++ rest) = none

/-- `zcbor_state_t`: the bytes and the number of elements that are left. -/
structure DecodeState where
  payload : Bytes
  elemCount : Nat

/-- A decoding function of the generated code. -/
abbrev Decoding (α : Type) := DecodeState → Option (α × DecodeState)

namespace Decoding

variable {α β : Type}

/-- One item, which counts as one element. -/
def item (decode : Bytes → Option (α × Nat)) : Decoding α := fun state =>
  if state.elemCount = 0 then
    none
  else
    (decode state.payload).map fun (value, taken) =>
      (value, ⟨state.payload.drop taken, state.elemCount - 1⟩)

/-- One string. -/
def string (decode : Bytes → Option (Nat × Nat)) : Decoding ByteArrayView :=
  item fun payload =>
    (decode payload).map fun (head, length) =>
      (⟨length, payload.drop head⟩, head + length)

/-- Two parts, one behind the other. -/
def andThen (first : Decoding α) (next : α → Decoding β) : Decoding β :=
  fun state => (first state).bind fun (value, rest) => next value rest

/-- What a decoder reads, as a member of a larger type. -/
def asMember (wrap : α → β) (decoder : Decoding α) : Decoding β := fun state =>
  (decoder state).map fun (value, rest) => (wrap value, rest)

/-- Two members of a union: the second one is tried where the first fails. -/
def orElse (first second : Decoding α) : Decoding α := fun state =>
  match first state with
  | some result => some result
  | none => second state

/-- `zcbor_present_decode`: an optional part. -/
def present (decoder : Decoding α) : Decoding (Option α) := fun state =>
  match decoder state with
  | some (value, rest) => some (some value, rest)
  | none => some (none, state)

/-- The loop of `zcbor_multi_decode`. -/
def multiLoop (decoder : Decoding α) : Nat → DecodeState → List α × DecodeState
  | 0, state => ([], state)
  | most + 1, state =>
      match decoder state with
      | none => ([], state)
      | some (value, rest) =>
          let (values, final) := multiLoop decoder most rest
          (value :: values, final)

/-- `zcbor_multi_decode`. -/
def multi (least most : Nat) (decoder : Decoding α) : Decoding (List α) :=
  fun state =>
    let (values, rest) := multiLoop decoder most state
    if values.length < least then none else some (values, rest)

/-- `zcbor_uint32_expect`. -/
def expect (zcbor : ZcborDecoder) (expected : UInt32) : Decoding Unit :=
  andThen (item zcbor.uint32) fun value state =>
    if value = expected then some ((), state) else none

/-- The elements between `zcbor_list_start_decode` and
`zcbor_list_end_decode`. -/
def list (zcbor : ZcborDecoder) (elements : Decoding α) : Decoding α :=
  andThen (item zcbor.listStart) fun count outer =>
    (elements ⟨outer.payload, count⟩).bind fun (value, inner) =>
      (zcbor.listEnd inner.elemCount inner.payload).map fun taken =>
        (value, ⟨inner.payload.drop taken, outer.elemCount⟩)

/-- The pairs between `zcbor_map_start_decode` and `zcbor_map_end_decode`. -/
def map (zcbor : ZcborDecoder) (pairs : Decoding α) : Decoding α :=
  andThen (item zcbor.mapStart) fun count outer =>
    (pairs ⟨outer.payload, 2 * count⟩).bind fun (value, inner) =>
      (zcbor.mapEnd inner.elemCount inner.payload).map fun taken =>
        (value, ⟨inner.payload.drop taken, outer.elemCount⟩)

/-- A generated `cbor_decode_...` function, which may leave bytes unread. -/
def decode (decoder : Decoding α) (elemCount : Nat) (payload : Bytes) :
    Option α :=
  (decoder ⟨payload, elemCount⟩).map Prod.fst

/-! ## Reading one part after the other -/

theorem andThen_of_some {first : Decoding α} {next : α → Decoding β}
    {state rest : DecodeState} {value : α}
    (read : first state = some (value, rest)) :
    andThen first next state = next value rest := by
  unfold andThen
  rw [read]
  rfl

theorem andThen_eq_some {first : Decoding α} {next : α → Decoding β}
    {state final : DecodeState} {result : β} :
    andThen first next state = some (result, final) ↔
      ∃ value rest, first state = some (value, rest) ∧
        next value rest = some (result, final) := by
  unfold andThen
  rw [Option.bind_eq_some_iff]
  constructor
  · intro read
    obtain ⟨⟨value, rest⟩, firstRead, nextRead⟩ := read
    exact ⟨value, rest, firstRead, nextRead⟩
  · intro read
    obtain ⟨value, rest, firstRead, nextRead⟩ := read
    exact ⟨(value, rest), firstRead, nextRead⟩

theorem andThen_eq_none_of_first {first : Decoding α} {next : α → Decoding β}
    {state : DecodeState} (failed : first state = none) :
    andThen first next state = none := by
  unfold andThen
  rw [failed]
  rfl

theorem orElse_of_some {first second : Decoding α} {state : DecodeState}
    {result : α × DecodeState} (read : first state = some result) :
    orElse first second state = some result := by
  unfold orElse
  rw [read]

theorem orElse_of_none {first second : Decoding α} {state : DecodeState}
    (failed : first state = none) :
    orElse first second state = second state := by
  unfold orElse
  rw [failed]

theorem asMember_of_some {wrap : α → β} {decoder : Decoding α}
    {state rest : DecodeState} {value : α}
    (read : decoder state = some (value, rest)) :
    asMember wrap decoder state = some (wrap value, rest) := by
  unfold asMember
  rw [read]
  rfl

theorem asMember_of_none {wrap : α → β} {decoder : Decoding α}
    {state : DecodeState} (failed : decoder state = none) :
    asMember wrap decoder state = none := by
  unfold asMember
  rw [failed]
  rfl

theorem present_of_some {decoder : Decoding α} {state rest : DecodeState}
    {value : α} (read : decoder state = some (value, rest)) :
    present decoder state = some (some value, rest) := by
  unfold present
  rw [read]

theorem present_of_none {decoder : Decoding α} {state : DecodeState}
    (failed : decoder state = none) :
    present decoder state = some (none, state) := by
  unfold present
  rw [failed]

theorem item_of_some {decode : Bytes → Option (α × Nat)}
    {state : DecodeState} {value : α} {taken : Nat}
    (left : state.elemCount ≠ 0)
    (read : decode state.payload = some (value, taken)) :
    item decode state =
      some (value, ⟨state.payload.drop taken, state.elemCount - 1⟩) := by
  unfold item
  rw [if_neg left, read]
  rfl

/-- Nothing is read once all elements are. -/
theorem item_of_no_element {decode : Bytes → Option (α × Nat)}
    {state : DecodeState} (noneLeft : state.elemCount = 0) :
    item decode state = none := by
  unfold item
  rw [if_pos noneLeft]

theorem item_of_none {decode : Bytes → Option (α × Nat)}
    {state : DecodeState} (failed : decode state.payload = none) :
    item decode state = none := by
  unfold item
  split
  · rfl
  · rw [failed]
    rfl

/-! ## Reading back what was encoded -/

section Inverts

variable {zcbor : ZcborDecoder} {cbor : CborMapEncoder}
  {count : Nat} {rest : Bytes}

theorem item_int32 (inverts : zcbor.Inverts cbor) (left : count ≠ 0)
    (value : Int32) :
    item zcbor.int32 ⟨cbor.int32 value.toInt ++ rest, count⟩ =
      some (value, ⟨rest, count - 1⟩) := by
  rw [item_of_some left (inverts.int32 value rest), List.drop_left]

theorem item_uint32 (inverts : zcbor.Inverts cbor) (left : count ≠ 0)
    (value : UInt32) :
    item zcbor.uint32 ⟨cbor.uint32 value.toNat ++ rest, count⟩ =
      some (value, ⟨rest, count - 1⟩) := by
  rw [item_of_some left (inverts.uint32 value rest), List.drop_left]

/-- A string is read as a view of the bytes from its first one on. -/
theorem string_of_head (left : count ≠ 0)
    {decode : Bytes → Option (Nat × Nat)} {encoding head value : Bytes}
    (encoded : encoding = head ++ value)
    (read : decode (encoding ++ rest) = some (head.length, value.length)) :
    string decode ⟨encoding ++ rest, count⟩ =
      some (⟨value.length, value ++ rest⟩, ⟨rest, count - 1⟩) := by
  have payload : encoding ++ rest = head ++ (value ++ rest) := by
    rw [encoded, List.append_assoc]
  have afterHead : (encoding ++ rest).drop head.length = value ++ rest := by
    rw [payload, List.drop_left]
  have afterString :
      (encoding ++ rest).drop (head.length + value.length) = rest := by
    rw [← List.drop_drop, afterHead, List.drop_left]
  have view :
      (decode (encoding ++ rest)).map
          (fun (head, length) =>
            ((⟨length, (encoding ++ rest).drop head⟩ : ByteArrayView),
              head + length)) =
        some (⟨value.length, value ++ rest⟩, head.length + value.length) := by
    rw [read, Option.map_some]
    dsimp only
    rw [afterHead]
  unfold string
  rw [item_of_some left view, afterString]

theorem string_bstr (inverts : zcbor.Inverts cbor) (left : count ≠ 0)
    {value : Bytes} (fits : value.length < 2 ^ 32) :
    string zcbor.bstr ⟨cbor.bstr value ++ rest, count⟩ =
      some (⟨value.length, value ++ rest⟩, ⟨rest, count - 1⟩) := by
  obtain ⟨head, encoded, read⟩ := inverts.bstr value rest fits
  exact string_of_head left encoded read

theorem string_tstr (inverts : zcbor.InvertsTexts cbor) (left : count ≠ 0)
    {value : Bytes} (fits : value.length < 2 ^ 32) :
    string zcbor.tstr ⟨cbor.tstr value ++ rest, count⟩ =
      some (⟨value.length, value ++ rest⟩, ⟨rest, count - 1⟩) := by
  obtain ⟨head, encoded, read⟩ := inverts.tstr value rest fits
  exact string_of_head left encoded read

theorem string_of_int32 (inverts : zcbor.Inverts cbor) (value : Int32) :
    string zcbor.bstr ⟨cbor.int32 value.toInt ++ rest, count⟩ = none := by
  apply item_of_none
  dsimp only
  rw [inverts.bstr_int32 value rest]
  rfl

/-- There is no string in an empty payload. -/
theorem string_of_nil : string zcbor.bstr ⟨[], count⟩ = none := by
  apply item_of_none
  dsimp only
  cases read : zcbor.bstr [] with
  | none =>
      rfl
  | some lengths =>
      obtain ⟨positive, _, inside⟩ := zcbor.bstr_inBounds read
      rw [List.length_nil] at inside
      omega

theorem multiLoop_int32 (inverts : zcbor.Inverts cbor) (values : List Int32)
    {most : Nat} (enough : values.length ≤ most) :
    multiLoop (item zcbor.int32) most
        ⟨(values.map fun value => cbor.int32 value.toInt).flatten ++ rest,
          values.length⟩ =
      (values, ⟨rest, 0⟩) := by
  induction values generalizing most with
  | nil =>
      cases most with
      | zero =>
          rfl
      | succ most =>
          have noneLeft : item zcbor.int32 ⟨rest, 0⟩ = none :=
            item_of_no_element rfl
          simp only [List.map_nil, List.flatten_nil, List.nil_append,
            List.length_nil, multiLoop, noneLeft]
  | cons value values inductionHypothesis =>
      cases most with
      | zero =>
          simp at enough
      | succ most =>
          have shorter : values.length ≤ most := by
            simpa using enough
          have first := @item_int32 _ _ (values.length + 1)
            ((values.map fun value => cbor.int32 value.toInt).flatten ++ rest)
            inverts (Nat.succ_ne_zero _) value
          simp only [List.map_cons, List.flatten_cons, List.append_assoc,
            List.length_cons, multiLoop, first, Nat.add_sub_cancel,
            inductionHypothesis shorter]

/-- A list whose elements are all read. -/
theorem list_of_elements {α : Type} (inverts : zcbor.Inverts cbor)
    (left : count ≠ 0) {elements : Decoding α} {items : List Bytes}
    {value : α} (short : items.length < 2 ^ 32)
    (read : elements
      ⟨items.flatten ++ (cbor.listEnd items.length ++ rest), items.length⟩ =
        some (value, ⟨cbor.listEnd items.length ++ rest, 0⟩)) :
    list zcbor elements ⟨cbor.list items ++ rest, count⟩ =
      some (value, ⟨rest, count - 1⟩) := by
  have payload : cbor.list items ++ rest =
      cbor.listStart items.length ++
        (items.flatten ++ (cbor.listEnd items.length ++ rest)) := by
    simp only [CborEncoder.list, List.append_assoc]
  unfold list
  rw [payload, andThen_of_some
    (item_of_some left (inverts.listStart items.length _ short))]
  dsimp only
  rw [List.drop_left, read, Option.bind_some, inverts.listEnd,
    Option.map_some, List.drop_left]

/-- A map whose pairs are all read. -/
theorem map_of_pairs {α : Type} (inverts : zcbor.Inverts cbor)
    (left : count ≠ 0) {pairs : Decoding α} {entries : List (Bytes × Bytes)}
    {value : α} (short : entries.length < 2 ^ 32)
    (read : pairs
      ⟨(entries.map fun (key, value) => key ++ value).flatten ++
          (cbor.mapEnd entries.length ++ rest), 2 * entries.length⟩ =
        some (value, ⟨cbor.mapEnd entries.length ++ rest, 0⟩)) :
    map zcbor pairs ⟨cbor.map entries ++ rest, count⟩ =
      some (value, ⟨rest, count - 1⟩) := by
  have payload : cbor.map entries ++ rest =
      cbor.mapStart entries.length ++
        ((entries.map fun (key, value) => key ++ value).flatten ++
          (cbor.mapEnd entries.length ++ rest)) := by
    simp only [CborMapEncoder.map, List.append_assoc]
  unfold map
  rw [payload, andThen_of_some
    (item_of_some left (inverts.mapStart entries.length _ short))]
  dsimp only
  rw [List.drop_left, read, Option.bind_some, inverts.mapEnd,
    Option.map_some, List.drop_left]

end Inverts

end Decoding

end UoscoreUedhoc
