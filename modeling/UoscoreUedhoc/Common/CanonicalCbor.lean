import UoscoreUedhoc.Common.Zcbor

/-!
# Reading back what the canonical encoder writes

The head of an item determines its major type and its argument, whatever comes
behind it.  So canonical encodings of different items never begin alike, and a
decoder that reads heads inverts the encoder.
-/

namespace UoscoreUedhoc

/-! ## Heads -/

/-- Major type, argument and length of the head at the front of a payload.
Arguments of eight bytes are not read. -/
def cborHeadDecode (payload : Bytes) : Option (UInt8 × Nat × Nat) :=
  match payload with
  | [] => none
  | first :: rest =>
      let majorType := first >>> 5
      let info := (first &&& 31).toNat
      if info < 24 then
        some (majorType, info, 1)
      else if info = 24 then
        match rest with
        | a :: _ => some (majorType, a.toNat, 2)
        | _ => none
      else if info = 25 then
        match rest with
        | a :: b :: _ => some (majorType, 0x100 * a.toNat + b.toNat, 3)
        | _ => none
      else if info = 26 then
        match rest with
        | a :: b :: c :: d :: _ =>
            some (majorType, 0x1000000 * a.toNat + 0x10000 * b.toNat +
              0x100 * c.toNat + d.toNat, 5)
        | _ => none
      else
        none

private theorem firstByte_parts (majorType : Fin 8) (info : Fin 32) :
    ((UInt8.ofNat majorType <<< 5) ||| UInt8.ofNat info) >>> 5 =
        UInt8.ofNat majorType ∧
      (((UInt8.ofNat majorType <<< 5) ||| UInt8.ofNat info) &&& 31).toNat =
        info := by
  revert majorType info
  decide

theorem firstByte_majorType {majorType : UInt8} (small : majorType < 8)
    {info : Nat} (infoSmall : info < 32) :
    ((majorType <<< 5) ||| UInt8.ofNat info) >>> 5 = majorType := by
  have parts := (firstByte_parts ⟨majorType.toNat, small⟩ ⟨info, infoSmall⟩).1
  simpa using parts

theorem firstByte_info {majorType : UInt8} (small : majorType < 8)
    {info : Nat} (infoSmall : info < 32) :
    (((majorType <<< 5) ||| UInt8.ofNat info) &&& 31).toNat = info := by
  have parts := (firstByte_parts ⟨majorType.toNat, small⟩ ⟨info, infoSmall⟩).2
  simpa using parts

/-- The head of an item is read back, whatever comes behind it. -/
theorem cborHeadDecode_cborHead {majorType : UInt8} (small : majorType < 8)
    {argument : Nat} (argumentSmall : argument < 2 ^ 32) (rest : Bytes) :
    cborHeadDecode (cborHead majorType argument ++ rest) =
      some (majorType, argument, (cborHead majorType argument).length) := by
  have info24 : (((majorType <<< 5) ||| UInt8.ofNat 24) &&& 31).toNat = 24 :=
    firstByte_info small (by decide)
  have info25 : (((majorType <<< 5) ||| UInt8.ofNat 25) &&& 31).toNat = 25 :=
    firstByte_info small (by decide)
  have info26 : (((majorType <<< 5) ||| UInt8.ofNat 26) &&& 31).toNat = 26 :=
    firstByte_info small (by decide)
  have type24 : ((majorType <<< 5) ||| UInt8.ofNat 24) >>> 5 = majorType :=
    firstByte_majorType small (by decide)
  have type25 : ((majorType <<< 5) ||| UInt8.ofNat 25) >>> 5 = majorType :=
    firstByte_majorType small (by decide)
  have type26 : ((majorType <<< 5) ||| UInt8.ofNat 26) >>> 5 = majorType :=
    firstByte_majorType small (by decide)
  rw [show UInt8.ofNat 24 = 24 from rfl] at info24 type24
  rw [show UInt8.ofNat 25 = 25 from rfl] at info25 type25
  rw [show UInt8.ofNat 26 = 26 from rfl] at info26 type26
  unfold cborHead cborHeadDecode
  split_ifs with first second third
  · have info := firstByte_info small (show argument < 32 by omega)
    have type := firstByte_majorType small (show argument < 32 by omega)
    simp only [List.cons_append, info, type, if_pos first,
      List.length_singleton]
  · simp [info24, type24]
    omega
  · simp [info25, type25]
    omega
  · simp [info26, type26]
    omega

/-- Heads in front of any bytes agree only when they say the same. -/
theorem cborHead_append_injective {leftType rightType : UInt8}
    (leftSmall : leftType < 8) (rightSmall : rightType < 8)
    {left right : Nat} (leftFits : left < 2 ^ 32) (rightFits : right < 2 ^ 32)
    {leftRest rightRest : Bytes}
    (same : cborHead leftType left ++ leftRest =
      cborHead rightType right ++ rightRest) :
    leftType = rightType ∧ left = right ∧ leftRest = rightRest := by
  have decoded := congrArg cborHeadDecode same
  rw [cborHeadDecode_cborHead leftSmall leftFits,
    cborHeadDecode_cborHead rightSmall rightFits] at decoded
  simp only [Option.some.injEq, Prod.mk.injEq] at decoded
  obtain ⟨sameType, sameArgument, _⟩ := decoded
  subst sameType sameArgument
  exact ⟨rfl, rfl, List.append_cancel_left same⟩

/-! ## Items -/

theorem canonicalCbor_bstr_append_injective {left right : Bytes}
    (leftFits : left.length < 2 ^ 32) (rightFits : right.length < 2 ^ 32)
    {leftRest rightRest : Bytes}
    (same : canonicalCbor.bstr left ++ leftRest =
      canonicalCbor.bstr right ++ rightRest) :
    left = right ∧ leftRest = rightRest := by
  simp only [canonicalCbor, List.append_assoc] at same
  obtain ⟨_, sameLength, sameRest⟩ :=
    cborHead_append_injective (by decide) (by decide) leftFits rightFits same
  exact List.append_inj sameRest sameLength

theorem canonicalCbor_int32_append_injective {left right : Int32}
    {leftRest rightRest : Bytes}
    (same : canonicalCbor.int32 left.toInt ++ leftRest =
      canonicalCbor.int32 right.toInt ++ rightRest) :
    left = right ∧ leftRest = rightRest := by
  have leftLow := left.le_toInt
  have leftHigh := left.toInt_lt
  have rightLow := right.le_toInt
  have rightHigh := right.toInt_lt
  have values : left.toInt = right.toInt ∧ leftRest = rightRest := by
    simp only [canonicalCbor] at same
    split_ifs at same
    · obtain ⟨_, sameValue, sameRest⟩ :=
        cborHead_append_injective (by decide) (by decide) (by omega)
          (by omega) same
      exact ⟨by omega, sameRest⟩
    · have impossible := (cborHead_append_injective (by decide) (by decide)
        (by omega) (by omega) same).1
      exact absurd impossible (by decide)
    · have impossible := (cborHead_append_injective (by decide) (by decide)
        (by omega) (by omega) same).1
      exact absurd impossible (by decide)
    · obtain ⟨_, sameValue, sameRest⟩ :=
        cborHead_append_injective (by decide) (by decide) (by omega)
          (by omega) same
      exact ⟨by omega, sameRest⟩
  exact ⟨Int32.toInt_inj.mp values.1, values.2⟩

/-- No integer is encoded like a byte string. -/
theorem canonicalCbor_int32_append_ne_bstr {value : Int32} {string : Bytes}
    (fits : string.length < 2 ^ 32) {leftRest rightRest : Bytes} :
    canonicalCbor.int32 value.toInt ++ leftRest ≠
      canonicalCbor.bstr string ++ rightRest := by
  have low := value.le_toInt
  have high := value.toInt_lt
  intro same
  simp only [canonicalCbor, List.append_assoc] at same
  split_ifs at same
  · have impossible := (cborHead_append_injective (by decide) (by decide)
      (by omega) fits same).1
    exact absurd impossible (by decide)
  · have impossible := (cborHead_append_injective (by decide) (by decide)
      (by omega) fits same).1
    exact absurd impossible (by decide)

/-! ## A decoder that inverts the encoder -/

/-- The canonical encoder with maps. -/
def canonicalMapCbor : CborMapEncoder where
  toCborEncoder := canonicalCbor
  mapStart := cborHead 5
  mapEnd _ := []

/-- A string of the given major type. -/
def cborStringDecode (majorType : UInt8) (payload : Bytes) :
    Option (Nat × Nat) :=
  match cborHeadDecode payload with
  | some (type, length, taken) =>
      if type = majorType ∧ taken + length ≤ payload.length then
        some (taken, length)
      else
        none
  | none => none

/-- The number of elements of a list or of pairs of a map. -/
def cborCountDecode (majorType : UInt8) (payload : Bytes) :
    Option (Nat × Nat) :=
  match cborHeadDecode payload with
  | some (type, count, taken) =>
      if type = majorType then some (count, taken) else none
  | none => none

def cborInt32Decode (payload : Bytes) : Option (Int32 × Nat) :=
  match cborHeadDecode payload with
  | some (type, argument, taken) =>
      if 2 ^ 31 ≤ argument then none
      else if type = 0 then some (Int32.ofInt argument, taken)
      else if type = 1 then some (Int32.ofInt (-1 - argument), taken)
      else none
  | none => none

def cborUint32Decode (payload : Bytes) : Option (UInt32 × Nat) :=
  match cborHeadDecode payload with
  | some (type, argument, taken) =>
      if type = 0 then some (UInt32.ofNat argument, taken) else none
  | none => none

theorem cborHeadDecode_taken {payload : Bytes} {type : UInt8}
    {argument taken : Nat}
    (decoded : cborHeadDecode payload = some (type, argument, taken)) :
    0 < taken ∧ taken ≤ 5 := by
  unfold cborHeadDecode at decoded
  split at decoded
  · cases decoded
  · dsimp only at decoded
    split_ifs at decoded
    · simp only [Option.some.injEq, Prod.mk.injEq] at decoded
      omega
    · split at decoded
      · simp only [Option.some.injEq, Prod.mk.injEq] at decoded
        omega
      · cases decoded
    · split at decoded
      · simp only [Option.some.injEq, Prod.mk.injEq] at decoded
        omega
      · cases decoded
    · split at decoded
      · simp only [Option.some.injEq, Prod.mk.injEq] at decoded
        omega
      · cases decoded

theorem cborStringDecode_inBounds {majorType : UInt8} {payload : Bytes}
    {head length : Nat}
    (decoded : cborStringDecode majorType payload = some (head, length)) :
    0 < head ∧ head ≤ 9 ∧ head + length ≤ payload.length := by
  unfold cborStringDecode at decoded
  split at decoded
  · rename_i type argument taken headDecoded
    have bounds := cborHeadDecode_taken headDecoded
    split_ifs at decoded with inside
    simp only [Option.some.injEq, Prod.mk.injEq] at decoded
    obtain ⟨rfl, rfl⟩ := decoded
    exact ⟨bounds.1, by omega, inside.2⟩
  · cases decoded

/-- A decoder of heads with at most four bytes of argument. -/
def canonicalZcbor : ZcborDecoder where
  int32 := cborInt32Decode
  uint32 := cborUint32Decode
  bstr := cborStringDecode 2
  tstr := cborStringDecode 3
  listStart := cborCountDecode 4
  listEnd left _ := if left = 0 then some 0 else none
  mapStart := cborCountDecode 5
  mapEnd left _ := if left = 0 then some 0 else none
  bstr_inBounds := cborStringDecode_inBounds

/-- The head that `int32` is encoded as. -/
theorem canonicalCbor_int32_head (value : Int32) :
    ∃ (majorType : UInt8) (argument : Nat),
      canonicalCbor.int32 value.toInt = cborHead majorType argument ∧
        argument < 2 ^ 31 ∧
        ((majorType = 0 ∧ value.toInt = argument) ∨
          (majorType = 1 ∧ value.toInt = -1 - argument)) := by
  have low := value.le_toInt
  have high := value.toInt_lt
  by_cases nonneg : 0 ≤ value.toInt
  · refine ⟨0, value.toInt.toNat, ?_, by omega, Or.inl ⟨rfl, by omega⟩⟩
    simp only [canonicalCbor, if_pos nonneg]
  · refine ⟨1, (-1 - value.toInt).toNat, ?_, by omega,
      Or.inr ⟨rfl, by omega⟩⟩
    simp only [canonicalCbor, if_neg nonneg]

theorem canonicalZcbor_int32 (value : Int32) (rest : Bytes) :
    canonicalZcbor.int32 (canonicalCbor.int32 value.toInt ++ rest) =
      some (value, (canonicalCbor.int32 value.toInt).length) := by
  obtain ⟨majorType, argument, encoded, small, cases⟩ :=
    canonicalCbor_int32_head value
  rw [encoded]
  simp only [canonicalZcbor, cborInt32Decode]
  rcases cases with ⟨rfl, isValue⟩ | ⟨rfl, isValue⟩
  · rw [cborHeadDecode_cborHead (by decide) (by omega)]
    simp only [if_neg (Nat.not_le_of_lt small), if_true, ← isValue,
      Int32.ofInt_toInt]
  · rw [cborHeadDecode_cborHead (by decide) (by omega)]
    simp only [if_neg (Nat.not_le_of_lt small), ← isValue, Int32.ofInt_toInt]
    rfl

theorem canonicalZcbor_bstr {value : Bytes} (fits : value.length < 2 ^ 32)
    (rest : Bytes) :
    canonicalZcbor.bstr (canonicalCbor.bstr value ++ rest) =
      some ((cborHead 2 value.length).length, value.length) := by
  simp only [canonicalZcbor, canonicalCbor, cborStringDecode,
    List.append_assoc]
  rw [cborHeadDecode_cborHead (by decide) fits]
  simp

theorem cborCountDecode_cborHead {majorType : UInt8} (small : majorType < 8)
    {count : Nat} (fits : count < 2 ^ 32) (rest : Bytes) :
    cborCountDecode majorType (cborHead majorType count ++ rest) =
      some (count, (cborHead majorType count).length) := by
  simp only [cborCountDecode]
  rw [cborHeadDecode_cborHead small fits]
  simp

/-- An integer is no list and no map. -/
theorem cborCountDecode_int32 {majorType : UInt8} (isOther : 2 ≤ majorType)
    (value : Int32) (rest : Bytes) :
    cborCountDecode majorType (canonicalCbor.int32 value.toInt ++ rest) =
      none := by
  obtain ⟨type, argument, encoded, small, cases⟩ :=
    canonicalCbor_int32_head value
  rw [encoded]
  simp only [cborCountDecode]
  have typeSmall : type < 2 := by
    rcases cases with ⟨rfl, _⟩ | ⟨rfl, _⟩
    · decide
    · decide
  have other : type ≠ majorType := by
    intro same
    rw [same] at typeSmall
    exact absurd isOther (UInt8.not_le.mpr typeSmall)
  rw [cborHeadDecode_cborHead (UInt8.lt_trans typeSmall (by decide))
    (by omega)]
  simp [other]

theorem canonicalZcbor_inverts : canonicalZcbor.Inverts canonicalMapCbor where
  int32 := canonicalZcbor_int32
  uint32 value rest := by
    simp only [canonicalZcbor, canonicalMapCbor, canonicalCbor,
      cborUint32Decode]
    rw [cborHeadDecode_cborHead (by decide) value.toNat_lt]
    simp
  bstr value rest fits :=
    ⟨cborHead 2 value.length, rfl, canonicalZcbor_bstr fits rest⟩
  listStart count rest fits := cborCountDecode_cborHead (by decide) fits rest
  listEnd count rest := rfl
  mapStart count rest fits := cborCountDecode_cborHead (by decide) fits rest
  mapEnd count rest := rfl
  int32_bstr value rest fits := by
    simp only [canonicalZcbor, canonicalMapCbor, canonicalCbor,
      cborInt32Decode, List.append_assoc]
    rw [cborHeadDecode_cborHead (by decide) fits]
    simp
  bstr_int32 value rest := by
    obtain ⟨type, argument, encoded, small, cases⟩ :=
      canonicalCbor_int32_head value
    simp only [canonicalZcbor, canonicalMapCbor, cborStringDecode]
    rw [encoded]
    rcases cases with ⟨rfl, _⟩ | ⟨rfl, _⟩
    · rw [cborHeadDecode_cborHead (by decide) (by omega)]
      simp
    · rw [cborHeadDecode_cborHead (by decide) (by omega)]
      simp
  mapStart_int32 value rest := cborCountDecode_int32 (by decide) value rest
  listStart_int32 value rest := cborCountDecode_int32 (by decide) value rest

theorem canonicalZcbor_invertsTexts :
    canonicalZcbor.InvertsTexts canonicalMapCbor where
  toInverts := canonicalZcbor_inverts
  tstr value rest fits := by
    refine ⟨cborHead 3 value.length, rfl, ?_⟩
    simp only [canonicalZcbor, canonicalMapCbor, canonicalCbor,
      cborStringDecode, List.append_assoc]
    rw [cborHeadDecode_cborHead (by decide) fits]
    simp
  int32_tstr value rest fits := by
    simp only [canonicalZcbor, canonicalMapCbor, canonicalCbor,
      cborInt32Decode, List.append_assoc]
    rw [cborHeadDecode_cborHead (by decide) fits]
    simp

end UoscoreUedhoc
