import UoscoreUedhoc.Common.External
import UoscoreUedhoc.Edhoc.Suites
import UoscoreUedhoc.Lib.Stores

/-!
# HKDF-Expand

`hkdf_expand` computes the blocks `T(i) = HMAC(PRK, T(i-1) | info | i)` with the
counter in one byte and writes them one behind the other.  The TINYCRYPT loop
counts in that byte, so that with 255 blocks it does not end at the last one;
the MBEDTLS loop counts in 32 bits and keeps `T(i-1) | info | i` in one buffer.
-/

namespace UoscoreUedhoc.Edhoc

open UoscoreUedhoc
open UoscoreUedhoc.Stores

/-- The output of a hash function with 32 bytes. -/
abbrev Digest := { bytes : Bytes // bytes.length = 32 }

/-- HMAC of a key and a message. -/
abbrev HmacFunction := Bytes → Bytes → Digest

/-- The buffer sizes of `edhoc.h`. -/
inductive BufSizes where
  | rpk
  | c509Cert
  | x509Cert
  deriving DecidableEq, Repr

/-- `INFO_DEFAULT_SIZE`. -/
def BufSizes.infoDefaultSize : BufSizes → Nat
  | .rpk => 250
  | .c509Cert => 250
  | .x509Cert => 1200

/-! ## The blocks -/

section Blocks

variable (hmac : HmacFunction) (prk info : Bytes)

/-- `T(i)`. -/
def hkdfBlock : Nat → Bytes
  | 0 => []
  | i + 1 => (hmac prk (hkdfBlock i ++ info ++ [UInt8.ofNat (i + 1)])).val

/-- `T(1) | T(2) | ... | T(count)`. -/
def hkdfBlocks : Nat → Bytes
  | 0 => []
  | count + 1 => hkdfBlocks count ++ hkdfBlock hmac prk info (count + 1)

/-- The first `length` bytes of `T(1) | T(2) | ...`. -/
def outputKeyingMaterial (length : Nat) : Bytes :=
  (hkdfBlocks hmac prk info ((length + 31) / 32)).take length

end Blocks

/-! ## TINYCRYPT -/

/-- `struct tc_hmac_state_struct`: the key and what was fed in. -/
structure TcHmacState where
  key : Bytes
  message : Bytes

/-- `tc_hmac_set_key` and `tc_hmac_init`. -/
def tcHmacInit (prk : Bytes) : TcHmacState :=
  ⟨prk, []⟩

/-- `tc_hmac_update`. -/
def tcHmacUpdate (h : TcHmacState) (data : Bytes) : TcHmacState :=
  { h with message := h.message ++ data }

/-- `tc_hmac_final`. -/
def tcHmacFinal (hmac : HmacFunction) (h : TcHmacState) : Digest :=
  hmac h.key h.message

/-- The block that one round of the TINYCRYPT loop leaves in `t`. -/
def tinycryptBlock (hmac : HmacFunction) (prk info : Bytes) (i : UInt8)
    (t : Digest) : Digest :=
  let h := tcHmacInit prk
  let h := if 1 < i then tcHmacUpdate h t.val else h
  let h := tcHmacUpdate h info
  let h := tcHmacUpdate h [i]
  tcHmacFinal hmac h

/-- The TINYCRYPT loop from the counter `i` on.  It ends in any case: after the
counter has wrapped, it writes in front of the output. -/
def tinycryptLoop (hmac : HmacFunction) (prk info : Bytes)
    (iterations outLen : UInt32) (i : UInt8) (t : Digest) (out : Bytes) :
    Outcome Bytes :=
  if i.toNat ≤ iterations.toNat then
    let t := tinycryptBlock hmac prk info i t
    let length :=
      if outLen.toNat < i.toNat * 32 then outLen.toNat % 32 else 32
    match stored :
        store out (((i.toNat : Int) - 1) * 32) (t.val.take length) with
    | some out =>
        tinycryptLoop hmac prk info iterations outLen (i + 1) t out
    | none => undefinedBehaviour
  else
    .ok out
termination_by 255 - (i - 1).toNat
decreasing_by
  have counting : 1 ≤ i := by
    have fits := (store_eq_some.mp stored).1.1
    rw [UInt8.le_iff_toNat_le]
    change 1 ≤ i.toNat
    omega
  have bound := i.toNat_lt
  rw [UInt8.add_sub_cancel, UInt8.toNat_sub_of_le _ _ counting]
  have positive : 1 ≤ i.toNat := by
    simpa using UInt8.le_iff_toNat_le.mp counting
  change 255 - i.toNat < 255 - (i.toNat - 1)
  omega

/-! ## MBEDTLS -/

/-- The MBEDTLS loop from the counter `i` on. -/
def mbedtlsLoop (hmac : HmacFunction) (prk : Bytes) (comboLen : Nat)
    (iterations outLen : UInt32) (i : Nat) (combo : Bytes) (tmpOut : Digest)
    (offset : Nat) (out : Bytes) : Outcome Bytes :=
  if i ≤ iterations.toNat then do
    let combo ← orUndefined (store combo 0 tmpOut.val)
    let combo ←
      orUndefined (store combo ((comboLen : Int) - 1) [UInt8.ofNat i])
    let tmpOut := hmac prk ((combo.drop offset).take (comboLen - offset))
    let length :=
      if outLen.toNat < i * 32 then outLen.toNat % 32 else 32
    let out ←
      orUndefined (store out (((i : Int) - 1) * 32) (tmpOut.val.take length))
    mbedtlsLoop hmac prk comboLen iterations outLen (i + 1) combo tmpOut 0 out
  else
    .ok out
termination_by iterations.toNat + 1 - i

/-- The part of `hkdf_expand` for MBEDTLS; `combo` is what the buffer on the
stack holds before. -/
def mbedtlsExpand (hmac : HmacFunction) (sizes : BufSizes)
    (prk info combo : Bytes) (iterations outLen : UInt32) (out : Bytes) :
    Outcome Bytes :=
  let comboLen := 32 + info.length + 1
  if sizes.infoDefaultSize < uint32 comboLen then
    fail .unexpectedResultFromExtLib
  else do
    let combo ← orUndefined (store combo 32 info)
    mbedtlsLoop hmac prk comboLen iterations outLen 1 combo
      ⟨List.replicate 32 0, List.length_replicate⟩ 32 out

/-! ## Both -/

/-- The libraries that `hkdf_expand` can be compiled with. -/
inductive CryptoBackend where
  | tinycrypt
  | mbedtls
  deriving DecidableEq, Repr

/-- `hkdf_expand` with the output buffer `out`; `combo` is what the buffer of
the MBEDTLS variant holds before. -/
def hkdfExpand (hmac : HmacFunction) (sizes : BufSizes)
    (backend : CryptoBackend) (alg : HashAlg) (prk info combo out : Bytes)
    (outLen : UInt32) : Outcome Bytes :=
  if alg ≠ .sha256 then
    fail .cryptoOperationNotImplemented
  else
    let iterations := (outLen + 31) / 32
    if 255 < iterations then
      fail .hkdfFialed
    else
      match backend with
      | .tinycrypt =>
          tinycryptLoop hmac prk info iterations outLen 1
            ⟨List.replicate 32 0, List.length_replicate⟩ out
      | .mbedtls =>
          mbedtlsExpand hmac sizes prk info combo iterations outLen out

/-! ## What is written after each block -/

section Filling

variable {hmac : HmacFunction} {prk info : Bytes}

theorem hkdfBlock_length (i : Nat) :
    (hkdfBlock hmac prk info (i + 1)).length = 32 :=
  (hmac prk _).property

theorem hkdfBlocks_length (count : Nat) :
    (hkdfBlocks hmac prk info count).length = count * 32 := by
  induction count with
  | zero =>
      rfl
  | succ count inductionHypothesis =>
      rw [hkdfBlocks, List.length_append, inductionHypothesis,
        hkdfBlock_length]
      omega

variable (hmac prk info) in
/-- The output buffer after `count` blocks have been cut to `outLen` bytes and
written. -/
def filled (outLen : Nat) (out : Bytes) (count : Nat) : Bytes :=
  (hkdfBlocks hmac prk info count).take outLen ++
    out.drop (min (count * 32) outLen)

theorem filled_zero (outLen : Nat) (out : Bytes) :
    filled hmac prk info outLen out 0 = out := by
  simp [filled, hkdfBlocks]

/-- The blocks that reach the output length leave the key material. -/
theorem filled_all (outLen : Nat) (out : Bytes) :
    filled hmac prk info outLen out ((outLen + 31) / 32) =
      outputKeyingMaterial hmac prk info outLen ++ out.drop outLen := by
  unfold filled outputKeyingMaterial
  rw [Nat.min_eq_right (by omega)]

/-- The store of the next block, as both loops make it. -/
theorem store_block {outLen count : Nat} {out : Bytes}
    (behind : count * 32 < outLen) (room : outLen ≤ out.length) :
    store (filled hmac prk info outLen out count) ((count : Int) * 32)
        ((hkdfBlock hmac prk info (count + 1)).take
          (if outLen < (count + 1) * 32 then outLen % 32 else 32)) =
      some (filled hmac prk info outLen out (count + 1)) := by
  have blocks := @hkdfBlocks_length hmac prk info
  have next := @hkdfBlock_length hmac prk info count
  have whole :
      (hkdfBlocks hmac prk info count).take outLen =
        hkdfBlocks hmac prk info count :=
    List.take_of_length_le (by rw [blocks]; omega)
  unfold filled
  rw [hkdfBlocks, List.take_append, whole, blocks,
    Nat.min_eq_left (show count * 32 ≤ outLen by omega),
    store_behind (by rw [blocks]; omega)]
  · rw [List.drop_drop, List.length_take, next]
    by_cases last : outLen < (count + 1) * 32
    · -- the block that is cut
      have rest : outLen % 32 = outLen - count * 32 := by
        omega
      rw [if_pos last, rest, Nat.min_eq_left (by omega),
        Nat.min_eq_right (by omega), Nat.add_sub_cancel' (by omega)]
    · rw [if_neg last, List.take_of_length_le (by omega),
        List.take_of_length_le (by omega), Nat.min_self,
        Nat.min_eq_left (by omega), Nat.add_mul, Nat.one_mul]
  · rw [List.length_take, List.length_drop, next]
    split <;> omega

end Filling

/-! ## The TINYCRYPT loop -/

section Tinycrypt

variable {hmac : HmacFunction} {prk info : Bytes}

/-- The previous block that `t` holds; before the first round it is not
read. -/
def HoldsBlock (hmac : HmacFunction) (prk info : Bytes) (count : Nat)
    (t : Digest) : Prop :=
  0 < count → t.val = hkdfBlock hmac prk info count

theorem tinycryptBlock_eq {count : Nat} {t : Digest} (small : count < 255)
    (holds : HoldsBlock hmac prk info count t) :
    (tinycryptBlock hmac prk info (UInt8.ofNat (count + 1)) t).val =
      hkdfBlock hmac prk info (count + 1) := by
  have counter : (UInt8.ofNat (count + 1)).toNat = count + 1 := by
    rw [UInt8.toNat_ofNat']
    omega
  unfold tinycryptBlock tcHmacInit tcHmacUpdate tcHmacFinal
  rw [hkdfBlock]
  by_cases later : 0 < count
  · have notFirst : 1 < UInt8.ofNat (count + 1) := by
      rw [UInt8.lt_iff_toNat_lt, counter]
      change 1 < count + 1
      omega
    simp only [notFirst, if_true, holds later, List.nil_append]
  · have first : count = 0 := by
      omega
    subst first
    simp [hkdfBlock]

/-- One round of the TINYCRYPT loop. -/
theorem tinycryptLoop_round {iterations outLen : UInt32} {i : UInt8}
    {t : Digest} {out : Bytes} (running : i.toNat ≤ iterations.toNat) :
    tinycryptLoop hmac prk info iterations outLen i t out =
      match
        store out (((i.toNat : Int) - 1) * 32)
          ((tinycryptBlock hmac prk info i t).val.take
            (if outLen.toNat < i.toNat * 32 then outLen.toNat % 32
              else 32)) with
      | some out =>
          tinycryptLoop hmac prk info iterations outLen (i + 1)
            (tinycryptBlock hmac prk info i t) out
      | none => undefinedBehaviour := by
  rw [tinycryptLoop, if_pos running]
  dsimp only
  generalize
    (if outLen.toNat < i.toNat * 32 then outLen.toNat % 32 else 32) = length
  split
  · rename_i found
    rw [found]
  · rename_i found
    rw [found]

/-- From one round on, the TINYCRYPT loop writes the remaining blocks; when
the counter then wraps, it writes in front of the output. -/
theorem tinycryptLoop_run {iterations outLen : UInt32} {out : Bytes}
    (isCeiling : iterations.toNat = (outLen.toNat + 31) / 32)
    (bounded : iterations.toNat ≤ 255) (room : outLen.toNat ≤ out.length)
    {remaining count : Nat} {t : Digest}
    (counted : count + remaining = iterations.toNat)
    (holds : HoldsBlock hmac prk info count t) :
    tinycryptLoop hmac prk info iterations outLen (UInt8.ofNat (count + 1)) t
        (filled hmac prk info outLen.toNat out count) =
      if iterations.toNat = 255 then
        undefinedBehaviour
      else
        .ok (filled hmac prk info outLen.toNat out iterations.toNat) := by
  induction remaining generalizing count t with
  | zero =>
      have all : count = iterations.toNat := by
        omega
      rw [all]
      by_cases wraps : iterations.toNat = 255
      · -- the counter is 0 again
        have counter : (UInt8.ofNat (iterations.toNat + 1)).toNat = 0 := by
          rw [wraps]
          rfl
        rw [if_pos wraps, tinycryptLoop_round (by omega),
          store_of_neg (by rw [counter]; decide)]
      · have counter :
            (UInt8.ofNat (iterations.toNat + 1)).toNat =
              iterations.toNat + 1 := by
          rw [UInt8.toNat_ofNat']
          omega
        rw [if_neg wraps, tinycryptLoop, if_neg (by omega)]
  | succ remaining inductionHypothesis =>
      have small : count < 255 := by
        omega
      have counter : (UInt8.ofNat (count + 1)).toNat = count + 1 := by
        rw [UInt8.toNat_ofNat']
        omega
      have offset :
          (((count + 1 : Nat) : Int) - 1) * 32 = (count : Int) * 32 := by
        omega
      have next : UInt8.ofNat (count + 1) + 1 = UInt8.ofNat (count + 1 + 1) := by
        apply UInt8.toNat_inj.mp
        rw [UInt8.toNat_add, counter, UInt8.toNat_ofNat']
        rfl
      have block := tinycryptBlock_eq small holds
      rw [tinycryptLoop_round (by omega), counter, offset, block,
        store_block (by omega) room, next]
      apply inductionHypothesis
      · omega
      · intro _
        exact block

end Tinycrypt

/-! ## The MBEDTLS loop -/

section Mbedtls

variable {hmac : HmacFunction} {prk info : Bytes}

/-- What the buffer of the MBEDTLS loop holds: room for the previous block,
the info, and from the last byte on anything. -/
def HoldsInfo (info combo : Bytes) : Prop :=
  ∃ block last rest, combo = block ++ (info ++ last :: rest) ∧
    block.length = 32

/-- The copy of the info leaves room for a block in front and for the counter
behind. -/
theorem store_info {combo : Bytes} {size : Nat} (hasSize : combo.length = size)
    (short : info.length + 33 ≤ size) :
    ∃ stored, store combo 32 info = some stored ∧ HoldsInfo info stored := by
  have frontLength : (combo.take 32).length = 32 := by
    rw [List.length_take]
    omega
  have stored :=
    @store_behind _ (combo.take 32) (combo.drop 32) info 32
      (by rw [frontLength]; rfl)
      (by rw [List.length_drop]; omega)
  rw [List.take_append_drop, List.append_assoc] at stored
  refine ⟨_, stored, combo.take 32, ?_⟩
  cases behind : (combo.drop 32).drop info.length with
  | nil =>
      have none := congrArg List.length behind
      rw [List.length_drop, List.length_drop, List.length_nil] at none
      omega
  | cons last rest =>
      exact ⟨last, rest, rfl, frontLength⟩

/-- The two stores of one round put the previous block in front of the info and
the counter behind it. -/
theorem store_combo {combo : Bytes} (holds : HoldsInfo info combo)
    (previous : Digest) (counter : UInt8) :
    ∃ rest stored,
      store combo 0 previous.val = some stored ∧
        store stored (((32 + info.length + 1 : Nat) : Int) - 1) [counter] =
          some (previous.val ++ (info ++ counter :: rest)) := by
  obtain ⟨block, last, rest, rfl, blockLength⟩ := holds
  refine ⟨rest, previous.val ++ (info ++ last :: rest), ?_, ?_⟩
  · have front :=
      @store_behind _ [] (block ++ (info ++ last :: rest)) previous.val 0 rfl
        (by
          rw [previous.property, List.length_append]
          omega)
    rw [List.nil_append, previous.property,
      List.drop_left' blockLength] at front
    exact front
  · have behind :=
      @store_behind _ (previous.val ++ info) (last :: rest) [counter]
        (((32 + info.length + 1 : Nat) : Int) - 1)
        (by
          rw [List.length_append, previous.property]
          omega)
        (by simp)
    simpa using behind

/-- From one round on, the MBEDTLS loop writes the remaining blocks. -/
theorem mbedtlsLoop_run {iterations outLen : UInt32} {out : Bytes}
    (isCeiling : iterations.toNat = (outLen.toNat + 31) / 32)
    (room : outLen.toNat ≤ out.length)
    {remaining count offset : Nat} {combo : Bytes} {tmpOut : Digest}
    (counted : count + remaining = iterations.toNat)
    (holds : HoldsInfo info combo)
    (skips : if count = 0 then offset = 32
      else offset = 0 ∧ tmpOut.val = hkdfBlock hmac prk info count) :
    mbedtlsLoop hmac prk (32 + info.length + 1) iterations outLen (count + 1)
        combo tmpOut offset (filled hmac prk info outLen.toNat out count) =
      .ok (filled hmac prk info outLen.toNat out iterations.toNat) := by
  induction remaining generalizing count offset combo tmpOut with
  | zero =>
      have all : count = iterations.toNat := by
        omega
      rw [mbedtlsLoop, if_neg (by omega), all]
  | succ remaining inductionHypothesis =>
      obtain ⟨rest, stored, first, second⟩ :=
        store_combo holds tmpOut (UInt8.ofNat (count + 1))
      have index :
          (((count + 1 : Nat) : Int) - 1) * 32 = (count : Int) * 32 := by
        omega
      have block :
          (hmac prk
              (((tmpOut.val ++ (info ++ UInt8.ofNat (count + 1) :: rest)).drop
                  offset).take (32 + info.length + 1 - offset))).val =
            hkdfBlock hmac prk info (count + 1) := by
        rw [hkdfBlock]
        by_cases isFirst : count = 0
        · rw [if_pos isFirst] at skips
          subst isFirst skips
          rw [List.drop_left' tmpOut.property,
            show 32 + info.length + 1 - 32 = info.length + 1 by omega,
            List.take_length_add_append]
          rfl
        · rw [if_neg isFirst] at skips
          obtain ⟨rfl, previous⟩ := skips
          have length :
              32 + info.length + 1 - 0 =
                (tmpOut.val ++ info).length + 1 := by
            rw [List.length_append, tmpOut.property]
            omega
          rw [List.drop_zero, ← List.append_assoc, length,
            List.take_length_add_append, previous]
          rfl
      rw [mbedtlsLoop, if_pos (by omega), first]
      simp only [orUndefined, outcome_ok_bind, second]
      rw [index, block, store_block (by omega) room]
      simp only [outcome_ok_bind]
      apply inductionHypothesis
      · omega
      · exact ⟨tmpOut.val, _, rest, rfl, tmpOut.property⟩
      · rw [if_neg (by omega)]
        exact ⟨rfl, block⟩

end Mbedtls

/-! ## Key expansion -/

/-- `hkdf_expand` does what RFC 5869 asks for: it writes the key material to
the front of the output buffer, and refuses more than 255 blocks. -/
def Expands (hmac : HmacFunction) (sizes : BufSizes)
    (backend : CryptoBackend) (prk info combo out : Bytes)
    (outLen : UInt32) : Prop :=
  if outLen.toNat ≤ 255 * 32 then
    hkdfExpand hmac sizes backend .sha256 prk info combo out outLen =
      .ok
        (outputKeyingMaterial hmac prk info outLen.toNat ++
          out.drop outLen.toNat)
  else
    ∃ code,
      hkdfExpand hmac sizes backend .sha256 prk info combo out outLen =
        fail code

section Expansion

variable {hmac : HmacFunction} {sizes : BufSizes} {prk info combo out : Bytes}
variable {outLen : UInt32}

/-- The number of blocks, rounded up without a carry out of 32 bits. -/
theorem iterations_toNat (small : outLen.toNat ≤ 2 ^ 32 - 32) :
    ((outLen + 31) / 32).toNat = (outLen.toNat + 31) / 32 := by
  rw [UInt32.toNat_div, UInt32.toNat_add]
  change (outLen.toNat + 31) % 2 ^ 32 / 32 = _
  rw [Nat.mod_eq_of_lt (by omega)]

theorem hkdfExpand_tooLong (backend : CryptoBackend)
    (small : outLen.toNat ≤ 2 ^ 32 - 32) (tooLong : 255 * 32 < outLen.toNat) :
    hkdfExpand hmac sizes backend .sha256 prk info combo out outLen =
      fail .hkdfFialed := by
  have blocks := iterations_toNat small
  unfold hkdfExpand
  rw [if_neg (by simp), if_pos]
  rw [UInt32.lt_iff_toNat_lt, blocks]
  change 255 < _
  omega

theorem hkdfExpand_tinycrypt (small : outLen.toNat ≤ 255 * 32)
    (room : outLen.toNat ≤ out.length) :
    hkdfExpand hmac sizes .tinycrypt .sha256 prk info combo out outLen =
      if 254 * 32 < outLen.toNat then
        undefinedBehaviour
      else
        .ok
          (outputKeyingMaterial hmac prk info outLen.toNat ++
            out.drop outLen.toNat) := by
  have blocks := @iterations_toNat outLen (by omega)
  have run :=
    @tinycryptLoop_run hmac prk info _ _ _ blocks (by omega) room
      _ 0 ⟨List.replicate 32 0, List.length_replicate⟩ (Nat.zero_add _)
      (fun later => absurd later (Nat.lt_irrefl 0))
  rw [filled_zero] at run
  unfold hkdfExpand
  rw [if_neg (by simp), if_neg]
  · rw [blocks, filled_all] at run
    refine run.trans ?_
    by_cases last : 254 * 32 < outLen.toNat
    · rw [if_pos last, if_pos (by omega)]
    · rw [if_neg last, if_neg (by omega)]
  · rw [UInt32.lt_iff_toNat_lt, blocks]
    change ¬ 255 < _
    omega

theorem hkdfExpand_mbedtls (small : outLen.toNat ≤ 255 * 32)
    (room : outLen.toNat ≤ out.length)
    (hasCombo : combo.length = sizes.infoDefaultSize)
    (short : info.length ≤ sizes.infoDefaultSize - 33) :
    hkdfExpand hmac sizes .mbedtls .sha256 prk info combo out outLen =
      .ok
        (outputKeyingMaterial hmac prk info outLen.toNat ++
          out.drop outLen.toNat) := by
  have blocks := @iterations_toNat outLen (by omega)
  have sizeBounds :
      33 ≤ sizes.infoDefaultSize ∧ sizes.infoDefaultSize ≤ 1200 := by
    cases sizes <;> decide
  obtain ⟨stored, copied, holds⟩ :=
    @store_info info combo _ hasCombo (by omega)
  have run :=
    @mbedtlsLoop_run hmac prk info _ _ _ blocks room _ 0 32 stored
      ⟨List.replicate 32 0, List.length_replicate⟩ (Nat.zero_add _) holds rfl
  rw [filled_zero, blocks, filled_all] at run
  unfold hkdfExpand mbedtlsExpand
  rw [if_neg (by simp), if_neg]
  · dsimp only
    rw [uint32_of_nonneg (by omega) (by omega), if_neg (by omega), copied]
    exact run
  · rw [UInt32.lt_iff_toNat_lt, blocks]
    change ¬ 255 < _
    omega

end Expansion

/-- With TINYCRYPT, `hkdf_expand` does what RFC 5869 asks for exactly when the
output takes fewer than 255 blocks or too many; with MBEDTLS it always does. -/
theorem hkdfExpand_expands_iff (hmac : HmacFunction) (sizes : BufSizes)
    (prk info combo out : Bytes) (outLen : UInt32)
    (positive : 1 ≤ outLen.toNat) (small : outLen.toNat ≤ 2 ^ 32 - 32)
    (room : outLen.toNat ≤ out.length)
    (hasCombo : combo.length = sizes.infoDefaultSize)
    (short : info.length ≤ sizes.infoDefaultSize - 33) :
    ((∀ backend, Expands hmac sizes backend prk info combo out outLen) ↔
        ¬ (254 * 32 < outLen.toNat ∧ outLen.toNat ≤ 255 * 32)) ∧
      Expands hmac sizes .mbedtls prk info combo out outLen := by
  have mbedtls : Expands hmac sizes .mbedtls prk info combo out outLen := by
    unfold Expands
    split
    · rename_i bounded
      exact hkdfExpand_mbedtls bounded room hasCombo short
    · rename_i tooLong
      exact ⟨_, hkdfExpand_tooLong .mbedtls small (by omega)⟩
  refine ⟨⟨?_, ?_⟩, mbedtls⟩
  · intro expands wraps
    have result := expands .tinycrypt
    unfold Expands at result
    rw [if_pos wraps.2, hkdfExpand_tinycrypt wraps.2 room,
      if_pos wraps.1] at result
    cases result
  · intro ends backend
    cases backend with
    | mbedtls =>
        exact mbedtls
    | tinycrypt =>
        unfold Expands
        split
        · rename_i bounded
          rw [hkdfExpand_tinycrypt bounded room, if_neg (by omega)]
        · rename_i tooLong
          exact ⟨_, hkdfExpand_tooLong .tinycrypt small (by omega)⟩

/-- 42 bytes of output for an empty info, with a function in the place of HMAC
that repeats the last byte of the message. -/
theorem hkdfExpand_expands_two :
    Expands
      (fun _ message =>
        ⟨List.replicate 32 (message.getLastD 0), List.length_replicate⟩)
      .rpk .tinycrypt [1, 2, 3] [] (List.replicate 250 0)
      (List.replicate 42 0) 42 :=
  (hkdfExpand_expands_iff
      (fun _ message =>
        ⟨List.replicate 32 (message.getLastD 0), List.length_replicate⟩)
      .rpk [1, 2, 3] [] (List.replicate 250 0) (List.replicate 42 0) 42
      (by decide) (by decide) (by decide) List.length_replicate
      (by decide)).1.mpr (by decide) .tinycrypt

/-- 255 blocks with TINYCRYPT. -/
theorem counter_wraps :
    ¬ ∀ (hmac : HmacFunction) (sizes : BufSizes) (prk info combo out : Bytes)
        (outLen : UInt32), 1 ≤ outLen.toNat → outLen.toNat ≤ 2 ^ 32 - 32 →
        outLen.toNat ≤ out.length → combo.length = sizes.infoDefaultSize →
        info.length ≤ sizes.infoDefaultSize - 33 →
        ∀ backend, Expands hmac sizes backend prk info combo out outLen := by
  intro claimed
  have small : (8160 : UInt32).toNat ≤ 255 * 32 := by
    decide
  have room :
      (8160 : UInt32).toNat ≤ (List.replicate 8160 (0 : UInt8)).length := by
    rw [List.length_replicate]
    exact Nat.le_refl _
  have result :=
    claimed (fun _ _ => ⟨List.replicate 32 0, List.length_replicate⟩) .rpk
      [1, 2, 3] [] (List.replicate 250 0) (List.replicate 8160 0) 8160
      (by decide) (by decide) room List.length_replicate (by decide) .tinycrypt
  unfold Expands at result
  rw [if_pos small, hkdfExpand_tinycrypt small room,
    if_pos (by decide)] at result
  cases result

end UoscoreUedhoc.Edhoc
