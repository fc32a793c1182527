import Mathlib.Tactic.IntervalCases
import UoscoreUedhoc.Oscore.RequestBuffers

/-!
# The value of the OSCORE option

A flag byte, the Partial IV, the KID context behind a byte for its length, and
the KID, which is whatever remains.  `oscore_option_generate` writes these
parts one behind the other into a zeroed value, and `oscore_option_parser`
finds them again in every value that is divided so.
-/

namespace UoscoreUedhoc.Oscore

open UoscoreUedhoc

/-! ## Layout -/

/-- The flag `h` of the first byte of a value. -/
def kidContextFlag (first : UInt8) : UInt8 :=
  (first &&& compOscoreOptKidcHMask) >>> 4

/-- The flag `k` of the first byte of a value. -/
def kidFlag (first : UInt8) : UInt8 :=
  (first &&& compOscoreOptKidKMask) >>> 3

/-- The bits `n` of the first byte of a value. -/
def pivBits (first : UInt8) : UInt8 :=
  first &&& compOscoreOptPivNMask

/-- A KID context with its length in front, or nothing without the flag. -/
def kidContextField (h : UInt8) (kidContext : Bytes) : Bytes :=
  if h = 0 then [] else UInt8.ofNat kidContext.length :: kidContext

/-- The parts of a value, as its first byte announces them. -/
structure OptionLayout where
  first : UInt8
  piv : Bytes
  kidContext : Bytes
  kid : Bytes
  pivPresent : 0 < piv.length
  pivFits : piv.length ≤ maxPivLen
  pivAnnounced : pivBits first = UInt8.ofNat piv.length
  kidContextShort : kidContext.length < 256
  noKidContext : kidContextFlag first = 0 → kidContext = []
  noKid : kidFlag first = 0 → kid = []

namespace OptionLayout

/-- The value with these parts. -/
def bytes (layout : OptionLayout) : Bytes :=
  layout.first ::
    (layout.piv ++
      (kidContextField (kidContextFlag layout.first) layout.kidContext ++
        layout.kid))

theorem bytes_length (layout : OptionLayout) :
    layout.bytes.length =
      1 + layout.piv.length +
        (kidContextField (kidContextFlag layout.first)
          layout.kidContext).length + layout.kid.length := by
  simp only [bytes, List.length_cons, List.length_append]
  omega

end OptionLayout

/-! ## Reading -/

/-- The array consists of these bytes, all of them inside its buffer. -/
def IsArrayOf (bytes : Bytes) (view : ByteArrayView) : Prop :=
  view.InBounds ∧ view.content = bytes

theorem isArrayOf_append (bytes rest : Bytes) :
    IsArrayOf bytes ⟨bytes.length, bytes ++ rest⟩ := by
  constructor
  · unfold ByteArrayView.InBounds
    rw [List.length_append]
    exact Nat.le_add_right _ _
  · exact List.take_left

theorem isArrayOf_nullArray : IsArrayOf [] nullArray :=
  ⟨Nat.le_refl 0, rfl⟩

/-- All three arrays of a compressed option are set, to these bytes. -/
structure Carries (parsed : CompressedOscoreOption)
    (piv kidContext kid : Bytes) : Prop where
  piv : ∃ view, pivArray parsed = .ok view ∧ IsArrayOf piv view
  kidContext :
    ∃ view, parsed.kidContext = some view ∧ IsArrayOf kidContext view
  kid : ∃ view, parsed.kid = some view ∧ IsArrayOf kid view

/-- The branch for an option with a value, on the bytes of the value. -/
theorem parseOscoreValue_cons {out : CompressedOscoreOption}
    {option : OCoapOption} {first : UInt8} {p : Bytes}
    (value : option.value = first :: p) :
    parseOscoreValue out option = (do
      let (out, p, kidLen) ←
        parsePiv
          { out with
            h := some (kidContextFlag first)
            k := some (kidFlag first)
            n := some (pivBits first) }
          (pivBits first) p (option.len - 1)
      let (out, p, kidLen) ←
        parseKidContext out (kidContextFlag first) p kidLen
      .ok
        { out with
          kid :=
            some
              (if kidFlag first = 0 then nullArray
                else ⟨kidLen.toNat, p⟩) }) := by
  unfold parseOscoreValue
  rw [value]
  rfl

theorem parsePiv_present {out : CompressedOscoreOption} {n kidLen : UInt8}
    {p : Bytes} (present : n ≠ 0) (notReserved : ¬ (n = 6 ∨ n = 7)) :
    parsePiv out n p kidLen =
      .ok
        ({ out with pivPtr := some p, pivLen := some n.toNat },
          p.drop n.toNat, kidLen - n) := by
  unfold parsePiv
  rw [if_neg present, if_neg notReserved]

private theorem pivLength_toNat {piv : Bytes}
    (pivFits : piv.length ≤ maxPivLen) :
    (UInt8.ofNat piv.length).toNat = piv.length := by
  have room : maxPivLen = 5 := rfl
  apply UInt8.toNat_ofNat_of_lt'
  change _ < 256
  omega

theorem OptionLayout.pivBits_toNat (layout : OptionLayout) :
    (pivBits layout.first).toNat = layout.piv.length := by
  rw [layout.pivAnnounced, pivLength_toNat layout.pivFits]

theorem OptionLayout.pivBits_ne_zero (layout : OptionLayout) :
    pivBits layout.first ≠ 0 := by
  intro zero
  have length := layout.pivBits_toNat
  rw [zero] at length
  exact absurd length (Nat.ne_of_lt layout.pivPresent)

theorem OptionLayout.pivBits_not_reserved (layout : OptionLayout) :
    ¬ (pivBits layout.first = 6 ∨ pivBits layout.first = 7) := by
  have length := layout.pivBits_toNat
  have fits : layout.piv.length ≤ 5 := layout.pivFits
  intro reserved
  rcases reserved with six | seven
  · rw [six] at length
    have value : (6 : UInt8).toNat = 6 := rfl
    omega
  · rw [seven] at length
    have value : (7 : UInt8).toNat = 7 := rfl
    omega

private theorem sub_toNat {left right : UInt8} {rest : Nat}
    (sum : left.toNat = right.toNat + rest) : (left - right).toNat = rest := by
  rw [UInt8.toNat_sub_of_le]
  · omega
  · rw [UInt8.le_iff_toNat_le]
    omega

/-- The parser finds the parts of a value again, whatever lies behind it. -/
theorem parseOscoreValue_layout (out : CompressedOscoreOption)
    {option : OCoapOption} (layout : OptionLayout) {rest : Bytes}
    (value : option.value = layout.bytes ++ rest)
    (length : layout.bytes.length = option.len.toNat) :
    ∃ parsed, parseOscoreValue out option = .ok parsed ∧
      parsed.h = some (kidContextFlag layout.first) ∧
      Carries parsed layout.piv layout.kidContext layout.kid := by
  rw [OptionLayout.bytes_length] at length
  rw [OptionLayout.bytes, List.cons_append] at value
  have one : (1 : UInt8).toNat = 1 := rfl
  have behindFlags : (option.len - 1).toNat =
      layout.piv.length +
        ((kidContextField (kidContextFlag layout.first)
          layout.kidContext).length + layout.kid.length) := by
    apply sub_toNat
    omega
  have behindPiv : (option.len - 1 - pivBits layout.first).toNat =
      (kidContextField (kidContextFlag layout.first)
        layout.kidContext).length + layout.kid.length := by
    apply sub_toNat
    rw [behindFlags, layout.pivBits_toNat]
  rw [parseOscoreValue_cons value,
    parsePiv_present layout.pivBits_ne_zero layout.pivBits_not_reserved,
    outcome_ok_bind, layout.pivBits_toNat, List.append_assoc, List.drop_left]
  dsimp only
  generalize pivBits layout.first = n at behindPiv ⊢
  unfold parseKidContext kidContextField at *
  by_cases noContext : kidContextFlag layout.first = 0
  · rw [if_pos noContext] at behindPiv ⊢
    rw [List.length_nil, Nat.zero_add] at behindPiv
    rw [outcome_ok_bind]
    refine ⟨_, rfl, rfl, ⟨_, rfl, isArrayOf_append _ _⟩, ⟨_, rfl, ?_⟩, _, rfl,
      ?_⟩
    · rw [layout.noKidContext noContext]
      exact isArrayOf_nullArray
    · split
      · rename_i noKid
        rw [layout.noKid noKid]
        exact isArrayOf_nullArray
      · rw [behindPiv, List.nil_append]
        exact isArrayOf_append _ _
  · rw [if_neg noContext] at behindPiv ⊢
    rw [if_neg noContext]
    have contextLength :
        (UInt8.ofNat layout.kidContext.length).toNat =
          layout.kidContext.length :=
      UInt8.toNat_ofNat_of_lt' layout.kidContextShort
    have behindContext :
        (option.len - 1 - n -
          (UInt8.ofNat layout.kidContext.length + 1)).toNat =
          layout.kid.length := by
      have bounded := (option.len - 1 - n).toNat_lt
      rw [List.length_cons] at behindPiv
      apply sub_toNat
      rw [behindPiv, UInt8.toNat_add, contextLength, one,
        Nat.mod_eq_of_lt (by omega)]
    simp only [List.cons_append, List.append_assoc, outcome_ok_bind,
      contextLength, List.drop_left, behindContext]
    refine ⟨_, rfl, rfl, ⟨_, rfl, isArrayOf_append _ _⟩,
      ⟨_, rfl, isArrayOf_append _ _⟩, _, rfl, ?_⟩
    split
    · rename_i noKid
      rw [layout.noKid noKid]
      exact isArrayOf_nullArray
    · exact isArrayOf_append _ _

/-- Options with other numbers leave the compressed option alone. -/
theorem oscoreOptionSteps_others {options : List OCoapOption}
    (others : ∀ option ∈ options, option.optionNumber ≠ coapOptionOscore)
    (state : CompressedOscoreOption × Bool) :
    options.foldlM oscoreOptionStep state = .ok state := by
  induction options with
  | nil =>
      rfl
  | cons option options inductionHypothesis =>
      have other := others option List.mem_cons_self
      rw [List.foldlM_cons, oscoreOptionStep, if_neg other, outcome_ok_bind]
      apply inductionHypothesis
      intro later member
      exact others later (List.mem_cons_of_mem _ member)

/-- A packet whose OSCORE flag is set has an OSCORE option. -/
theorem exists_oscore_of_parsed {packet : OCoapPacket}
    {options : List OCoapOption} {option : CompressedOscoreOption}
    (present : packet.options = some options)
    (parsed : oscoreOptionParser packet = .ok (option, true)) :
    ∃ oscore ∈ options, oscore.optionNumber = coapOptionOscore := by
  by_contra none
  have others :
      ∀ other ∈ options, other.optionNumber ≠ coapOptionOscore := by
    intro other member isOscore
    exact none ⟨other, member, isOscore⟩
  unfold oscoreOptionParser at parsed
  rw [present, orUndefined_some, outcome_ok_bind,
    oscoreOptionSteps_others others] at parsed
  cases parsed

/-- The packet has one option with the number of the OSCORE option. -/
structure HasOscoreOption (packet : OCoapPacket) (option : OCoapOption) :
    Prop where
  number : option.optionNumber = coapOptionOscore
  split :
    ∃ before after, packet.options = some (before ++ option :: after) ∧
      ∀ other ∈ before ++ after, other.optionNumber ≠ coapOptionOscore

/-- The parser is one step of its loop then. -/
theorem HasOscoreOption.parsed {packet : OCoapPacket} {option : OCoapOption}
    (has : HasOscoreOption packet option) :
    oscoreOptionParser packet =
      oscoreOptionStep (.unwritten, false) option := by
  obtain ⟨before, after, options, others⟩ := has.split
  have beforeOthers := fun other member =>
    others other (List.mem_append_left after member)
  have afterOthers := fun other member =>
    others other (List.mem_append_right before member)
  rw [oscoreOptionParser, options, orUndefined_some, outcome_ok_bind,
    List.foldlM_append, oscoreOptionSteps_others beforeOthers,
    outcome_ok_bind, List.foldlM_cons]
  cases oscoreOptionStep (.unwritten, false) option with
  | error fault =>
      rfl
  | ok state =>
      exact oscoreOptionSteps_others afterOthers state

theorem HasOscoreOption.parsed_value {packet : OCoapPacket}
    {option : OCoapOption} (has : HasOscoreOption packet option)
    (nonempty : option.len ≠ 0) :
    oscoreOptionParser packet =
      (parseOscoreValue .unwritten option).map fun out => (out, true) := by
  rw [has.parsed, oscoreOptionStep, if_pos has.number, if_neg nonempty]
  cases parseOscoreValue .unwritten option with
  | error fault =>
      rfl
  | ok out =>
      rfl

theorem oscoreOptionParser_layout {packet : OCoapPacket}
    {option : OCoapOption} (has : HasOscoreOption packet option)
    (layout : OptionLayout) {rest : Bytes}
    (value : option.value = layout.bytes ++ rest)
    (length : layout.bytes.length = option.len.toNat) :
    ∃ parsed, oscoreOptionParser packet = .ok (parsed, true) ∧
      parsed.h = some (kidContextFlag layout.first) ∧
      Carries parsed layout.piv layout.kidContext layout.kid := by
  have nonempty : option.len ≠ 0 := by
    intro zero
    rw [zero, OptionLayout.bytes] at length
    exact absurd length (by simp)
  obtain ⟨parsed, done, flags, carries⟩ :=
    parseOscoreValue_layout .unwritten layout value length
  rw [has.parsed_value nonempty, done]
  exact ⟨parsed, rfl, flags, carries⟩

/-! ## Writing -/

/-- The first bytes of a zeroed value have been written. -/
def zeroPadded (bytes : Bytes) (len : Nat) : Bytes :=
  bytes ++ List.replicate (len - bytes.length) 0

theorem zeroPadded_whole {bytes : Bytes} {len : Nat}
    (whole : bytes.length = len) : zeroPadded bytes len = bytes := by
  rw [zeroPadded, whole, Nat.sub_self, List.replicate_zero, List.append_nil]

theorem orFirst_zeroPadded (flags bits : UInt8) (bytes : Bytes) (len : Nat) :
    orFirst (zeroPadded (flags :: bytes) len) bits =
      zeroPadded ((flags ||| bits) :: bytes) len := rfl

theorem writeAt_zeroPadded (bytes more : Bytes) (len : Nat) :
    writeAt (zeroPadded bytes len) bytes.length more =
      zeroPadded (bytes ++ more) len := by
  rw [writeAt, zeroPadded, zeroPadded, List.take_left,
    List.drop_length_add_append, List.drop_replicate, List.length_append,
    Nat.sub_sub]

/-- A copy into what is left of the value behind `offset` bytes. -/
private theorem memcpyS_behind {len : UInt8} {offset : Nat} {bytes : Bytes}
    (room : offset + bytes.length ≤ len.toNat) :
    memcpyS (uint32 (len.toNat - offset : Int)) bytes bytes.length =
      .ok bytes := by
  apply memcpyS_whole
  have bounded := len.toNat_lt
  rw [uint32_of_nonneg (by omega) (by omega)]
  omega

theorem writePiv_zeroPadded {piv : Bytes} {len : UInt8}
    (pivPresent : 0 < piv.length) (room : 1 + piv.length ≤ len.toNat) :
    writePiv piv len (List.replicate len.toNat 0) =
      .ok
        (zeroPadded (UInt8.ofNat piv.length :: piv) len.toNat,
          1 + piv.length) := by
  have zeroed : List.replicate len.toNat 0 = zeroPadded [0] len.toNat := by
    rw [zeroPadded, List.singleton_append, ← List.replicate_succ,
      List.length_singleton, Nat.sub_add_cancel (by omega)]
  have noBits : (0 : UInt8) ||| UInt8.ofNat piv.length =
      UInt8.ofNat piv.length :=
    UInt8.zero_or
  rw [writePiv, if_neg (Nat.pos_iff_ne_zero.mp pivPresent)]
  dsimp only
  rw [← Nat.cast_one, memcpyS_behind room, outcome_ok_bind, zeroed,
    orFirst_zeroPadded, noBits]
  exact congrArg (fun value => Except.ok (value, 1 + piv.length))
    (writeAt_zeroPadded [UInt8.ofNat piv.length] piv len.toNat)

/-- The flag that the writer sets for a KID context. -/
def kidContextMask (kidContext : Bytes) : UInt8 :=
  if kidContext.length = 0 then 0 else compOscoreOptKidcHMask

theorem writeKidContext_zeroPadded {flags : UInt8}
    {written kidContext : Bytes} {len : UInt8}
    (room :
      1 + written.length +
        (kidContextField (kidContextMask kidContext) kidContext).length ≤
          len.toNat) :
    writeKidContext kidContext len (zeroPadded (flags :: written) len.toNat)
        (1 + written.length) =
      .ok
        (zeroPadded
          ((flags ||| kidContextMask kidContext) ::
            (written ++
              kidContextField (kidContextMask kidContext) kidContext))
          len.toNat,
          1 + written.length +
            (kidContextField (kidContextMask kidContext)
              kidContext).length) := by
  unfold kidContextMask kidContextField at *
  unfold writeKidContext
  by_cases empty : kidContext.length = 0
  · simp only [if_pos empty, if_true, List.append_nil, List.length_nil,
      UInt8.or_zero, Nat.add_zero]
  · have set : compOscoreOptKidcHMask ≠ 0 := by
      decide
    simp only [if_neg empty, if_neg set, List.length_cons] at room ⊢
    have cast : ((1 + written.length : Nat) : Int) + 1 =
        ((1 + written.length + 1 : Nat) : Int) := rfl
    rw [cast, memcpyS_behind (by omega), outcome_ok_bind, orFirst_zeroPadded]
    have lengthWritten :=
      writeAt_zeroPadded ((flags ||| compOscoreOptKidcHMask) :: written)
        [UInt8.ofNat kidContext.length] len.toNat
    have contextWritten :=
      writeAt_zeroPadded
        ((flags ||| compOscoreOptKidcHMask) ::
          (written ++ [UInt8.ofNat kidContext.length]))
        kidContext len.toNat
    rw [List.length_cons, Nat.add_comm, List.cons_append] at lengthWritten
    rw [List.length_cons, List.length_append, List.length_singleton,
      Nat.add_comm, ← Nat.add_assoc, List.cons_append, List.append_assoc,
      List.singleton_append] at contextWritten
    rw [lengthWritten, contextWritten, Nat.add_assoc _ 1,
      Nat.add_comm 1 kidContext.length]

theorem writeKid_zeroPadded {flags : UInt8} {written kid : Bytes}
    {len : UInt8} (room : 1 + written.length + kid.length ≤ len.toNat) :
    writeKid kid len (zeroPadded (flags :: written) len.toNat)
        (1 + written.length) =
      .ok
        (zeroPadded
          ((flags ||| compOscoreOptKidKMask) :: (written ++ kid))
          len.toNat) := by
  rw [writeKid, orFirst_zeroPadded]
  by_cases empty : kid.length = 0
  · rw [if_pos empty, List.length_eq_zero_iff.mp empty, List.append_nil]
  · have kidWritten :=
      writeAt_zeroPadded ((flags ||| compOscoreOptKidKMask) :: written) kid
        len.toNat
    rw [List.length_cons, Nat.add_comm, List.cons_append] at kidWritten
    rw [if_neg empty, memcpyS_behind room, outcome_ok_bind, kidWritten]

/-! ## The written value -/

/-- The first byte that the writer makes. -/
def optionFlags (piv kidContext : Bytes) : UInt8 :=
  (UInt8.ofNat piv.length ||| kidContextMask kidContext) |||
    compOscoreOptKidKMask

theorem optionFlags_bits {piv kidContext : Bytes}
    (pivFits : piv.length ≤ maxPivLen) :
    pivBits (optionFlags piv kidContext) = UInt8.ofNat piv.length ∧
      (kidContextFlag (optionFlags piv kidContext) = 0 ↔
        kidContextMask kidContext = 0) ∧
      kidFlag (optionFlags piv kidContext) ≠ 0 := by
  have small : piv.length ≤ 5 := pivFits
  unfold optionFlags kidContextMask
  by_cases empty : kidContext.length = 0
  · rw [if_pos empty]
    interval_cases piv.length <;> decide
  · rw [if_neg empty]
    interval_cases piv.length <;> decide

/-- The value that the writer makes of these parts. -/
def writtenLayout (piv kidContext kid : Bytes)
    (pivPresent : 0 < piv.length) (pivFits : piv.length ≤ maxPivLen)
    (kidContextShort : kidContext.length < 256) : OptionLayout where
  first := optionFlags piv kidContext
  piv := piv
  kidContext := kidContext
  kid := kid
  pivPresent := pivPresent
  pivFits := pivFits
  pivAnnounced := (optionFlags_bits pivFits).1
  kidContextShort := kidContextShort
  noKidContext := by
    intro unset
    have mask := (optionFlags_bits pivFits).2.1.mp unset
    unfold kidContextMask at mask
    by_contra some
    rw [if_neg (fun empty => some (List.length_eq_zero_iff.mp empty))] at mask
    exact absurd mask (by decide)
  noKid := fun unset => absurd unset (optionFlags_bits pivFits).2.2

theorem kidContextField_written {piv kidContext : Bytes}
    (pivFits : piv.length ≤ maxPivLen) :
    kidContextField (kidContextFlag (optionFlags piv kidContext)) kidContext =
      kidContextField (kidContextMask kidContext) kidContext := by
  have same := (@optionFlags_bits piv kidContext pivFits).2.1
  unfold kidContextField
  by_cases unset : kidContextMask kidContext = 0
  · rw [if_pos unset, if_pos (same.mpr unset)]
  · rw [if_neg unset, if_neg (fun zero => unset (same.mp zero))]

theorem kidContextField_length (kidContext : Bytes) :
    (kidContextField (kidContextMask kidContext) kidContext).length =
      kidContext.length + if kidContext.length = 0 then 0 else 1 := by
  have set : compOscoreOptKidcHMask ≠ 0 := by
    decide
  unfold kidContextField kidContextMask
  by_cases empty : kidContext.length = 0
  · rw [if_pos empty, if_pos rfl, if_pos empty, List.length_nil, empty]
  · rw [if_neg empty, if_neg set, if_neg empty, List.length_cons]

section Written

variable {piv kidContext kid : Bytes} (pivPresent : 0 < piv.length)
  (pivFits : piv.length ≤ maxPivLen)
  (kidContextShort : kidContext.length < 256)

theorem writtenLayout_length
    (short : piv.length + kidContext.length + kid.length < 250) :
    (writtenLayout piv kidContext kid pivPresent pivFits
        kidContextShort).bytes.length =
      (getOscoreOptValLen piv kid kidContext).toNat := by
  rw [OptionLayout.bytes_length, getOscoreOptValLen_toNat pivPresent short,
    writtenLayout]
  dsimp only
  rw [kidContextField_written pivFits, kidContextField_length]
  omega

/-- The writer fills the whole value, with the parts in their order. -/
theorem oscoreOptionGenerate_eq
    (short : piv.length + kidContext.length + kid.length < 250) :
    oscoreOptionGenerate piv kid kidContext
        (getOscoreOptValLen piv kid kidContext) =
      .ok
        (writtenLayout piv kidContext kid pivPresent pivFits
          kidContextShort).bytes := by
  have length :=
    writtenLayout_length pivPresent pivFits kidContextShort short
  generalize getOscoreOptValLen piv kid kidContext = len at length ⊢
  have sum := length
  rw [OptionLayout.bytes_length, writtenLayout] at sum
  dsimp only at sum
  rw [kidContextField_written pivFits] at sum
  have notZero : len ≠ 0 := by
    intro zero
    rw [zero] at sum
    have none : (0 : UInt8).toNat = 0 := rfl
    omega
  have contextWritten :=
    @writeKidContext_zeroPadded (UInt8.ofNat piv.length) piv kidContext len
      (by omega)
  have kidWritten :=
    @writeKid_zeroPadded
      (UInt8.ofNat piv.length ||| kidContextMask kidContext)
      (piv ++ kidContextField (kidContextMask kidContext) kidContext) kid len
      (by rw [List.length_append]; omega)
  rw [List.length_append, ← Nat.add_assoc] at kidWritten
  rw [oscoreOptionGenerate, if_neg notZero]
  dsimp only
  rw [writePiv_zeroPadded pivPresent (by omega), outcome_ok_bind]
  dsimp only
  rw [contextWritten, outcome_ok_bind]
  dsimp only
  rw [kidWritten, ← kidContextField_written pivFits, List.append_assoc]
  exact congrArg Except.ok (zeroPadded_whole length)

end Written

/-! ## Round trip -/

/-- Partial IV, KID context and KID of the lengths that a request can have come
back from the value of its OSCORE option. -/
theorem oscoreOption_restored {piv kidContext kid : Bytes}
    (pivPresent : 1 ≤ piv.length) (pivFits : piv.length ≤ maxPivLen)
    (kidFits : kid.length ≤ maxKidLen)
    (kidContextFits : kidContext.length ≤ maxKidContextLen) :
    (getOscoreOptValLen piv kid kidContext).toNat ≤ oscoreOptValueLen ∧
      ∃ value,
        oscoreOptionGenerate piv kid kidContext
            (getOscoreOptValLen piv kid kidContext) = .ok value ∧
          value.length = (getOscoreOptValLen piv kid kidContext).toNat ∧
          ∀ packet option rest, HasOscoreOption packet option →
            option.len = getOscoreOptValLen piv kid kidContext →
            option.value = value ++ rest →
            ∃ parsed, oscoreOptionParser packet = .ok (parsed, true) ∧
              Carries parsed piv kidContext kid := by
  have sizes : maxPivLen = 5 ∧ maxKidLen = 7 ∧ maxKidContextLen = 8 ∧
      oscoreOptValueLen = 22 :=
    ⟨rfl, rfl, rfl, rfl⟩
  have kidContextShort : kidContext.length < 256 := by
    omega
  have short : piv.length + kidContext.length + kid.length < 250 := by
    omega
  have length :=
    @writtenLayout_length piv kidContext kid pivPresent pivFits
      kidContextShort short
  refine ⟨?_, _, oscoreOptionGenerate_eq pivPresent pivFits kidContextShort
    short, length, ?_⟩
  · rw [getOscoreOptValLen_toNat pivPresent short]
    split <;> omega
  · intro packet option rest has optionLen value
    obtain ⟨parsed, done, _, carries⟩ :=
      oscoreOptionParser_layout has _ value (by rw [length, optionLen])
    exact ⟨parsed, done, carries⟩

/-- A GET request with this one option. -/
def getWithOption (option : OCoapOption) : OCoapPacket where
  header := { ver := 1, type := 0, tkl := 0, code := 1, mid := 1 }
  token := some []
  options := some [option]
  payloadLen := 0
  payload := []

theorem getWithOption_hasOscoreOption {option : OCoapOption}
    (number : option.optionNumber = coapOptionOscore) :
    HasOscoreOption (getWithOption option) option :=
  ⟨number, [], [], rfl, by simp⟩

/-- A Partial IV, a KID context and a KID of two bytes come back. -/
theorem oscoreOption_restored_short :
    ∃ value parsed,
      oscoreOptionGenerate [5, 0] [1, 2] [7, 8]
          (getOscoreOptValLen [5, 0] [1, 2] [7, 8]) = .ok value ∧
        oscoreOptionParser (getWithOption (oscoreOption value)) =
          .ok (parsed, true) ∧
        Carries parsed [5, 0] [7, 8] [1, 2] := by
  obtain ⟨_, value, done, length, restored⟩ :=
    @oscoreOption_restored [5, 0] [7, 8] [1, 2] (by decide) (by decide)
      (by decide) (by decide)
  have optionLen : (oscoreOption value).len =
      getOscoreOptValLen [5, 0] [1, 2] [7, 8] := by
    rw [oscoreOption, length]
    exact UInt8.ofNat_toNat
  have pointer : (oscoreOption value).value = value ++ [] :=
    (List.append_nil value).symm
  obtain ⟨parsed, isParsed, carries⟩ :=
    restored _ _ [] (getWithOption_hasOscoreOption rfl) optionLen pointer
  exact ⟨value, parsed, done, isParsed, carries⟩

end UoscoreUedhoc.Oscore
