import UoscoreUedhoc.Lib.Stores
import UoscoreUedhoc.Oscore.RequestBuffers

/-!
# Stores into the output buffer

`coap2buf` checks its copies against the space left in the output buffer, but
not the four bytes of the header and the payload marker.  So the header needs
four bytes, and where the options end at the end of the buffer the marker is
written behind it, after which the space left wraps around.
-/

namespace UoscoreUedhoc.Oscore

open UoscoreUedhoc
open UoscoreUedhoc.Stores
open Update

/-! ## The stores of `coap2buf` -/

/-- The stores made so far. -/
abbrev StoreLog := List (Store UInt8)

/-- Store bytes into the output buffer. -/
def storeBytes (offset : Nat) (bytes : Bytes) : Update StoreLog PUnit :=
  modify (· ++ [⟨offset, bytes⟩])

/-- The copy of the token. -/
def tokenStores (input : OCoapPacket) (outLen : Nat) :
    Update StoreLog PUnit :=
  if 0 < input.header.tkl then do
    let token ← .lift (orUndefined input.token)
    let token ←
      .lift
        (memcpyS (uint32 ((outLen : Int) - headerLen)) token
          input.header.tkl.toNat)
    storeBytes headerLen token
  else
    pure PUnit.unit

/-- The options, converted and copied: the offset behind them. -/
def optionStores (input : OCoapPacket) (outLen : Nat) :
    Update StoreLog Nat := do
  let options ← .lift (orUndefined input.options)
  .lift (checkBufferSize maxCoapOptionsLen (maximalOptionsLen options))
  let optionBytes ←
    .lift (optionsIntoByteString (maximalOptionsLen options) options)
  let offset := headerLen + input.header.tkl.toNat
  let optionBytes ←
    .lift
      (memcpyS (uint32 ((outLen : Int) - offset)) optionBytes
        optionBytes.length)
  storeBytes offset optionBytes
  pure (offset + optionBytes.length)

/-- The part of `coap2buf` in front of the payload. -/
def frontStores (input : OCoapPacket) (outLen : Nat) :
    Update StoreLog Nat := do
  storeBytes 0 (headerBytes input.header)
  tokenStores input outLen
  optionStores input outLen

/-- The payload and its marker, from `offset` on: the number of bytes
written. -/
def payloadStores (input : OCoapPacket) (outLen offset : Nat) :
    Update StoreLog Nat :=
  if input.payloadLen = 0 then
    pure offset
  else do
    storeBytes offset [0xFF]
    let payload ←
      .lift
        (memcpyS (uint32 ((outLen : Int) - (offset + 1 : Nat))) input.payload
          input.payloadLen)
    storeBytes (offset + 1) payload
    pure (uint32 ((offset + (1 + input.payloadLen) : Nat)))

/-- `coap2buf` with the capacity `outLen`, as the stores that it makes, also
those behind the buffer, and the new value of `*out_byte_string_len`. -/
def coap2bufStores (input : OCoapPacket) (outLen : Nat) :
    Update StoreLog Nat := do
  let offset ← frontStores input outLen
  payloadStores input outLen offset

/-! ## The properties -/

/-- All stores lie in the first `capacity` bytes. -/
def Inside (capacity : Nat) (log : StoreLog) : Prop :=
  ∀ store ∈ log, store.InBounds capacity

/-- A run returns an error, or `ok` with a length within the capacity, and
stores nothing behind it. -/
def StaysInside (capacity : Nat) (run : Outcome Nat × StoreLog) : Prop :=
  Inside capacity run.2 ∧
    ((∃ code, run.1 = fail code) ∨
      ∃ length, run.1 = .ok length ∧ length ≤ capacity)

/-- `coap2buf` stays inside its output buffer. -/
def RespectsOutput (packet : OCoapPacket) (capacity : Nat) : Prop :=
  StaysInside capacity (exec (coap2bufStores packet capacity) [])

/-- The pointers of the packet lead to what they are to lead to. -/
structure Readable (packet : OCoapPacket) : Prop where
  token : HasToken packet
  options : ∃ options, packet.options = some options ∧ HasValues options
  payload : packet.payloadLen ≤ packet.payload.length

/-- The options end at the end of the buffer, and the marker comes behind. -/
def MarkerOutside (packet : OCoapPacket) (capacity : Nat) : Prop :=
  packet.payloadLen ≠ 0 ∧ HasToken packet ∧
    ∃ options, packet.options = some options ∧ HasValues options ∧
      maximalOptionsLen options ≤ maxCoapOptionsLen ∧
      capacity =
        headerLen + packet.header.tkl.toNat + (optionsWritten options).length

/-! ## Stores -/

section Log

variable {capacity offset : Nat} {bytes : Bytes}

@[simp]
theorem exec_storeBytes (log : StoreLog) :
    exec (storeBytes offset bytes) log =
      (.ok PUnit.unit, log ++ [⟨offset, bytes⟩]) := rfl

theorem storeBytes_inside (fits : offset + bytes.length ≤ capacity) :
    Keeps (Preserves (Inside capacity)) (storeBytes offset bytes) := by
  intro log inside store member
  rcases List.mem_append.mp member with before | new
  · exact inside store before
  · rw [List.mem_singleton.mp new]
    exact fits

/-- No store is taken back. -/
def Grows (before after : StoreLog) : Prop :=
  before ⊆ after

instance : Std.Refl Grows where
  refl _ := List.Subset.refl _

instance : IsTrans StoreLog Grows where
  trans _ _ _ := List.Subset.trans

theorem storeBytes_grows : Keeps Grows (storeBytes offset bytes) :=
  fun _ => List.subset_append_left _ _

end Log

theorem uint32_room {outLen offset : Nat} (inside : offset ≤ outLen)
    (narrow : outLen < 2 ^ 32) :
    uint32 ((outLen : Int) - offset) = outLen - offset := by
  rw [uint32_of_nonneg (by omega) (by omega)]
  omega

section Front

variable {packet : OCoapPacket} {outLen : Nat}

theorem tokenStores_grows : Keeps Grows (tokenStores packet outLen) := by
  refine Keeps.ite ?_ (Keeps.pure _)
  exact
    Keeps.bind (Keeps.lift _) fun _ =>
      Keeps.bind (Keeps.lift _) fun _ => storeBytes_grows

theorem optionStores_grows : Keeps Grows (optionStores packet outLen) :=
  Keeps.bind (Keeps.lift _) fun _ =>
    Keeps.bind (Keeps.lift _) fun _ =>
      Keeps.bind (Keeps.lift _) fun _ =>
        Keeps.bind (Keeps.lift _) fun _ =>
          Keeps.bind storeBytes_grows fun _ => Keeps.pure _

/-- The header is stored in any case. -/
theorem frontStores_header :
    ⟨0, headerBytes packet.header⟩ ∈
      (exec (frontStores packet outLen) []).2 := by
  have grows :
      Grows (exec (storeBytes 0 (headerBytes packet.header)) []).2
        (exec (frontStores packet outLen) []).2 :=
    Keeps.behind
      (fun _ => Keeps.bind tokenStores_grows fun _ => optionStores_grows) []
  exact grows (List.mem_singleton.mpr rfl)

variable (packet) in
/-- The stores of the part in front of the payload. -/
def frontLog (options : List OCoapOption) : StoreLog :=
  [⟨0, headerBytes packet.header⟩] ++
    (if 0 < packet.header.tkl then [⟨headerLen, tokenWritten packet⟩]
      else []) ++
    [⟨headerLen + packet.header.tkl.toNat, optionsWritten options⟩]

variable (room : headerLen ≤ outLen) (narrow : outLen < 2 ^ 32)

include room narrow

theorem tokenStores_eq_ok {log after : StoreLog} {done : PUnit} :
    exec (tokenStores packet outLen) log = (.ok done, after) ↔
      HasToken packet ∧ headerLen + packet.header.tkl.toNat ≤ outLen ∧
        after =
          log ++
            if 0 < packet.header.tkl then [⟨headerLen, tokenWritten packet⟩]
            else [] := by
  unfold tokenStores HasToken tokenWritten
  by_cases present : 0 < packet.header.tkl
  · simp only [present, if_true, true_implies, exec_lift_bind, andThen_eq_ok,
      orUndefined_eq_ok, memcpyS_eq_ok, exec_storeBytes, Prod.mk.injEq,
      true_and, uint32_room room narrow]
    constructor
    · intro copied
      obtain ⟨token, isToken, bytes, ⟨fits, available, rfl⟩, rfl⟩ := copied
      refine ⟨⟨token, isToken, available⟩, by omega, ?_⟩
      rw [isToken]
      rfl
    · intro described
      obtain ⟨⟨token, isToken, available⟩, fits, rfl⟩ := described
      refine ⟨token, isToken, _, ⟨by omega, available, rfl⟩, ?_⟩
      rw [isToken]
      rfl
  · have none : packet.header.tkl.toNat = 0 := by
      simpa [UInt8.lt_iff_toNat_lt] using present
    simp only [present, if_false, false_implies, true_and, exec_pure,
      Prod.mk.injEq, List.append_nil, none, Nat.add_zero, room, eq_comm]

theorem frontStores_eq_ok {before log : StoreLog} {offset : Nat} :
    exec (frontStores packet outLen) before = (.ok offset, log) ↔
      HasToken packet ∧ ∃ options, packet.options = some options ∧
        HasValues options ∧ maximalOptionsLen options ≤ maxCoapOptionsLen ∧
        offset =
          headerLen + packet.header.tkl.toNat +
            (optionsWritten options).length ∧
        offset ≤ outLen ∧ log = before ++ frontLog packet options := by
  unfold frontStores optionStores frontLog
  simp only [exec_lift_bind, andThen_eq_ok, exec_bind_eq_ok, exec_storeBytes,
    Prod.mk.injEq, tokenStores_eq_ok room narrow, orUndefined_eq_ok,
    checkBufferSize_eq_ok, optionsIntoByteString_eq_ok, memcpyS_eq_ok,
    List.take_length, exec_pure, Except.ok.injEq, ← List.append_assoc]
  constructor
  · intro done
    obtain ⟨_, _, ⟨_, rfl⟩, _, _, ⟨hasToken, tokenFits, rfl⟩, options,
      isOptions, _, short, _, ⟨values, _, rfl⟩, _, ⟨optionsFit, _, rfl⟩, _, _,
      ⟨_, rfl⟩, rfl, rfl⟩ := done
    rw [uint32_room tokenFits narrow] at optionsFit
    exact
      ⟨hasToken, options, isOptions, values, short, rfl, by omega, rfl⟩
  · intro described
    obtain ⟨hasToken, options, isOptions, values, short, rfl, fits, rfl⟩ :=
      described
    refine
      ⟨PUnit.unit, _, ⟨trivial, rfl⟩, PUnit.unit, _,
        ⟨hasToken, by omega, rfl⟩, options, isOptions, (), short, _,
        ⟨values, optionsWritten_length_le values, rfl⟩, _,
        ⟨?_, Nat.le_refl _, rfl⟩, PUnit.unit, _, ⟨trivial, rfl⟩, rfl, rfl⟩
    rw [uint32_room (by omega) narrow]
    omega

omit room narrow in
/-- The stores in front of the payload, one behind the other. -/
theorem frontLog_consecutive (hasToken : HasToken packet)
    (options : List OCoapOption) :
    Consecutive 0 (frontLog packet options) ∧
      contents (frontLog packet options) =
        headerBytes packet.header ++ tokenWritten packet ++
          optionsWritten options := by
  have tokenLength := tokenWritten_length hasToken
  have headerLength : (headerBytes packet.header).length = headerLen := rfl
  have started :
      Consecutive 0 [⟨0, headerBytes packet.header⟩] :=
    ⟨rfl, trivial⟩
  unfold frontLog
  by_cases present : 0 < packet.header.tkl
  · rw [if_pos present]
    constructor
    · apply Consecutive.concat
      · apply Consecutive.concat started
        rw [contents_singleton, headerLength, Nat.zero_add]
      · rw [contents_append, contents_singleton, contents_singleton,
          List.length_append, headerLength, tokenLength, Nat.zero_add]
    · rw [contents_append, contents_append, contents_singleton,
        contents_singleton, contents_singleton]
  · have none : packet.header.tkl.toNat = 0 := by
      simpa [UInt8.lt_iff_toNat_lt] using present
    have noToken : tokenWritten packet = [] := by
      unfold tokenWritten
      rw [if_neg present]
    rw [if_neg present, List.append_nil, noToken, List.append_nil]
    constructor
    · apply Consecutive.concat started
      rw [contents_singleton, headerLength, none]
      rfl
    · rw [contents_append, contents_singleton, contents_singleton]

theorem tokenStores_inside :
    Keeps (Preserves (Inside outLen)) (tokenStores packet outLen) := by
  refine Keeps.ite ?_ (Keeps.pure _)
  refine Keeps.bind (Keeps.lift _) fun _ => Keeps.lift_bind fun _ copied => ?_
  obtain ⟨fits, available, rfl⟩ := memcpyS_eq_ok.mp copied
  rw [uint32_room room narrow] at fits
  apply storeBytes_inside
  rw [List.length_take]
  omega

omit room in
theorem optionStores_inside
    (tokenFits : headerLen + packet.header.tkl.toNat ≤ outLen) :
    Keeps (Preserves (Inside outLen)) (optionStores packet outLen) := by
  refine Keeps.bind (Keeps.lift _) fun options => ?_
  refine Keeps.bind (Keeps.lift _) fun _ => ?_
  refine Keeps.bind (Keeps.lift _) fun optionBytes => ?_
  refine Keeps.lift_bind fun _ copied => ?_
  obtain ⟨fits, available, rfl⟩ := memcpyS_eq_ok.mp copied
  rw [uint32_room tokenFits narrow] at fits
  refine Keeps.bind (storeBytes_inside ?_) fun _ => Keeps.pure _
  rw [List.length_take]
  omega

/-- With room for the header, everything in front of the payload is checked. -/
theorem frontStores_inside :
    Keeps (Preserves (Inside outLen)) (frontStores packet outLen) := by
  refine Keeps.bind (storeBytes_inside ?_) fun _ => ?_
  · rw [Nat.zero_add]
    exact room
  refine
    Keeps.bind_of_ok (tokenStores_inside room narrow)
      fun _ _ _ tokenStored => ?_
  obtain ⟨_, tokenFits, _⟩ := (tokenStores_eq_ok room narrow).mp tokenStored
  exact optionStores_inside narrow tokenFits

omit room narrow in
theorem tokenStores_defined (hasToken : HasToken packet) :
    Defined (tokenStores packet outLen) := by
  refine Defined.ite (fun present => ?_) fun _ => Defined.pure _
  obtain ⟨token, isToken, available⟩ := hasToken present
  rw [isToken]
  refine Defined.lift_bind (by simp) fun _ isSource => ?_
  obtain rfl := Except.ok.inj isSource
  exact
    Defined.bind (Defined.lift (memcpyS_defined available)) fun _ =>
      Defined.modify

omit room narrow in
theorem optionStores_undefined_iff {options : List OCoapOption}
    (isOptions : packet.options = some options) (log : StoreLog) :
    (exec (optionStores packet outLen) log).1 = undefinedBehaviour ↔
      maximalOptionsLen options ≤ maxCoapOptionsLen ∧
        ¬ HasValues options := by
  unfold optionStores
  rw [isOptions, orUndefined_some, exec_lift_bind, andThen_ok, exec_lift_bind]
  by_cases short : maximalOptionsLen options ≤ maxCoapOptionsLen
  · rw [checkBufferSize_of_le short, andThen_ok, exec_lift_bind]
    simp only [short, true_and]
    by_cases values : HasValues options
    · rw [optionsIntoByteString_eq_ok.mpr
        ⟨values, optionsWritten_length_le values, rfl⟩, andThen_ok]
      apply iff_of_false
      · exact
          Defined.bind (Defined.lift (memcpyS_defined (Nat.le_refl _)))
            (fun _ => Defined.bind Defined.modify fun _ => Defined.pure _) log
      · exact not_not.mpr values
    · rw [(optionsIntoByteString_eq_undefined (Nat.le_refl _)).mpr values]
      exact iff_of_true rfl values
  · have refused :
        checkBufferSize maxCoapOptionsLen (maximalOptionsLen options) =
          fail .bufferToSmall :=
      if_pos (Nat.lt_of_not_le short)
    rw [refused]
    apply iff_of_false
    · intro impossible
      cases impossible
    · exact fun stops => short stops.1

/-- In front of the payload only a missing value that is reached is
undefined. -/
theorem frontStores_undefined_iff (hasToken : HasToken packet)
    {options : List OCoapOption} (isOptions : packet.options = some options)
    (log : StoreLog) :
    (exec (frontStores packet outLen) log).1 = undefinedBehaviour ↔
      headerLen + packet.header.tkl.toNat ≤ outLen ∧
        maximalOptionsLen options ≤ maxCoapOptionsLen ∧
        ¬ HasValues options := by
  unfold frontStores
  rw [exec_bind, exec_storeBytes]
  dsimp only
  generalize log ++ [⟨0, headerBytes packet.header⟩] = before
  rw [exec_bind]
  have tokenDefined := @tokenStores_defined packet outLen hasToken before
  cases stored : exec (tokenStores packet outLen) before with
  | mk outcome between =>
      cases outcome with
      | ok done =>
          obtain ⟨_, tokenFits, _⟩ := (tokenStores_eq_ok room narrow).mp stored
          simp only [tokenFits, true_and]
          exact optionStores_undefined_iff isOptions between
      | error fault =>
          rw [stored] at tokenDefined
          apply iff_of_false
          · intro stops
            exact tokenDefined (congrArg Except.error (Except.error.inj stops))
          · intro stops
            have fits :=
              (@tokenStores_eq_ok packet outLen room narrow before _
                PUnit.unit).mpr ⟨hasToken, stops.1, rfl⟩
            rw [stored] at fits
            cases fits

end Front

section Payload

variable {packet : OCoapPacket} {outLen offset : Nat}

variable (packet) in
/-- The stores of the payload and its marker. -/
def payloadLog (offset : Nat) : StoreLog :=
  if packet.payloadLen = 0 then []
  else
    [⟨offset, [0xFF]⟩, ⟨offset + 1, packet.payload.take packet.payloadLen⟩]

theorem payloadLog_consecutive {log : StoreLog}
    (consecutive : Consecutive 0 log)
    (behind : offset = (contents log).length) :
    Consecutive 0 (log ++ payloadLog packet offset) ∧
      contents (log ++ payloadLog packet offset) =
        contents log ++ payloadWritten packet := by
  unfold payloadLog payloadWritten
  split
  · simpa using consecutive
  · have marker := consecutive.concat (behind.trans (Nat.zero_add _).symm) [0xFF]
    have split :
        log ++ [⟨offset, [0xFF]⟩,
            ⟨offset + 1, packet.payload.take packet.payloadLen⟩] =
          log ++ [⟨offset, [0xFF]⟩] ++
            [⟨offset + 1, packet.payload.take packet.payloadLen⟩] := by
      rw [List.append_assoc]
      rfl
    rw [split]
    constructor
    · apply marker.concat
      rw [contents_append, contents_singleton, List.length_append, behind,
        Nat.zero_add]
      rfl
    · rw [contents_append, contents_append, contents_singleton,
        contents_singleton, List.append_assoc]
      rfl

theorem payloadStores_grows :
    Keeps Grows (payloadStores packet outLen offset) :=
  Keeps.ite (Keeps.pure _)
    (Keeps.bind storeBytes_grows fun _ =>
      Keeps.bind (Keeps.lift _) fun _ =>
        Keeps.bind storeBytes_grows fun _ => Keeps.pure _)

theorem payloadStores_defined
    (available : packet.payloadLen ≤ packet.payload.length) :
    Defined (payloadStores packet outLen offset) :=
  Defined.ite (fun _ => Defined.pure _) fun _ =>
    Defined.bind Defined.modify fun _ =>
      Defined.bind (Defined.lift (memcpyS_defined available)) fun _ =>
        Defined.bind Defined.modify fun _ => Defined.pure _

/-- With room for the marker, the payload is checked. -/
theorem payloadStores_inside (narrow : outLen < 2 ^ 32)
    (room : packet.payloadLen ≠ 0 → offset < outLen) :
    Keeps (Preserves (Inside outLen)) (payloadStores packet outLen offset) := by
  unfold payloadStores
  split
  · exact Keeps.pure _
  · rename_i present
    have markerFits := room present
    refine Keeps.bind (storeBytes_inside markerFits) fun _ => ?_
    refine Keeps.lift_bind fun _ copied => ?_
    obtain ⟨fits, available, rfl⟩ := memcpyS_eq_ok.mp copied
    rw [uint32_room markerFits narrow] at fits
    refine Keeps.bind (storeBytes_inside ?_) fun _ => Keeps.pure _
    rw [List.length_take]
    omega

/-- Without room for the marker, it is stored behind the buffer. -/
theorem payloadStores_marker (present : packet.payloadLen ≠ 0)
    (log : StoreLog) :
    ⟨offset, [0xFF]⟩ ∈ (exec (payloadStores packet outLen offset) log).2 := by
  unfold payloadStores
  rw [if_neg present]
  have grows :=
    @Keeps.behind _ _ _ Grows _ (storeBytes offset [0xFF])
      (fun _ => do
        let payload ←
          .lift
            (memcpyS (uint32 ((outLen : Int) - (offset + 1 : Nat)))
              packet.payload packet.payloadLen)
        storeBytes (offset + 1) payload
        pure (uint32 ((offset + (1 + packet.payloadLen) : Nat))))
      (fun _ =>
        Keeps.bind (Keeps.lift _) fun _ =>
          Keeps.bind storeBytes_grows fun _ => Keeps.pure _) log
  exact grows (List.mem_append_right _ (List.mem_singleton.mpr rfl))

theorem payloadStores_eq_ok (narrow : outLen < 2 ^ 32)
    (room : packet.payloadLen ≠ 0 → offset < outLen) (fits : offset ≤ outLen)
    {log after : StoreLog} {length : Nat} :
    exec (payloadStores packet outLen offset) log = (.ok length, after) ↔
      packet.payloadLen ≤ packet.payload.length ∧
        length = offset + (payloadWritten packet).length ∧
        length ≤ outLen ∧
        after = log ++ payloadLog packet offset := by
  unfold payloadStores payloadWritten payloadLog
  by_cases none : packet.payloadLen = 0
  · simp only [none, if_true, exec_pure, Prod.mk.injEq, Except.ok.injEq,
      Nat.zero_le, true_and, List.length_nil, Nat.add_zero, List.append_nil]
    constructor
    · rintro ⟨rfl, rfl⟩
      exact ⟨rfl, fits, rfl⟩
    · rintro ⟨rfl, _, rfl⟩
      exact ⟨rfl, rfl⟩
  · have markerFits := room none
    simp only [none, if_false, exec_bind_eq_ok, exec_lift_bind,
      andThen_eq_ok, exec_storeBytes, Prod.mk.injEq, memcpyS_eq_ok,
      exec_pure, Except.ok.injEq, uint32_room markerFits narrow,
      List.length_cons]
    constructor
    · intro done
      obtain ⟨_, _, ⟨_, rfl⟩, _, ⟨payloadFits, available, rfl⟩, _, _,
        ⟨_, rfl⟩, rfl, rfl⟩ := done
      rw [List.length_take_of_le available,
        uint32_of_nonneg (by omega) (by omega)]
      refine ⟨available, by omega, by omega, ?_⟩
      rw [List.append_assoc]
      rfl
    · intro described
      obtain ⟨available, rfl, lengthFits, rfl⟩ := described
      rw [List.length_take_of_le available] at lengthFits ⊢
      refine
        ⟨PUnit.unit, _, ⟨trivial, rfl⟩, _, ⟨by omega, available, rfl⟩,
          PUnit.unit, _, ⟨trivial, rfl⟩, ?_, ?_⟩
      · rw [uint32_of_nonneg (by omega) (by omega)]
        omega
      · rw [List.append_assoc]
        rfl

end Payload

/-! ## `coap2buf` -/

section Coap2Buf

variable {packet : OCoapPacket} {outLen : Nat}

/-- Where the marker fits if it is reached, all stores are checked. -/
theorem coap2bufStores_inside_iff (narrow : outLen < 2 ^ 32) :
    Inside outLen (exec (coap2bufStores packet outLen) []).2 ↔
      headerLen ≤ outLen ∧ ¬ MarkerOutside packet outLen := by
  have grows :
      Grows (exec (frontStores packet outLen) []).2
        (exec (coap2bufStores packet outLen) []).2 :=
    Keeps.behind (fun _ => payloadStores_grows) []
  constructor
  · intro inside
    have headerInside : headerLen ≤ outLen := by
      have fits := inside _ (grows frontStores_header)
      unfold Store.InBounds at fits
      rw [Nat.zero_add] at fits
      exact fits
    refine ⟨headerInside, ?_⟩
    intro outside
    obtain ⟨present, hasToken, options, isOptions, values, short, full⟩ :=
      outside
    have front :=
      (@frontStores_eq_ok packet outLen headerInside narrow []
        (frontLog packet options) outLen).mpr
        ⟨hasToken, options, isOptions, values, short, full, Nat.le_refl _,
          rfl⟩
    unfold coap2bufStores at inside
    rw [exec_bind, front] at inside
    have marker :=
      inside _ (@payloadStores_marker packet outLen outLen present
        (frontLog packet options))
    exact absurd marker (Nat.not_succ_le_self outLen)
  · intro condition
    obtain ⟨headerInside, notOutside⟩ := condition
    refine
      Keeps.bind_of_ok (frontStores_inside headerInside narrow)
        (fun offset state between front => ?_) [] ?_
    · obtain ⟨hasToken, options, isOptions, values, short, isOffset, fits,
        _⟩ := (frontStores_eq_ok headerInside narrow).mp front
      apply payloadStores_inside narrow
      intro present
      by_contra full
      exact
        notOutside
          ⟨present, hasToken, options, isOptions, values, short, by omega⟩
    · intro store member
      cases member

variable (packet) in
/-- The stores of a packet that is converted. -/
def packetLog (options : List OCoapOption) : StoreLog :=
  frontLog packet options ++
    payloadLog packet
      (headerLen + packet.header.tkl.toNat + (optionsWritten options).length)

theorem packetLog_consecutive (hasToken : HasToken packet)
    (options : List OCoapOption) :
    Consecutive 0 (packetLog packet options) ∧
      contents (packetLog packet options) = packetWritten packet options := by
  obtain ⟨consecutive, isContents⟩ := frontLog_consecutive hasToken options
  have length :
      (contents (frontLog packet options)).length =
        headerLen + packet.header.tkl.toNat +
          (optionsWritten options).length := by
    rw [isContents, List.length_append, List.length_append,
      tokenWritten_length hasToken]
    rfl
  have both :=
    @payloadLog_consecutive packet _ (frontLog packet options) consecutive
      length.symm
  refine ⟨both.1, both.2.trans ?_⟩
  rw [isContents]
  rfl

/-- With the marker inside, the stores return what `coap2buf` returns. -/
theorem coap2bufStores_run (narrow : outLen < 2 ^ 32)
    (room : headerLen ≤ outLen) (marked : ¬ MarkerOutside packet outLen)
    {length : Nat} {log : StoreLog} :
    exec (coap2bufStores packet outLen) [] = (.ok length, log) ↔
      ∃ options, packet.options = some options ∧
        coap2buf packet outLen = .ok (packetWritten packet options) ∧
        length = (packetWritten packet options).length ∧
        log = packetLog packet options := by
  have markerRoom : ∀ options, HasToken packet →
      packet.options = some options → HasValues options →
      maximalOptionsLen options ≤ maxCoapOptionsLen →
      headerLen + packet.header.tkl.toNat + (optionsWritten options).length ≤
        outLen →
      packet.payloadLen ≠ 0 →
      headerLen + packet.header.tkl.toNat + (optionsWritten options).length <
        outLen := by
    intro options hasToken isOptions values short fits present
    by_contra full
    exact
      marked
        ⟨present, hasToken, options, isOptions, values, short, by omega⟩
  have total : ∀ options, HasToken packet →
      (packetWritten packet options).length =
        headerLen + packet.header.tkl.toNat +
            (optionsWritten options).length +
          (payloadWritten packet).length := by
    intro options hasToken
    unfold packetWritten
    rw [List.length_append, List.length_append, List.length_append,
      tokenWritten_length hasToken]
    rfl
  unfold coap2bufStores packetLog
  rw [exec_bind_eq_ok]
  simp only [frontStores_eq_ok room narrow, coap2buf_eq_ok]
  constructor
  · intro done
    obtain ⟨_, _, ⟨hasToken, options, isOptions, values, short, rfl, fits,
      rfl⟩, stored⟩ := done
    obtain ⟨available, rfl, lengthFits, rfl⟩ :=
      (payloadStores_eq_ok narrow
        (markerRoom options hasToken isOptions values short fits) fits).mp
        stored
    rw [← total options hasToken] at lengthFits
    exact
      ⟨options, isOptions,
        ⟨options, isOptions, short, values, hasToken, available, lengthFits,
          rfl⟩,
        (total options hasToken).symm, rfl⟩
  · intro described
    obtain ⟨options, isOptions, ⟨_, isOptions', short, values, hasToken,
      available, fits, _⟩, rfl, rfl⟩ := described
    obtain rfl := Option.some.inj (isOptions.symm.trans isOptions')
    have whole := total options hasToken
    refine
      ⟨_, _, ⟨hasToken, options, isOptions, values, short, rfl, by omega, rfl⟩,
        ?_⟩
    rw [payloadStores_eq_ok narrow
      (markerRoom options hasToken isOptions values short (by omega))
      (by omega)]
    exact ⟨available, whole, fits, rfl⟩

/-- The stores are those of what `coap2buf` returns: where it returns `ok`, they
leave its bytes at the front of the buffer and the rest as it was. -/
theorem coap2bufStores_of_ok (narrow : outLen < 2 ^ 32)
    (inside : Inside outLen (exec (coap2bufStores packet outLen) []).2)
    {output : Bytes} (converted : coap2buf packet outLen = .ok output) :
    (exec (coap2bufStores packet outLen) []).1 = .ok output.length ∧
      ∀ buffer : Bytes, buffer.length = outLen →
        applied buffer (exec (coap2bufStores packet outLen) []).2 =
          output ++ buffer.drop output.length := by
  obtain ⟨room, marked⟩ := (coap2bufStores_inside_iff narrow).mp inside
  obtain ⟨options, isOptions, _, _, hasToken, _, fits, rfl⟩ :=
    coap2buf_eq_ok.mp converted
  have run :=
    (@coap2bufStores_run packet outLen narrow room marked _ _).mpr
      ⟨options, isOptions, converted, rfl, rfl⟩
  rw [run]
  refine ⟨rfl, ?_⟩
  intro buffer size
  obtain ⟨consecutive, isContents⟩ := packetLog_consecutive hasToken options
  have left :=
    @Consecutive.applied_eq _ (packetLog packet options) [] buffer
      consecutive (by rw [isContents, size]; exact fits)
  rwa [List.nil_append, List.nil_append, isContents] at left

theorem coap2bufStores_eq_ok (narrow : outLen < 2 ^ 32)
    (inside : Inside outLen (exec (coap2bufStores packet outLen) []).2)
    {length : Nat} :
    (exec (coap2bufStores packet outLen) []).1 = .ok length ↔
      ∃ output, coap2buf packet outLen = .ok output ∧
        output.length = length := by
  obtain ⟨room, marked⟩ := (coap2bufStores_inside_iff narrow).mp inside
  constructor
  · intro done
    obtain ⟨options, _, converted, isLength, _⟩ :=
      (coap2bufStores_run narrow room marked).mp
        (Prod.ext done rfl :
          exec (coap2bufStores packet outLen) [] =
            (.ok length, (exec (coap2bufStores packet outLen) []).2))
    exact ⟨_, converted, isLength.symm⟩
  · intro converted
    obtain ⟨output, converted, rfl⟩ := converted
    exact (coap2bufStores_of_ok narrow inside converted).1

/-- `coap2buf` respects its output buffer exactly when the header fits, no value
is missing that it reaches, and the options do not end at the end of the buffer
with a payload behind. -/
theorem respectsOutput_iff (hasToken : HasToken packet)
    {options : List OCoapOption} (isOptions : packet.options = some options)
    (available : packet.payloadLen ≤ packet.payload.length)
    (narrow : outLen < 2 ^ 32) :
    RespectsOutput packet outLen ↔
      headerLen ≤ outLen ∧ ¬ MarkerOutside packet outLen ∧
        (headerLen + packet.header.tkl.toNat ≤ outLen →
          maximalOptionsLen options ≤ maxCoapOptionsLen →
          HasValues options) := by
  unfold RespectsOutput StaysInside
  rw [coap2bufStores_inside_iff narrow, and_assoc]
  apply and_congr_right
  intro room
  apply and_congr_right
  intro marked
  have stops := fun log =>
    @frontStores_undefined_iff packet outLen room narrow hasToken options
      isOptions log
  constructor
  · intro returns tokenFits short
    by_contra missing
    have stopped := (stops []).mpr ⟨tokenFits, short, missing⟩
    have whole :
        (exec (coap2bufStores packet outLen) []).1 = undefinedBehaviour := by
      unfold coap2bufStores
      rw [exec_bind]
      generalize exec (frontStores packet outLen) [] = front at stopped ⊢
      obtain ⟨outcome, between⟩ := front
      dsimp only at stopped
      rw [stopped]
      rfl
    rw [whole] at returns
    rcases returns with ⟨_, impossible⟩ | ⟨_, impossible, _⟩
    · cases impossible
    · cases impossible
  · intro values
    have defined : Defined (coap2bufStores packet outLen) := by
      refine Defined.bind ?_ fun _ => payloadStores_defined available
      intro log stopped
      obtain ⟨tokenFits, short, missing⟩ := (stops log).mp stopped
      exact missing (values tokenFits short)
    have inside := (coap2bufStores_inside_iff narrow).mpr ⟨room, marked⟩
    cases outcome : (exec (coap2bufStores packet outLen) []).1 with
    | error fault =>
        cases fault with
        | err code =>
            exact Or.inl ⟨code, rfl⟩
        | undefinedBehaviour =>
            exact absurd outcome (defined [])
    | ok length =>
        obtain ⟨output, converted, rfl⟩ :=
          (coap2bufStores_eq_ok narrow inside).mp outcome
        obtain ⟨_, _, _, _, _, _, fits, rfl⟩ := coap2buf_eq_ok.mp converted
        exact Or.inr ⟨_, rfl, fits⟩

end Coap2Buf

end UoscoreUedhoc.Oscore
