import UoscoreUedhoc.Oscore.MessageParsing
import UoscoreUedhoc.Oscore.OuterPacket

/-!
# The places of options

Where the option loop of `buf2options` reads options in a well-formed message,
and with which numbers.  An extended delta makes the number of an option 26 too
small, and the loop takes lengths modulo 256, so that it goes on inside the
value of a longer option.
-/

namespace UoscoreUedhoc.Oscore

open UoscoreUedhoc
open UoscoreUedhoc.Coap

/-! ## The places of options -/

/-- What a parser says of an option, and where it begins. -/
structure PlacedOption where
  place : Nat
  content : OptionContent
  deriving DecidableEq, Repr

/-- The option loop with the places at which it reads options. -/
def placedWalk : Nat → Nat → Nat → UInt8 → Bytes → List PlacedOption
  | 0, _, _, _, _ => []
  | slots + 1, left, place, number, p =>
      if 0 < left then
        match optionHead buf2optionsDelta buf2optionsLen p with
        | .error _ => []
        | .ok head =>
            let bytes := head.headerLen.toNat + head.len.toNat
            { place
              content :=
                { number := number + head.delta
                  len := head.len
                  value := head.rest.take head.len.toNat } } ::
              placedWalk slots (left - bytes) (place + bytes)
                (number + head.delta) (head.rest.drop head.len.toNat)
      else
        []

/-- The 16-bit number of bytes in front of the first `0xFF` behind the
token. -/
def regionLength (message : Message) : Nat :=
  ((bodyBytes message).takeWhile (· ≠ 0xFF)).length % 2 ^ 16

/-- The options in front of the first `0xFF` end with it at the latest. -/
theorem regionLength_le (message : Message) :
    regionLength message ≤
      (optionBytes (Coap.encodeOptions 0 message.options)).length := by
  apply Nat.le_trans (Nat.mod_le _ _)
  rw [bodyBytes]
  by_cases marker : 0xFF ∈ optionBytes (Coap.encodeOptions 0 message.options)
  · obtain ⟨front, back, split, clean⟩ := List.eq_append_cons_of_mem marker
    obtain ⟨taken, _⟩ :=
      takeWhile_region clean
        (Or.inr ⟨back ++ message.payloadBytes, rfl⟩)
    rw [split, List.append_assoc, List.cons_append, taken]
    simp only [List.length_append]
    omega
  · rw [(takeWhile_region marker (payloadBytes_marked message)).1]

/-- The options that `buf2coap` reads, with their places behind the token. -/
def readOptions (message : Message) : List PlacedOption :=
  placedWalk maxOptionCount (regionLength message) 0 0 (bodyBytes message)

/-- The read options that are not protected. -/
def clearOptions (message : Message) : List PlacedOption :=
  (readOptions message).filter fun option =>
    !isClassE option.content.number.toUInt16

/-- An option of a message, where it begins, and how many deltas up to it are
extended. -/
structure MessagePlace where
  place : Nat
  extended : Nat
  option : MessageOption
  deriving DecidableEq, Repr

/-- The bytes in front of the value of an option behind one with the number
`previous`. -/
def headOf (previous : Nat) (option : MessageOption) : EncodedHead :=
  .encode (option.number - previous) option.value.length

/-- The number of extended deltas up to and with this one. -/
def countExtended (extended delta : Nat) : Nat :=
  extended + if delta < 13 then 0 else 1

/-- The places of the options behind one with the number `previous`. -/
def messagePlaces : Nat → Nat → Nat → List MessageOption → List MessagePlace
  | _, _, _, [] => []
  | place, extended, previous, option :: options =>
      let extended := countExtended extended (option.number - previous)
      let bytes := (headOf previous option).bytes.length + option.value.length
      { place, extended, option } ::
        messagePlaces (place + bytes) extended option.number options

/-- The number that `buf2options` computes for an option: each extended delta
makes it 26 too small, in 8 bits. -/
def MessagePlace.codeNumber (placed : MessagePlace) : UInt8 :=
  UInt8.ofNat (placed.option.number + 230 * placed.extended)

/-- Whether the class of an option is E by its number. -/
def MessagePlace.isClassE (placed : MessagePlace) : Bool :=
  Oscore.isClassE (UInt16.ofNat placed.option.number)

/-! ## The walk -/

theorem placedWalk_succ (slots left place : Nat) (number : UInt8)
    (head : EncodedHead) (rest : Bytes) (positive : 0 < left) :
    placedWalk (slots + 1) left place number (head.bytes ++ rest) =
      { place
        content :=
          { number := number + buf2optionsDelta.delta head
            len := buf2optionsLen.len head
            value := rest.take (buf2optionsLen.len head).toNat } } ::
        placedWalk slots
          (left - (head.bytes.length + (buf2optionsLen.len head).toNat))
          (place + (head.bytes.length + (buf2optionsLen.len head).toNat))
          (number + buf2optionsDelta.delta head)
          (rest.drop (buf2optionsLen.len head).toNat) := by
  rw [placedWalk, if_pos positive, optionHead_bytes]
  simp only [headBytes_toNat]

theorem placedWalk_zero (slots place : Nat) (number : UInt8) (p : Bytes) :
    placedWalk slots 0 place number p = [] := by
  cases slots with
  | zero =>
      rfl
  | succ slots =>
      rfl

/-- The walk reads what the option loop stores. -/
theorem placedWalk_content {slots left : Nat} {number : UInt8} {p : Bytes}
    {options : List OCoapOption}
    (walked :
      optionsWalk buf2optionsDelta buf2optionsLen slots left number p =
        .ok options) (place : Nat) :
    (placedWalk slots left place number p).map PlacedOption.content =
      options.map OCoapOption.content := by
  induction slots generalizing left place number p options with
  | zero =>
      obtain ⟨_, rfl⟩ :=
        (optionsWalk_no_slot_eq_ok buf2optionsDelta).mp walked
      rfl
  | succ slots inductionHypothesis =>
      rcases (optionsWalk_succ_eq_ok buf2optionsDelta).mp walked with
        ⟨rfl, rfl⟩ | ⟨positive, head, rest, others, rfl, walkedRest, rfl⟩
      · rfl
      · rw [placedWalk_succ slots left place number head rest positive,
          List.map_cons, List.map_cons, inductionHypothesis walkedRest]
        refine congrArg₂ List.cons ?_ rfl
        unfold OCoapOption.content
        by_cases empty : buf2optionsLen.len head = 0
        · rw [if_pos empty, empty]
          rfl
        · rw [if_neg empty]

/-- The options of a walk are at its place or behind it. -/
theorem placedWalk_place_ge {slots left place : Nat} {number : UInt8}
    {p : Bytes} :
    ∀ option ∈ placedWalk slots left place number p,
      place ≤ option.place := by
  induction slots generalizing left place number p with
  | zero =>
      intro option member
      cases member
  | succ slots inductionHypothesis =>
      intro option member
      rw [placedWalk] at member
      split at member
      · split at member
        · cases member
        · rcases List.mem_cons.mp member with rfl | later
          · exact Nat.le_refl place
          · have behind := inductionHypothesis option later
            omega
      · cases member

theorem messagePlaces_place_ge {place extended previous : Nat}
    {options : List MessageOption} :
    ∀ placed ∈ messagePlaces place extended previous options,
      place ≤ placed.place := by
  induction options generalizing place extended previous with
  | nil =>
      intro placed member
      cases member
  | cons option options inductionHypothesis =>
      intro placed member
      rcases List.mem_cons.mp member with rfl | later
      · exact Nat.le_refl place
      · have behind := inductionHypothesis placed later
        omega

/-- No two options of a message begin at the same place. -/
theorem messagePlaces_inj {place extended previous : Nat}
    {options : List MessageOption} {placed other : MessagePlace}
    (member : placed ∈ messagePlaces place extended previous options)
    (otherMember : other ∈ messagePlaces place extended previous options)
    (same : placed.place = other.place) : placed = other := by
  induction options generalizing place extended previous with
  | nil =>
      cases member
  | cons option options inductionHypothesis =>
      have positive := (headOf previous option).bytes_length_pos
      rcases List.mem_cons.mp member with rfl | later
      · rcases List.mem_cons.mp otherMember with rfl | otherLater
        · rfl
        · have behind := messagePlaces_place_ge other otherLater
          dsimp only at same
          omega
      · rcases List.mem_cons.mp otherMember with rfl | otherLater
        · have behind := messagePlaces_place_ge placed later
          dsimp only at same
          omega
        · exact inductionHypothesis later otherLater

/-! ## Options of at most 255 bytes -/

theorem encodeOptions_cons_bytes (previous : Nat) (option : MessageOption)
    (options : List MessageOption) :
    optionBytes (Coap.encodeOptions previous (option :: options)) =
      (headOf previous option).bytes ++
        (option.value ++
          optionBytes (Coap.encodeOptions option.number options)) := by
  simp [Coap.encodeOptions, optionBytes, EncodedOption.bytes,
    EncodedOption.encode, headOf]

theorem headOf_length (previous : Nat) (option : MessageOption) :
    (headOf previous option).length = option.value.length :=
  EncodedHead.length_encode option.value_length_lt

theorem headOf_delta (previous : Nat) (option : MessageOption) :
    (headOf previous option).delta = option.number - previous := by
  have numberBound := option.number_lt
  exact EncodedHead.delta_encode (by unfold valueBound; omega)

theorem buf2optionsLen_headOf {option : MessageOption}
    (small : option.value.length < 256) (previous : Nat) :
    (buf2optionsLen.len (headOf previous option)).toNat =
      option.value.length := by
  rw [buf2optionsLen_len, headOf_length, UInt8.toNat_ofNat',
    Nat.mod_eq_of_lt small]

/-- The running number in front of an option and behind it. -/
theorem codeNumber_step {previous : Nat} {option : MessageOption}
    (above : previous ≤ option.number) (extended : Nat) :
    UInt8.ofNat (previous + 230 * extended) +
        buf2optionsDelta.delta (headOf previous option) =
      UInt8.ofNat
        (option.number +
          230 * countExtended extended (option.number - previous)) := by
  rw [buf2optionsDelta_delta, headOf_delta]
  unfold decodedNumber countExtended
  by_cases small : option.number - previous < 13
  · rw [if_pos small, if_pos small, ← UInt8.ofNat_add]
    apply congrArg UInt8.ofNat
    omega
  · have offset : (-26 : UInt8) = UInt8.ofNat 230 := rfl
    rw [if_neg small, if_neg small, offset, ← UInt8.ofNat_add,
      ← UInt8.ofNat_add]
    apply congrArg UInt8.ofNat
    omega

/-- What is read of an option with a short value. -/
def MessagePlace.read (placed : MessagePlace) : PlacedOption where
  place := placed.place
  content :=
    { number := placed.codeNumber
      len := UInt8.ofNat placed.option.value.length
      value := placed.option.value }

theorem placedWalk_short {option : MessageOption} {previous left : Nat}
    (above : previous ≤ option.number) (small : option.value.length < 256)
    (positive : 0 < left) (slots place extended : Nat) (rest : Bytes) :
    placedWalk (slots + 1) left place (UInt8.ofNat (previous + 230 * extended))
        ((headOf previous option).bytes ++ (option.value ++ rest)) =
      MessagePlace.read
          { place
            extended := countExtended extended (option.number - previous)
            option } ::
        placedWalk slots
          (left -
            ((headOf previous option).bytes.length + option.value.length))
          (place +
            ((headOf previous option).bytes.length + option.value.length))
          (UInt8.ofNat
            (option.number +
              230 * countExtended extended (option.number - previous)))
          rest := by
  rw [placedWalk_succ _ _ _ _ _ _ positive, codeNumber_step above,
    buf2optionsLen_headOf small, List.take_left, List.drop_left]
  refine congrArg₂ List.cons ?_ rfl
  unfold MessagePlace.read MessagePlace.codeNumber
  rw [buf2optionsLen_len, headOf_length]

/-- Behind a short option the option loop goes on with its rest. -/
theorem optionsWalk_short {option : MessageOption} {previous left : Nat}
    (above : previous ≤ option.number) (small : option.value.length < 256)
    (positive : 0 < left) {slots extended : Nat} {rest : Bytes}
    {stored : List OCoapOption}
    (walked :
      optionsWalk buf2optionsDelta buf2optionsLen slots left
          (UInt8.ofNat (previous + 230 * extended))
          ((headOf previous option).bytes ++ (option.value ++ rest)) =
        .ok stored) :
    ∃ fewer others, slots = fewer + 1 ∧
      optionsWalk buf2optionsDelta buf2optionsLen fewer
          (left -
            ((headOf previous option).bytes.length + option.value.length))
          (UInt8.ofNat
            (option.number +
              230 * countExtended extended (option.number - previous)))
          rest = .ok others := by
  cases slots with
  | zero =>
      obtain ⟨ended, _⟩ :=
        (optionsWalk_no_slot_eq_ok buf2optionsDelta).mp walked
      exact absurd ended (Nat.ne_of_gt positive)
  | succ slots =>
      rcases (optionsWalk_succ_eq_ok buf2optionsDelta).mp walked with
        ⟨nothing, _⟩ | ⟨_, head, behind, others, same, walkedRest, _⟩
      · omega
      · obtain ⟨rfl, rfl⟩ := EncodedHead.bytes_append_inj same
        rw [codeNumber_step above, buf2optionsLen_headOf small,
          List.drop_left] at walkedRest
        exact ⟨slots, others, rfl, walkedRest⟩

/-- Up to the bound the walk reads the options of the message. -/
theorem placedWalk_message {options : List MessageOption}
    {slots place extended previous bound : Nat} {after : Bytes}
    {stored : List OCoapOption}
    (first : ∀ option ∈ options, previous ≤ option.number)
    (ascending :
      options.Pairwise fun option later => option.number ≤ later.number)
    (inside :
      bound ≤
        place + (optionBytes (Coap.encodeOptions previous options)).length)
    (short :
      ∀ placed ∈ messagePlaces place extended previous options,
        placed.place < bound → placed.option.value.length < 256)
    (walked :
      optionsWalk buf2optionsDelta buf2optionsLen slots (bound - place)
          (UInt8.ofNat (previous + 230 * extended))
          (optionBytes (Coap.encodeOptions previous options) ++ after) =
        .ok stored) :
    placedWalk slots (bound - place) place
        (UInt8.ofNat (previous + 230 * extended))
        (optionBytes (Coap.encodeOptions previous options) ++ after) =
      ((messagePlaces place extended previous options).filter fun placed =>
        placed.place < bound).map MessagePlace.read := by
  induction options generalizing slots place extended previous stored with
  | nil =>
      have nothing : bound - place = 0 := by
        simp only [Coap.encodeOptions, optionBytes, List.map_nil,
          List.flatten_nil, List.length_nil] at inside
        omega
      rw [nothing, placedWalk_zero]
      rfl
  | cons option options inductionHypothesis =>
      obtain ⟨isFirst, ascendingRest⟩ := List.pairwise_cons.mp ascending
      have above := first option List.mem_cons_self
      by_cases reached : place < bound
      · have small := short _ List.mem_cons_self reached
        have positive : 0 < bound - place := by omega
        have total :=
          congrArg List.length
            (encodeOptions_cons_bytes previous option options)
        simp only [List.length_append] at total
        rw [encodeOptions_cons_bytes, List.append_assoc, List.append_assoc]
          at walked ⊢
        obtain ⟨fewer, others, rfl, walkedRest⟩ :=
          optionsWalk_short above small positive walked
        rw [Nat.sub_sub] at walkedRest
        have rest :=
          @inductionHypothesis _ _ _ _ _ isFirst ascendingRest
            (by rw [total] at inside; omega)
            (fun placed member below =>
              short placed (List.mem_cons_of_mem _ member) below)
            walkedRest
        rw [placedWalk_short above small positive, Nat.sub_sub, rest,
          messagePlaces, List.filter_cons, if_pos (decide_eq_true reached)]
        rfl
      · have nothing : bound - place = 0 := by omega
        have none :
            (messagePlaces place extended previous
                (option :: options)).filter
              (fun placed => placed.place < bound) = [] := by
          apply List.filter_eq_nil_iff.mpr
          intro placed member
          have behind := messagePlaces_place_ge placed member
          simp only [decide_eq_true_eq]
          omega
        rw [nothing, placedWalk_zero, none]
        rfl

/-! ## Longer options -/

/-- The room that the read options of class E take in the plaintext. -/
def protectedRoom (options : List PlacedOption) : Nat :=
  ((options.filter fun option =>
      isClassE option.content.number.toUInt16).map fun option =>
    5 + option.content.len.toNat).sum

theorem protectedRoom_cons_le (option : PlacedOption)
    (options : List PlacedOption) :
    protectedRoom options ≤ protectedRoom (option :: options) := by
  unfold protectedRoom
  rw [List.filter_cons]
  split
  · rw [List.map_cons, List.sum_cons]
    exact Nat.le_add_left _ _
  · exact Nat.le_refl _

/-- With little room for protected options, the walk ends early or soon reads
one that is not protected. -/
theorem clearOption_near {slots left place bound : Nat} {number : UInt8}
    {p : Bytes} {stored : List OCoapOption}
    (walked :
      optionsWalk buf2optionsDelta buf2optionsLen slots left number p =
        .ok stored)
    (room : protectedRoom (placedWalk slots left place number p) ≤ bound) :
    left ≤ bound ∨
      ∃ option ∈ placedWalk slots left place number p,
        isClassE option.content.number.toUInt16 = false ∧
          option.place ≤ place + bound := by
  induction slots generalizing left place bound number p stored with
  | zero =>
      obtain ⟨rfl, _⟩ :=
        (optionsWalk_no_slot_eq_ok buf2optionsDelta).mp walked
      exact Or.inl (Nat.zero_le bound)
  | succ slots inductionHypothesis =>
      rcases (optionsWalk_succ_eq_ok buf2optionsDelta).mp walked with
        ⟨rfl, _⟩ | ⟨positive, head, rest, others, rfl, walkedRest, _⟩
      · exact Or.inl (Nat.zero_le bound)
      · rw [placedWalk_succ slots left place number head rest positive]
          at room ⊢
        have headBytes := head.bytes_length_le
        cases isE : isClassE
            (number + buf2optionsDelta.delta head).toUInt16 with
        | false =>
            exact
              Or.inr
                ⟨_, List.mem_cons_self, isE, Nat.le_add_right place bound⟩
        | true =>
            unfold protectedRoom at room
            rw [List.filter_cons_of_pos (by exact isE), List.map_cons,
              List.sum_cons] at room
            dsimp only at room
            have roomRest :=
              Nat.le_sub_of_add_le (Nat.add_comm _ _ ▸ room)
            rcases inductionHypothesis walkedRest roomRest with
              covered | ⟨option, member, isClear, near⟩
            · exact Or.inl (by omega)
            · refine
                Or.inr
                  ⟨option, List.mem_cons_of_mem _ member, isClear, ?_⟩
              omega

/-- Where a long option is read, the walk goes on inside its value, and what it
reads there is sent in the clear if little room is left for protected options
and for a payload. -/
theorem clearOption_misplaced {options : List MessageOption}
    {slots place extended previous bound room : Nat} {after : Bytes}
    {stored : List OCoapOption}
    (first : ∀ option ∈ options, previous ≤ option.number)
    (ascending :
      options.Pairwise fun option later => option.number ≤ later.number)
    (long :
      ∃ placed ∈ messagePlaces place extended previous options,
        placed.place < bound ∧ 256 ≤ placed.option.value.length)
    (enough :
      place + (optionBytes (Coap.encodeOptions previous options)).length ≤
        bound + 127)
    (small : room ≤ 30)
    (walked :
      optionsWalk buf2optionsDelta buf2optionsLen slots (bound - place)
          (UInt8.ofNat (previous + 230 * extended))
          (optionBytes (Coap.encodeOptions previous options) ++ after) =
        .ok stored)
    (fits :
      protectedRoom
          (placedWalk slots (bound - place) place
            (UInt8.ofNat (previous + 230 * extended))
            (optionBytes (Coap.encodeOptions previous options) ++ after)) ≤
        room) :
    ∃ option ∈
        placedWalk slots (bound - place) place
          (UInt8.ofNat (previous + 230 * extended))
          (optionBytes (Coap.encodeOptions previous options) ++ after),
      isClassE option.content.number.toUInt16 = false ∧
        ∀ placed ∈ messagePlaces place extended previous options,
          placed.place ≠ option.place := by
  induction options generalizing slots place extended previous stored with
  | nil =>
      obtain ⟨placed, member, _⟩ := long
      cases member
  | cons option options inductionHypothesis =>
      obtain ⟨isFirst, ascendingRest⟩ := List.pairwise_cons.mp ascending
      have above := first option List.mem_cons_self
      have headPositive := (headOf previous option).bytes_length_pos
      obtain ⟨placed, member, below, isLong⟩ := long
      have positive : 0 < bound - place := by
        have behind := messagePlaces_place_ge placed member
        omega
      have total :=
        congrArg List.length (encodeOptions_cons_bytes previous option options)
      simp only [List.length_append] at total
      rw [encodeOptions_cons_bytes, List.append_assoc, List.append_assoc]
        at walked fits ⊢
      by_cases short : option.value.length < 256
      · have later :
            placed ∈
              messagePlaces
                (place +
                  ((headOf previous option).bytes.length +
                    option.value.length))
                (countExtended extended (option.number - previous))
                option.number options := by
          rcases List.mem_cons.mp member with rfl | later
          · exact absurd short (not_lt.mpr isLong)
          · exact later
        obtain ⟨fewer, others, rfl, walkedRest⟩ :=
          optionsWalk_short above short positive walked
        rw [placedWalk_short above short positive] at fits ⊢
        rw [Nat.sub_sub] at walkedRest fits ⊢
        obtain ⟨clear, clearMember, isClear, misplaced⟩ :=
          @inductionHypothesis _ _ _ _ _ isFirst ascendingRest
            ⟨placed, later, below, isLong⟩ (by rw [total] at enough; omega)
            walkedRest (Nat.le_trans (protectedRoom_cons_le _ _) fits)
        refine ⟨clear, List.mem_cons_of_mem _ clearMember, isClear, ?_⟩
        intro other otherMember
        have behind := placedWalk_place_ge clear clearMember
        rcases List.mem_cons.mp otherMember with rfl | otherLater
        · dsimp only
          omega
        · exact misplaced other otherLater
      · cases slots with
        | zero =>
            obtain ⟨ended, _⟩ :=
              (optionsWalk_no_slot_eq_ok buf2optionsDelta).mp walked
            exact absurd ended (Nat.ne_of_gt positive)
        | succ slots =>
            rcases (optionsWalk_succ_eq_ok buf2optionsDelta).mp walked with
              ⟨nothing, _⟩ | ⟨_, head, rest, others, same, walkedRest, _⟩
            · omega
            · obtain ⟨rfl, rfl⟩ := EncodedHead.bytes_append_inj same
              have read :
                  (buf2optionsLen.len (headOf previous option)).toNat =
                    option.value.length % 256 := by
                rw [buf2optionsLen_len, headOf_length, UInt8.toNat_ofNat']
              rw [placedWalk_succ _ _ _ _ _ _ positive] at fits ⊢
              rw [read] at walkedRest fits ⊢
              have fitsRest :=
                Nat.le_trans (protectedRoom_cons_le _ _) fits
              rcases clearOption_near walkedRest fitsRest with
                covered | ⟨clear, clearMember, isClear, near⟩
              · omega
              · refine
                  ⟨clear, List.mem_cons_of_mem _ clearMember, isClear, ?_⟩
                intro other otherMember
                have inside := placedWalk_place_ge clear clearMember
                rcases List.mem_cons.mp otherMember with rfl | otherLater
                · dsimp only
                  omega
                · have behind := messagePlaces_place_ge other otherLater
                  omega

end UoscoreUedhoc.Oscore
