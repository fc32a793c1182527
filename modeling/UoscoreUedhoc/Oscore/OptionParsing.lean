import UoscoreUedhoc.Oscore.OptionValue

/-!
# Parsing the OSCORE option

`oscore_option_parser` subtracts what the flags and the length byte announce
from an 8-bit count and compares nothing with the end of the value.  An empty
option leaves all three arrays unset, an option without Partial IV the length
of the Partial IV.  `oscore2coap` reads the fields of a request in any case: it
rejects a request without Partial IV only where the KID is set and another one.
-/

namespace UoscoreUedhoc.Oscore

open UoscoreUedhoc
open Update

/-! ## The property -/

/-- The parser returns an error, or sets the three arrays, and they and the
flags make up the value. -/
def ParsesExactly (packet : OCoapPacket) (value : Bytes) : Prop :=
  (∃ code, oscoreOptionParser packet = fail code) ∨
    ∃ parsed h first piv kidContext kid,
      oscoreOptionParser packet = .ok (parsed, true) ∧
        parsed.h = some h ∧ Carries parsed piv kidContext kid ∧
        value = first :: (piv ++ (kidContextField h kidContext ++ kid))

/-- The value is empty or carries no Partial IV. -/
def LacksPiv : Bytes → Prop
  | [] => True
  | first :: _ => pivBits first = 0

/-- `oscore2coap` returns an error. -/
def Refuses (platform : Platform) (input : Bytes) (capacity : Nat)
    (c : Context) : Prop :=
  ∃ code after,
    exec (oscore2coap platform input capacity) c = (.error (.err code), after)

/-! ## The conditions -/

/-- The bytes behind the Partial IV hold what the flags announce, and nothing
else. -/
def EndsExactly (h k : UInt8) (tail : Bytes) : Prop :=
  if h = 0 then
    k = 0 → tail = []
  else
    match tail with
    | [] => False
    | contextLen :: rest =>
        contextLen.toNat ≤ rest.length ∧
          (k = 0 → rest.length = contextLen.toNat)

/-- The value announces a Partial IV of a reserved length, or one of 1 to 5
bytes which it holds, with the KID context and the KID behind it. -/
def IsExactValue : Bytes → Prop
  | [] => False
  | first :: rest =>
      pivBits first = 6 ∨ pivBits first = 7 ∨
        (pivBits first ≠ 0 ∧ (pivBits first).toNat ≤ rest.length ∧
          EndsExactly (kidContextFlag first) (kidFlag first)
            (rest.drop (pivBits first).toNat))

/-- The KID of a value without Partial IV: what the length of the option leaves
behind the flags and the KID context. -/
def kidWithoutPiv (len first : UInt8) (p : Bytes) : Option ByteArrayView :=
  if kidContextFlag first = 0 then
    some (if kidFlag first = 0 then nullArray else ⟨(len - 1).toNat, p⟩)
  else
    match p with
    | [] => none
    | contextLen :: p =>
        some
          (if kidFlag first = 0 then nullArray
            else
              ⟨(len - 1 - (contextLen + 1)).toNat, p.drop contextLen.toNat⟩)

/-- The option has a value, and the KID in it is found to be another one than
the recipient ID. -/
def CarriesOtherKid (recipientId : Bytes) (option : OCoapOption) : Prop :=
  option.len ≠ 0 ∧
    ∃ first p kid, option.value = first :: p ∧
      kidWithoutPiv option.len first p = some kid ∧
      arrayEquals recipientId kid = .ok false

/-! ## Layouts -/

/-- A value that holds what its first byte announces has a layout. -/
theorem exists_layout {first : UInt8} {rest : Bytes}
    (present : pivBits first ≠ 0)
    (notReserved : ¬ (pivBits first = 6 ∨ pivBits first = 7))
    (inside : (pivBits first).toNat ≤ rest.length)
    (exact : EndsExactly (kidContextFlag first) (kidFlag first)
      (rest.drop (pivBits first).toNat)) :
    ∃ layout : OptionLayout, layout.bytes = first :: rest := by
  have pivLength : (rest.take (pivBits first).toNat).length =
      (pivBits first).toNat :=
    List.length_take_of_le inside
  have pivPresent : 0 < (rest.take (pivBits first).toNat).length := by
    rw [pivLength, Nat.pos_iff_ne_zero]
    intro zero
    exact present (UInt8.toNat_inj.mp zero)
  have pivFits : (rest.take (pivBits first).toNat).length ≤ maxPivLen := by
    rw [pivLength]
    exact pivNBits_le notReserved
  have pivAnnounced : pivBits first =
      UInt8.ofNat (rest.take (pivBits first).toNat).length := by
    rw [pivLength]
    exact UInt8.ofNat_toNat.symm
  have whole := List.take_append_drop (pivBits first).toNat rest
  unfold EndsExactly at exact
  generalize rest.drop (pivBits first).toNat = tail at exact whole
  by_cases noContext : kidContextFlag first = 0
  · rw [if_pos noContext] at exact
    refine
      ⟨⟨first, _, [], tail, pivPresent, pivFits, pivAnnounced,
        Nat.zero_lt_succ _, fun _ => rfl, exact⟩, ?_⟩
    rw [OptionLayout.bytes, kidContextField, if_pos noContext,
      List.nil_append, whole]
  · rw [if_neg noContext] at exact
    cases tail with
    | nil =>
        exact exact.elim
    | cons contextLen behind =>
        have contextLength :
            (behind.take contextLen.toNat).length = contextLen.toNat :=
          List.length_take_of_le exact.1
        refine
          ⟨⟨first, _, behind.take contextLen.toNat,
            behind.drop contextLen.toNat, pivPresent, pivFits, pivAnnounced,
            ?_, fun unset => absurd unset noContext, ?_⟩, ?_⟩
        · rw [contextLength]
          exact contextLen.toNat_lt
        · intro noKid
          exact List.drop_eq_nil_of_le (Nat.le_of_eq (exact.2 noKid))
        · rw [OptionLayout.bytes]
          dsimp only
          rw [kidContextField, if_neg noContext, contextLength,
            UInt8.ofNat_toNat, List.cons_append, List.take_append_drop, whole]

/-! ## The parser -/

theorem IsArrayOf.length {bytes : Bytes} {view : ByteArrayView}
    (isArray : IsArrayOf bytes view) : bytes.length = view.len := by
  rw [← isArray.2]
  exact ByteArrayView.content_length isArray.1

theorem IsArrayOf.eq_nil {bytes : Bytes}
    (isArray : IsArrayOf bytes nullArray) : bytes = [] :=
  isArray.2.symm

theorem parsePiv_absent {out : CompressedOscoreOption} {kidLen : UInt8}
    {p : Bytes} :
    parsePiv out 0 p kidLen =
      .ok ({ out with pivPtr := some [] }, p, kidLen) := rfl

/-- A value without Partial IV sets the KID, and the Partial IV only to the
null pointer. -/
theorem parseOscoreValue_absent {option : OCoapOption} {first : UInt8}
    {p : Bytes} (value : option.value = first :: p)
    (absent : pivBits first = 0) :
    match kidWithoutPiv option.len first p with
    | none => parseOscoreValue .unwritten option = undefinedBehaviour
    | some kid =>
        ∃ parsed, parseOscoreValue .unwritten option = .ok parsed ∧
          parsed.pivPtr = some [] ∧ parsed.pivLen = none ∧
          parsed.kid = some kid := by
  rw [parseOscoreValue_cons value, absent, parsePiv_absent, outcome_ok_bind]
  dsimp only
  unfold parseKidContext kidWithoutPiv
  by_cases noContext : kidContextFlag first = 0
  · rw [if_pos noContext, if_pos noContext]
    exact ⟨_, rfl, rfl, rfl, rfl⟩
  · rw [if_neg noContext, if_neg noContext]
    cases p with
    | nil =>
        rfl
    | cons contextLen p =>
        exact ⟨_, rfl, rfl, rfl, rfl⟩

theorem not_carries_of_pivLen {parsed : CompressedOscoreOption}
    {piv kidContext kid : Bytes} (unset : parsed.pivLen = none) :
    ¬ Carries parsed piv kidContext kid := by
  intro carries
  obtain ⟨view, read, _⟩ := carries.piv
  rw [pivArray, unset] at read
  obtain ⟨_, _, impossible⟩ := outcome_bind_eq_ok.mp read
  cases impossible

section Parser

variable {packet : OCoapPacket} {option : OCoapOption} {value rest : Bytes}
  (has : HasOscoreOption packet option)

include has

theorem HasOscoreOption.parsed_empty (empty : option.len = 0) :
    oscoreOptionParser packet =
      .ok
        ({ CompressedOscoreOption.unwritten with
            h := some 0, k := some 0, n := some 0 }, true) := by
  rw [has.parsed, oscoreOptionStep, if_pos has.number, if_pos empty]

theorem HasOscoreOption.not_exact_of_lacksPiv
    (pointer : option.value = value ++ rest)
    (length : value.length = option.len.toNat) (lacks : LacksPiv value) :
    ¬ ParsesExactly packet value := by
  cases value with
  | nil =>
      have empty : option.len = 0 := UInt8.toNat_inj.mp length.symm
      rw [ParsesExactly, has.parsed_empty empty]
      rintro (⟨code, failed⟩ | ⟨parsed, _, _, _, _, _, done, _, carries, _⟩)
      · cases failed
      · cases done
        exact not_carries_of_pivLen rfl carries
  | cons first p =>
      have nonempty : option.len ≠ 0 := by
        intro zero
        rw [zero] at length
        cases length
      have found := parseOscoreValue_absent pointer lacks
      rw [ParsesExactly, has.parsed_value nonempty]
      split at found
      · rw [found]
        rintro (⟨code, failed⟩ | ⟨parsed, _, _, _, _, _, done, _⟩)
        · cases failed
        · cases done
      · obtain ⟨out, isParsed, _, unset, _⟩ := found
        rw [isParsed]
        rintro (⟨code, failed⟩ | ⟨parsed, _, _, _, _, _, done, _, carries, _⟩)
        · cases failed
        · cases done
          exact not_carries_of_pivLen unset carries

theorem HasOscoreOption.parsesExactly_of_reserved {first : UInt8} {p : Bytes}
    (pointer : option.value = first :: p) (nonempty : option.len ≠ 0)
    (reserved : pivBits first = 6 ∨ pivBits first = 7) :
    ParsesExactly packet value := by
  have present : pivBits first ≠ 0 := by
    intro zero
    rw [zero] at reserved
    rcases reserved with six | seven
    · cases six
    · cases seven
  refine Or.inl ⟨.oscoreInpktInvalidPiv, ?_⟩
  rw [has.parsed_value nonempty, parseOscoreValue_cons pointer, parsePiv,
    if_neg present, if_pos reserved]
  rfl

/-- What the parser makes of a value that announces a Partial IV makes up the
value only where the value holds what it announces. -/
theorem HasOscoreOption.endsExactly {first : UInt8} {p : Bytes}
    (pointer : option.value = first :: (p ++ rest))
    (nonempty : option.len ≠ 0) (present : pivBits first ≠ 0)
    (notReserved : ¬ (pivBits first = 6 ∨ pivBits first = 7))
    (exact : ParsesExactly packet (first :: p)) :
    (pivBits first).toNat ≤ p.length ∧
      EndsExactly (kidContextFlag first) (kidFlag first)
        (p.drop (pivBits first).toNat) := by
  rw [ParsesExactly, has.parsed_value nonempty,
    parseOscoreValue_cons pointer, parsePiv_present present notReserved,
    outcome_ok_bind] at exact
  dsimp only at exact
  unfold EndsExactly
  unfold parseKidContext at exact
  by_cases noContext : kidContextFlag first = 0
  · rw [if_pos noContext, outcome_ok_bind] at exact
    rcases exact with ⟨code, failed⟩ | made
    · cases failed
    · obtain ⟨parsed, h, flags, piv, kidContext, kid, done, isH, carries,
        same⟩ := made
      cases done
      cases isH
      obtain ⟨_, read, isPiv⟩ := carries.piv
      cases read
      obtain ⟨_, isSet, isKid⟩ := carries.kid
      cases isSet
      rw [kidContextField, if_pos noContext, List.nil_append] at same
      obtain ⟨_, rfl⟩ := List.cons.inj same
      have pivLength : piv.length = (pivBits first).toNat := isPiv.length
      rw [← pivLength, List.drop_left, if_pos noContext]
      refine ⟨?_, ?_⟩
      · rw [List.length_append]
        exact Nat.le_add_right _ _
      · intro noKid
        rw [if_pos noKid] at isKid
        exact isKid.eq_nil
  · rw [if_neg noContext] at exact
    cases behind : (p ++ rest).drop (pivBits first).toNat with
    | nil =>
        rw [behind] at exact
        rcases exact with ⟨code, failed⟩ | made
        · cases failed
        · obtain ⟨_, _, _, _, _, _, done, _⟩ := made
          cases done
    | cons contextLen q =>
        rw [behind] at exact
        rcases exact with ⟨code, failed⟩ | made
        · cases failed
        · obtain ⟨parsed, h, flags, piv, kidContext, kid, done, isH, carries,
            same⟩ := made
          cases done
          cases isH
          obtain ⟨_, read, isPiv⟩ := carries.piv
          cases read
          obtain ⟨_, isSet, isContext⟩ := carries.kidContext
          cases isSet
          obtain ⟨_, isSet, isKid⟩ := carries.kid
          cases isSet
          rw [kidContextField, if_neg noContext, List.cons_append] at same
          obtain ⟨_, rfl⟩ := List.cons.inj same
          have pivLength : piv.length = (pivBits first).toNat := isPiv.length
          have contextLength : kidContext.length = contextLen.toNat :=
            isContext.length
          rw [← pivLength, List.drop_left, if_neg noContext, contextLength,
            UInt8.ofNat_toNat]
          refine ⟨?_, ?_, ?_⟩
          · rw [List.length_append]
            exact Nat.le_add_right _ _
          · rw [List.length_append, contextLength]
            exact Nat.le_add_right _ _
          · intro noKid
            rw [if_pos noKid] at isKid
            rw [isKid.eq_nil, List.append_nil, contextLength]

theorem HasOscoreOption.parsesExactly_iff
    (pointer : option.value = value ++ rest)
    (length : value.length = option.len.toNat) :
    ParsesExactly packet value ↔ IsExactValue value := by
  cases value with
  | nil =>
      exact iff_of_false (has.not_exact_of_lacksPiv pointer length trivial) id
  | cons first p =>
      have nonempty : option.len ≠ 0 := by
        intro zero
        rw [zero] at length
        cases length
      by_cases absent : pivBits first = 0
      · refine
          iff_of_false (has.not_exact_of_lacksPiv pointer length absent) ?_
        rintro (six | seven | ⟨present, _⟩)
        · rw [absent] at six
          cases six
        · rw [absent] at seven
          cases seven
        · exact present absent
      · by_cases reserved : pivBits first = 6 ∨ pivBits first = 7
        · refine
            iff_of_true
              (has.parsesExactly_of_reserved pointer nonempty reserved) ?_
          rcases reserved with six | seven
          · exact Or.inl six
          · exact Or.inr (Or.inl seven)
        · constructor
          · intro exact
            exact
              Or.inr
                (Or.inr
                  ⟨absent,
                    has.endsExactly pointer nonempty absent reserved exact⟩)
          · rintro (six | seven | ⟨_, inside, exact⟩)
            · exact absurd (Or.inl six) reserved
            · exact absurd (Or.inr seven) reserved
            · obtain ⟨layout, bytes⟩ :=
                exists_layout absent reserved inside exact
              rw [← bytes] at pointer length
              obtain ⟨parsed, done, flags, carries⟩ :=
                oscoreOptionParser_layout has layout pointer length
              exact
                Or.inr
                  ⟨parsed, _, layout.first, _, _, _, done, flags, carries,
                    bytes.symm⟩

end Parser

/-! ## Requests without Partial IV -/

section Requests

variable {platform : Platform} {input : Bytes} {capacity : Nat}
  {c : Context} {packet : OCoapPacket} {option : OCoapOption}

/-- The outcome for a request is the one of the checks where these fail. -/
theorem exec_oscore2coap_of_refused {parsed : CompressedOscoreOption}
    {options : List OCoapOption} {fault : Fault} {after : Context}
    (isParsed : buf2coap input = .ok packet)
    (request : isRequest packet = true)
    (present : packet.options = some options)
    (optionParsed : oscoreOptionParser packet = .ok (parsed, true))
    (refused :
      exec (requestAccept platform options parsed) c = (.error fault, after)) :
    exec (oscore2coap platform input capacity) c = (.error fault, after) := by
  unfold oscore2coap oscorePacketDecrypt
  rw [exec_lift_bind, isParsed, andThen_ok, exec_lift_bind, optionParsed,
    andThen_ok, exec_ite, if_pos rfl, exec_bind, exec_lift_bind, present,
    orUndefined_some, andThen_ok, exec_bind, exec_whenRequest, if_pos request,
    refused]

theorem not_refuses_of_undefined {after : Context}
    (ran :
      exec (oscore2coap platform input capacity) c =
        (undefinedBehaviour, after)) :
    ¬ Refuses platform input capacity c := by
  rintro ⟨code, other, failed⟩
  rw [ran] at failed
  cases failed

/-- A null pointer for the Partial IV is not read only where the KID is found
to be another one. -/
theorem requestAccept_nullPiv {parsed : CompressedOscoreOption}
    {options : List OCoapOption} {kid : ByteArrayView}
    (null : parsed.pivPtr = some []) (isKid : parsed.kid = some kid) :
    exec (requestAccept platform options parsed) c =
      (if arrayEquals c.rc.recipientId kid = .ok false then
        fail .oscoreKidRecipentIdMismatch
      else
        undefinedBehaviour, c) := by
  unfold requestAccept
  rw [exec_get_bind, exec_lift_bind, isKid, orUndefined_some, andThen_ok,
    exec_lift_bind]
  cases compared : arrayEquals c.rc.recipientId kid with
  | error fault =>
      cases fault with
      | err code =>
          exact absurd compared arrayEquals_ne_err
      | undefinedBehaviour =>
          rfl
  | ok same =>
      cases same with
      | false =>
          rfl
      | true =>
          rw [andThen_ok, if_pos rfl, exec_lift_bind, pivFirstByte, null]
          rfl

variable (has : HasOscoreOption packet option)

include has

theorem HasOscoreOption.refuses_iff {value rest : Bytes}
    (pointer : option.value = value ++ rest)
    (length : value.length = option.len.toNat) (lacks : LacksPiv value)
    (isParsed : buf2coap input = .ok packet)
    (request : isRequest packet = true) :
    Refuses platform input capacity c ↔
      CarriesOtherKid c.rc.recipientId option := by
  obtain ⟨before, behind, present, _⟩ := has.split
  cases value with
  | nil =>
      have empty : option.len = 0 := UInt8.toNat_inj.mp length.symm
      refine iff_of_false ?_ (fun other => other.1 empty)
      apply not_refuses_of_undefined
      exact
        exec_oscore2coap_of_refused isParsed request present
          (has.parsed_empty empty) rfl
  | cons first p =>
      have nonempty : option.len ≠ 0 := by
        intro zero
        rw [zero] at length
        cases length
      rw [List.cons_append] at pointer
      have found := parseOscoreValue_absent pointer lacks
      cases isKid : kidWithoutPiv option.len first (p ++ rest) with
      | none =>
          rw [isKid] at found
          refine iff_of_false ?_ ?_
          · apply not_refuses_of_undefined
            unfold oscore2coap
            rw [exec_lift_bind, isParsed, andThen_ok, exec_lift_bind,
              has.parsed_value nonempty, found]
            rfl
          · rintro ⟨_, other, q, kid, isValue, isSome, _⟩
            rw [pointer] at isValue
            obtain ⟨rfl, rfl⟩ := List.cons.inj isValue
            rw [isKid] at isSome
            cases isSome
      | some kid =>
          rw [isKid] at found
          obtain ⟨parsed, done, null, _, isSet⟩ := found
          have optionParsed : oscoreOptionParser packet = .ok (parsed, true) := by
            rw [has.parsed_value nonempty, done]
            rfl
          have accept :=
            @requestAccept_nullPiv platform c parsed
              (before ++ option :: behind) kid null isSet
          by_cases differs : arrayEquals c.rc.recipientId kid = .ok false
          · rw [if_pos differs] at accept
            refine iff_of_true ⟨.oscoreKidRecipentIdMismatch, c, ?_⟩
              ⟨nonempty, first, p ++ rest, kid, pointer, isKid, differs⟩
            exact
              exec_oscore2coap_of_refused isParsed request present
                optionParsed accept
          · rw [if_neg differs] at accept
            refine iff_of_false ?_ ?_
            · apply not_refuses_of_undefined
              exact
                exec_oscore2coap_of_refused isParsed request present
                  optionParsed accept
            · rintro ⟨_, other, q, otherKid, isValue, isSome, otherDiffers⟩
              rw [pointer] at isValue
              obtain ⟨rfl, rfl⟩ := List.cons.inj isValue
              rw [isKid] at isSome
              cases isSome
              exact differs otherDiffers

end Requests

/-! ## The values that are parsed exactly -/

/-- The option is parsed exactly where its value holds what its flags announce
and nothing else; a request without Partial IV is refused only where its KID is
set and found to be another one. -/
theorem oscoreOption_handled_iff {packet : OCoapPacket} {option : OCoapOption}
    {value rest : Bytes} (has : HasOscoreOption packet option)
    (pointer : option.value = value ++ rest)
    (length : value.length = option.len.toNat) :
    (ParsesExactly packet value ↔ IsExactValue value) ∧
      ∀ platform input capacity c,
        buf2coap input = .ok packet → isRequest packet = true →
        LacksPiv value →
        (Refuses platform input capacity c ↔
          CarriesOtherKid c.rc.recipientId option) := by
  refine ⟨has.parsesExactly_iff pointer length, ?_⟩
  intro platform input capacity c isParsed request lacks
  exact has.refuses_iff pointer length lacks isParsed request

private def shortOption : OCoapOption :=
  oscoreOption [0x09, 0x05, 0x61]

private def kidOption : OCoapOption where
  delta := 9
  len := 2
  value := [0x08, 0x62]
  optionNumber := coapOptionOscore

private def kidRequest : OCoapPacket where
  header := { ver := 1, type := 0, tkl := 0, code := 1, mid := 1 }
  token := some []
  options := some [kidOption]
  payloadLen := 0
  payload := []

/-- A Partial IV of one byte and a KID are parsed exactly; the server of test
vector T1 refuses another KID without Partial IV. -/
theorem oscoreOption_handled_short :
    ParsesExactly (getWithOption shortOption) [0x09, 0x05, 0x61] ∧
      Refuses t1Platform [0x40, 0x01, 0x00, 0x01, 0x92, 0x08, 0x62] 64
        t1Server := by
  have exact : IsExactValue [0x09, 0x05, 0x61] :=
    Or.inr
      (Or.inr ⟨by decide, by decide, fun noKid => absurd noKid (by decide)⟩)
  have parsed :=
    @oscoreOption_handled_iff (getWithOption shortOption) shortOption
      [0x09, 0x05, 0x61] [] (getWithOption_hasOscoreOption rfl) rfl rfl
  have refused :=
    @oscoreOption_handled_iff kidRequest kidOption [0x08, 0x62] []
      ⟨rfl, [], [], rfl, by simp⟩ rfl rfl
  refine ⟨parsed.1.mpr exact, ?_⟩
  refine (refused.2 t1Platform _ 64 t1Server (by decide) rfl rfl).mpr ?_
  exact ⟨by decide, 0x08, [0x62], ⟨1, [0x62]⟩, rfl, rfl, rfl⟩

/-- An empty OSCORE option leaves the KID unset, and the server reads it. -/
theorem emptyOption_readsUnset :
    ¬ ∀ (packet : OCoapPacket) (option : OCoapOption) (value rest : Bytes),
        HasOscoreOption packet option → option.value = value ++ rest →
        value.length = option.len.toNat →
        ParsesExactly packet value ∧
          ∀ (platform : Platform) (input : Bytes) (capacity : Nat)
            (c : Context),
            buf2coap input = .ok packet → isRequest packet = true →
            LacksPiv value → Refuses platform input capacity c := by
  intro handled
  have has : HasOscoreOption
      (getWithOption ⟨9, 0, [], coapOptionOscore⟩)
      ⟨9, 0, [], coapOptionOscore⟩ :=
    getWithOption_hasOscoreOption rfl
  obtain ⟨_, refuses⟩ := handled _ _ [] [] has rfl rfl
  obtain ⟨code, after, ran⟩ :=
    refuses t1Platform [0x40, 0x01, 0x00, 0x01, 0x90] 64 t1Server (by decide)
      rfl trivial
  have reads :
      (exec (oscore2coap t1Platform [0x40, 0x01, 0x00, 0x01, 0x90] 64)
        t1Server).1 = undefinedBehaviour := rfl
  rw [ran] at reads
  cases reads

end UoscoreUedhoc.Oscore
