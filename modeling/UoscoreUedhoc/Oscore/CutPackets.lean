import UoscoreUedhoc.Oscore.Oscore2Coap
import UoscoreUedhoc.Oscore.ParserSafety

/-!
# Inputs that end too early

The option loops compare neither the bytes of an option head with the end of
the buffer nor the number of options with the size of their array.  A parser is
undefined on the inputs that cut off a token or a head, and on those with more
options than it has entries for, and on no others.
-/

namespace UoscoreUedhoc.Oscore

open UoscoreUedhoc
open UoscoreUedhoc.Coap

/-! ## The conditions -/

/-- The extension bytes of a head are cut off by the end of the buffer. -/
def CutHead : Bytes → Prop
  | first :: rest =>
      deltaNibble first ≠ 15 ∧
        rest.length <
          extensionLength (deltaNibble first) +
            extensionLength (lenNibble first)
  | [] => True

/-- An option begins, without a reserved nibble. -/
def StartsOption (p : Bytes) : Prop :=
  ∃ first rest, p = first :: rest ∧
    deltaNibble first ≠ 15 ∧ lenNibble first ≠ 15

/-- Behind complete options and before the end of the option bytes, a head is
cut off. -/
def MeetsCut (len : ExtensionDecoder) (slots left : Nat) (p : Bytes) : Prop :=
  ∃ (options : List (FramedOption len)) (rest : Bytes),
    options.length ≤ slots ∧ framedBytes options ++ rest = p ∧
      (framedBytes options).length < left ∧ CutHead rest

/-- Behind `slots` complete options and before the end of the option bytes,
another option begins. -/
def Overfull (len : ExtensionDecoder) (slots left : Nat) (p : Bytes) : Prop :=
  ∃ (options : List (FramedOption len)) (rest : Bytes),
    options.length = slots ∧ framedBytes options ++ rest = p ∧
      (framedBytes options).length < left ∧ StartsOption rest

/-- A packet whose token or a head of whose options is cut off. -/
def CutInput : Bytes → Prop
  | first :: _ :: _ :: _ :: rest =>
      let tkl := (first &&& 0x0F).toNat
      let tmp := rest.drop tkl
      let region := tmp.takeWhile (· ≠ 0xFF)
      rest ≠ [] ∧ tkl ≤ 8 ∧
        (rest.length < tkl ∨
          MeetsCut buf2optionsLen maxOptionCount (region.length % 2 ^ 16) tmp)
  | _ => False

/-- A packet with more than `MAX_OPTION_COUNT` options. -/
def MoreOptions : Bytes → Prop
  | first :: _ :: _ :: _ :: rest =>
      let tkl := (first &&& 0x0F).toNat
      let tmp := rest.drop tkl
      let region := tmp.takeWhile (· ≠ 0xFF)
      tkl ≤ 8 ∧ tkl < rest.length ∧
        Overfull buf2optionsLen maxOptionCount (region.length % 2 ^ 16) tmp
  | _ => False

section Head

variable {delta len : ExtensionDecoder} {p : Bytes}

theorem extendedField_eq_undefined {decoder : ExtensionDecoder}
    {reserved : Err} {nibble : UInt8} :
    extendedField decoder reserved nibble p = undefinedBehaviour ↔
      p.length < extensionLength nibble := by
  unfold extendedField extensionLength
  by_cases isOne : nibble = 13
  · rw [if_pos isOne, if_pos isOne]
    cases p with
    | nil =>
        simp
    | cons first rest =>
        simp [undefinedBehaviour]
  · rw [if_neg isOne, if_neg isOne]
    by_cases isTwo : nibble = 14
    · rw [if_pos isTwo, if_pos isTwo]
      rcases p with _ | ⟨first, _ | ⟨second, rest⟩⟩
      · simp
      · simp
      · simp [undefinedBehaviour]
    · rw [if_neg isTwo, if_neg isTwo]
      split
      · simp [fail, undefinedBehaviour]
      · simp [undefinedBehaviour]

theorem optionHead_eq_undefined :
    optionHead delta len p = undefinedBehaviour ↔ CutHead p := by
  cases p with
  | nil =>
      exact iff_of_true rfl trivial
  | cons first rest =>
      have deltaCut :=
        @extendedField_eq_undefined rest delta .oscoreInpktInvalidOptionDelta
          (deltaNibble first)
      unfold CutHead
      unfold optionHead
      change (extendedField delta .oscoreInpktInvalidOptionDelta
        (deltaNibble first) rest >>= _) = _ ↔ _
      rw [outcome_bind_eq_undefined, deltaCut]
      constructor
      · intro cut
        rcases cut with short | ⟨⟨_, _, afterDelta⟩, read, cut⟩
        · refine ⟨?_, by omega⟩
          intro reserved
          rw [reserved] at short
          exact absurd short (Nat.not_lt_zero _)
        · obtain ⟨valid, extension, rfl, length, _⟩ :=
            extendedField_eq_ok.mp read
          refine ⟨valid, ?_⟩
          rcases outcome_bind_eq_undefined.mp cut with short | ⟨_, _, impossible⟩
          · have short := extendedField_eq_undefined.mp short
            rw [List.length_append, length]
            exact Nat.add_lt_add_left short _
          · cases impossible
      · intro cut
        obtain ⟨valid, short⟩ := cut
        by_cases deltaShort :
            rest.length < extensionLength (deltaNibble first)
        · exact Or.inl deltaShort
        · have room := Nat.le_of_not_lt deltaShort
          refine
            Or.inr
              ⟨_, extendedField_eq_ok.mpr
                ⟨valid, rest.take (extensionLength (deltaNibble first)),
                  (List.take_append_drop _ _).symm,
                  List.length_take_of_le room, rfl, rfl⟩, ?_⟩
          apply outcome_bind_eq_undefined.mpr
          left
          apply extendedField_eq_undefined.mpr
          rw [List.length_drop]
          unfold lenNibble at short
          omega

theorem startsOption_of_head {head : OptionHead}
    (read : optionHead delta len p = .ok head) : StartsOption p := by
  obtain ⟨encoded, same, _⟩ := optionHead_eq_ok.mp read
  have nibbles := nibbles_lt_iff encoded.first
  exact
    ⟨encoded.first, _, same, nibbles.1.mp encoded.deltaNibble_lt,
      nibbles.2.mp encoded.lenNibble_lt⟩

theorem not_startsOption_of_refused {code : Err}
    (refused : optionHead delta len p = .error (.err code)) :
    ¬ StartsOption p := by
  intro starts
  obtain ⟨first, rest, rfl, validDelta, validLen⟩ := starts
  obtain ⟨_, _, same, ⟨reserved, _⟩ | ⟨_, reserved, _⟩⟩ :=
    optionHead_eq_fail.mp refused
  · obtain ⟨rfl, _⟩ := List.cons.inj same
    exact validDelta reserved
  · obtain ⟨rfl, _⟩ := List.cons.inj same
    exact validLen reserved

end Head

/-! ## The option loop -/

section OptionsWalk

variable {delta len : ExtensionDecoder} {slots left : Nat} {p : Bytes}

theorem overfull_zero :
    Overfull len 0 left p ↔ 0 < left ∧ StartsOption p := by
  constructor
  · intro overfull
    obtain ⟨options, rest, none, same, before, starts⟩ := overfull
    obtain rfl := List.eq_nil_of_length_eq_zero none
    rw [← same]
    exact ⟨before, starts⟩
  · intro starts
    exact ⟨[], p, rfl, rfl, starts.1, starts.2⟩

theorem meetsCut_here (positive : 0 < left) (cut : CutHead p) :
    MeetsCut len slots left p :=
  ⟨[], p, Nat.zero_le _, rfl, positive, cut⟩

theorem MeetsCut.positive (meets : MeetsCut len slots left p) : 0 < left := by
  obtain ⟨_, _, _, _, before, _⟩ := meets
  exact Nat.zero_lt_of_lt before

theorem Overfull.positive (overfull : Overfull len slots left p) :
    0 < left := by
  obtain ⟨_, _, _, _, before, _⟩ := overfull
  exact Nat.zero_lt_of_lt before

/-- The first of the complete options. -/
theorem overfull_succ {head : EncodedHead} {rest : Bytes}
    (inside : left ≤ (head.bytes ++ rest).length) :
    Overfull len (slots + 1) left (head.bytes ++ rest) ↔
      Overfull len slots (left - (head.bytes.length + (len.len head).toNat))
        (rest.drop (len.len head).toNat) := by
  constructor
  · intro overfull
    obtain ⟨options, behind, count, same, before, starts⟩ := overfull
    obtain ⟨option, options, rfl⟩ :=
      List.exists_cons_of_length_eq_add_one count
    rw [framedBytes_cons, FramedOption.bytes, List.append_assoc,
      List.append_assoc] at same
    obtain ⟨rfl, rfl⟩ := EncodedHead.bytes_append_inj same
    rw [framedBytes_cons, FramedOption.bytes, List.length_append,
      List.length_append, option.value_length] at before
    rw [← option.value_length, List.drop_left]
    refine
      ⟨options, behind, Nat.succ.inj count, rfl, ?_, starts⟩
    rw [option.value_length]
    omega
  · intro overfull
    obtain ⟨options, behind, count, same, before, starts⟩ := overfull
    rw [List.length_append] at inside
    obtain ⟨option, optionBytes, optionLength⟩ :=
      @exists_framedOption len head rest (by omega)
    refine
      ⟨option :: options, behind, congrArg Nat.succ count, ?_, ?_, starts⟩
    · rw [framedBytes_cons, List.append_assoc, same, optionBytes]
    · rw [framedBytes_cons, List.length_append]
      omega

/-- The same for a head that is cut off, which the first one is not. -/
theorem meetsCut_succ {head : EncodedHead} {rest : Bytes}
    (inside : left ≤ (head.bytes ++ rest).length) :
    MeetsCut len (slots + 1) left (head.bytes ++ rest) ↔
      MeetsCut len slots (left - (head.bytes.length + (len.len head).toNat))
        (rest.drop (len.len head).toNat) := by
  constructor
  · intro meets
    obtain ⟨options, behind, fits, same, before, cut⟩ := meets
    cases options with
    | nil =>
        rw [framedBytes_nil, List.nil_append] at same
        have cutHead := (@optionHead_eq_undefined len len behind).mpr cut
        rw [same, optionHead_bytes] at cutHead
        cases cutHead
    | cons option options =>
        rw [framedBytes_cons, FramedOption.bytes, List.append_assoc,
          List.append_assoc] at same
        obtain ⟨rfl, rfl⟩ := EncodedHead.bytes_append_inj same
        rw [framedBytes_cons, FramedOption.bytes, List.length_append,
          List.length_append, option.value_length] at before
        rw [← option.value_length, List.drop_left]
        refine
          ⟨options, behind, Nat.le_of_succ_le_succ fits, rfl, ?_, cut⟩
        rw [option.value_length]
        omega
  · intro meets
    obtain ⟨options, behind, fits, same, before, cut⟩ := meets
    rw [List.length_append] at inside
    obtain ⟨option, optionBytes, optionLength⟩ :=
      @exists_framedOption len head rest (by omega)
    refine
      ⟨option :: options, behind, Nat.succ_le_succ fits, ?_, ?_, cut⟩
    · rw [framedBytes_cons, List.append_assoc, same, optionBytes]
    · rw [framedBytes_cons, List.length_append]
      omega

/-- Behind a head that cannot be read there is no other option. -/
theorem not_overfull_of_unread {fault : Fault}
    (unread : optionHead delta len p = .error fault) :
    ¬ Overfull len (slots + 1) left p := by
  intro overfull
  obtain ⟨options, behind, count, same, _⟩ := overfull
  obtain ⟨option, options, rfl⟩ :=
    List.exists_cons_of_length_eq_add_one count
  rw [← same, framedBytes_cons, FramedOption.bytes, List.append_assoc,
    List.append_assoc, optionHead_bytes] at unread
  cases unread

/-- Behind a refused head no other one is cut off. -/
theorem not_meetsCut_of_refused {code : Err}
    (refused : optionHead delta len p = .error (.err code)) :
    ¬ MeetsCut len slots left p := by
  intro meets
  obtain ⟨options, behind, _, same, _, cut⟩ := meets
  cases options with
  | nil =>
      rw [framedBytes_nil, List.nil_append] at same
      have cutHead := (@optionHead_eq_undefined delta len behind).mpr cut
      rw [same, refused] at cutHead
      cases cutHead
  | cons option options =>
      rw [← same, framedBytes_cons, FramedOption.bytes, List.append_assoc,
        List.append_assoc, optionHead_bytes] at refused
      cases refused

/-- The loop is undefined where it meets a head that is cut off or an option
without an entry. -/
theorem optionsWalk_eq_undefined {number : UInt8}
    (inside : left ≤ p.length) :
    optionsWalk delta len slots left number p = undefinedBehaviour ↔
      MeetsCut len slots left p ∨ Overfull len slots left p := by
  induction slots generalizing left number p with
  | zero =>
      unfold optionsWalk
      by_cases positive : 0 < left
      · rw [if_pos positive, overfull_zero]
        cases read : optionHead delta len p with
        | ok head =>
            exact
              iff_of_true rfl (Or.inr ⟨positive, startsOption_of_head read⟩)
        | error fault =>
            cases fault with
            | err code =>
                apply iff_of_false
                · intro impossible
                  cases impossible
                · intro stops
                  rcases stops with cut | ⟨_, starts⟩
                  · exact not_meetsCut_of_refused read cut
                  · exact not_startsOption_of_refused read starts
            | undefinedBehaviour =>
                have cut := optionHead_eq_undefined.mp read
                exact iff_of_true rfl (Or.inl (meetsCut_here positive cut))
      · rw [if_neg positive]
        apply iff_of_false
        · intro impossible
          cases impossible
        · intro stops
          exact positive (stops.elim MeetsCut.positive Overfull.positive)
  | succ slots inductionHypothesis =>
      unfold optionsWalk
      by_cases positive : 0 < left
      · rw [if_pos positive]
        cases read : optionHead delta len p with
        | ok head =>
            obtain ⟨encoded, same, headerLen, _, lenIs⟩ :=
              optionHead_eq_ok.mp read
            have insideRest :
                left - (head.headerLen.toNat + head.len.toNat) ≤
                  (head.rest.drop head.len.toNat).length := by
              rw [same, List.length_append] at inside
              rw [headerLen, headBytes_toNat, List.length_drop]
              omega
            rw [same] at inside ⊢
            rw [meetsCut_succ inside, overfull_succ inside, ← lenIs,
              ← headBytes_toNat encoded, ← headerLen,
              ← @inductionHypothesis _ _ (number + head.delta) insideRest,
              outcome_ok_bind, outcome_bind_eq_undefined]
            constructor
            · intro stops
              rcases stops with stops | ⟨_, _, impossible⟩
              · exact stops
              · cases impossible
            · exact Or.inl
        | error fault =>
            have alone := @not_overfull_of_unread delta len slots left p _ read
            cases fault with
            | err code =>
                apply iff_of_false
                · intro impossible
                  cases impossible
                · intro stops
                  exact stops.elim (not_meetsCut_of_refused read) alone
            | undefinedBehaviour =>
                have cut := optionHead_eq_undefined.mp read
                exact iff_of_true rfl (Or.inl (meetsCut_here positive cut))
      · rw [if_neg positive]
        apply iff_of_false
        · intro impossible
          cases impossible
        · intro stops
          exact positive (stops.elim MeetsCut.positive Overfull.positive)

end OptionsWalk

/-! ## The packet -/

/-- `buf2coap` is defined on all inputs but these. -/
theorem buf2coap_eq_undefined {input : Bytes} :
    buf2coap input = undefinedBehaviour ↔
      CutInput input ∨ MoreOptions input := by
  match input with
  | [] | [_] | [_, _] | [_, _, _] =>
      apply iff_of_false
      · intro impossible
        cases impossible
      · intro stops
        exact stops.elim id id
  | first :: code :: midHigh :: midLow :: rest =>
      have tklIs :
          (parseHeader first code midHigh midLow).tkl = first &&& 0x0F := rfl
      unfold CutInput MoreOptions
      dsimp only
      by_cases empty : rest = []
      · subst empty
        apply iff_of_false
        · intro impossible
          cases impossible
        · intro stops
          rcases stops with cut | more
          · exact cut.1 rfl
          · exact absurd more.2.1 (Nat.not_lt_zero _)
      · by_cases long : 8 < (first &&& 0x0F).toNat
        · have tokenLong :
              8 < (parseHeader first code midHigh midLow).tkl := by
            rw [tklIs, UInt8.lt_iff_toNat_lt]
            exact long
          apply iff_of_false
          · intro impossible
            unfold buf2coap at impossible
            simp only [if_neg empty, if_pos tokenLong] at impossible
            cases impossible
          · intro stops
            rcases stops with cut | more
            · exact absurd cut.2.1 (not_le.mpr long)
            · exact absurd more.1 (not_le.mpr long)
        · have short := not_lt.mp long
          rcases Nat.lt_trichotomy rest.length (first &&& 0x0F).toNat with
            cut | ends | goesOn
          · apply iff_of_true
            · have tokenFits :
                  ¬ 8 < (parseHeader first code midHigh midLow).tkl := by
                rw [tklIs, UInt8.lt_iff_toNat_lt]
                exact long
              unfold buf2coap
              rw [tklIs] at tokenFits
              simp only [if_neg empty, tklIs, if_neg tokenFits, if_pos cut]
            · exact Or.inl ⟨empty, short, Or.inl cut⟩
          · obtain ⟨packet, parsed, _⟩ :=
              @buf2coap_token_only first code midHigh midLow rest ends
                (by omega)
            have nothing : rest.drop (first &&& 0x0F).toNat = [] := by
              rw [← ends, List.drop_length]
            apply iff_of_false
            · intro impossible
              rw [parsed] at impossible
              cases impossible
            · intro stops
              rcases stops with ⟨_, _, less | cut⟩ | more
              · omega
              · rw [nothing] at cut
                exact absurd cut.positive (Nat.not_lt_zero _)
              · exact absurd more.2.1 (by omega)
          · have tokenLength :
                (rest.take (first &&& 0x0F).toNat).length =
                  (parseHeader first code midHigh midLow).tkl.toNat := by
              rw [List.length_take, tklIs]
              omega
            have more : rest.drop (first &&& 0x0F).toNat ≠ [] := by
              rw [ne_eq, List.drop_eq_nil_iff]
              omega
            have parsed :=
              buf2coap_of_token tokenLength
                (by rw [tokenLength, tklIs]; omega) more
            rw [List.take_append_drop] at parsed
            generalize rest.drop (first &&& 0x0F).toNat = tmp at parsed ⊢
            have shorter :=
              (List.takeWhile_prefix (· ≠ (0xFF : UInt8)) (l := tmp)).length_le
            have walked :=
              @optionsWalk_eq_undefined buf2optionsDelta buf2optionsLen
                maxOptionCount
                ((tmp.takeWhile (· ≠ 0xFF)).length % 2 ^ 16) tmp 0 (by omega)
            have whole : ¬ rest.length < (first &&& 0x0F).toNat := by
              omega
            rw [parsed]
            simp only [ne_eq, empty, not_false_eq_true, short, goesOn, whole,
              false_or, true_and]
            rw [← walked, outcome_bind_eq_undefined]
            constructor
            · intro stops
              rcases stops with stops | ⟨_, _, impossible⟩
              · exact stops
              · cases impossible
            · exact Or.inl

theorem readable_of_parsed {input : Bytes} {packet : OCoapPacket}
    (parsed : buf2coap input = .ok packet) :
    ¬ CutInput input ∧ ¬ MoreOptions input := by
  rw [← not_or, ← buf2coap_eq_undefined, parsed]
  intro impossible
  cases impossible

end UoscoreUedhoc.Oscore
