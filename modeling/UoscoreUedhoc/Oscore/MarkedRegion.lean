import UoscoreUedhoc.Oscore.ParserSafety

/-!
# Options in front of a payload marker

Both parsers take the first `0xFF` for the payload marker, also inside an option.
They find options and payload again exactly when no option byte is `0xFF`, but
for the last one where there is no payload.
-/

namespace UoscoreUedhoc.Oscore

open UoscoreUedhoc
open UoscoreUedhoc.Coap

/-- A payload with its marker, nothing for an empty one. -/
def markedPayload (payload : Bytes) : Bytes :=
  if payload = [] then [] else 0xFF :: payload

theorem markedPayload_marked (payload : Bytes) :
    markedPayload payload = [] ∨
      ∃ rest, markedPayload payload = 0xFF :: rest := by
  unfold markedPayload
  split
  · exact Or.inl rfl
  · exact Or.inr ⟨_, rfl⟩

theorem markedPayload_tail (payload : Bytes) :
    (markedPayload payload).tail = payload := by
  unfold markedPayload
  split
  · rename_i empty
    rw [empty]
    rfl
  · rfl

/-- No option byte is taken for the payload marker, or only the last one in
front of nothing. -/
def Unmarked (region payload : Bytes) : Prop :=
  0xFF ∉ region ∨ (payload = [] ∧ 0xFF ∉ region.dropLast)

instance (region payload : Bytes) : Decidable (Unmarked region payload) :=
  inferInstanceAs
    (Decidable (0xFF ∉ region ∨ (payload = [] ∧ 0xFF ∉ region.dropLast)))

theorem ends_with_marker {bytes : Bytes} (marker : 0xFF ∈ bytes)
    (clean : 0xFF ∉ bytes.dropLast) : bytes = bytes.dropLast ++ [0xFF] := by
  have nonempty := List.ne_nil_of_mem marker
  have split := List.dropLast_append_getLast nonempty
  rw [← split, List.mem_append] at marker
  have isLast : (0xFF : UInt8) = bytes.getLast nonempty :=
    List.mem_singleton.mp (marker.resolve_left clean)
  rw [isLast, split]

/-- The first byte of an option is not `0xFF`. -/
theorem FramedOption.bytes_length_of_marker {len : ExtensionDecoder}
    (last : FramedOption len) {front init : Bytes}
    (split : front ++ last.bytes = init ++ [0xFF]) :
    1 < last.bytes.length := by
  by_contra short
  have isFirst : last.bytes = [last.head.first] := by
    unfold FramedOption.bytes EncodedHead.bytes at short ⊢
    simp only [List.cons_append, List.length_cons, List.cons.injEq,
      true_and] at short ⊢
    apply List.eq_nil_of_length_eq_zero
    omega
  rw [isFirst] at split
  have same := List.append_inj_right' split rfl
  have valid := last.head.deltaNibble_lt
  rw [List.cons.inj same |>.1] at valid
  exact absurd valid (by decide)

theorem framedBytes_append {len : ExtensionDecoder}
    (front back : List (FramedOption len)) :
    framedBytes (front ++ back) = framedBytes front ++ framedBytes back := by
  simp [framedBytes]

section Region

variable {region payload : Bytes}

/-- The payload is what the parser takes for it only if no option byte is the
marker. -/
theorem unmarked_of_tail
    (found :
      ((region ++ markedPayload payload).dropWhile (· ≠ 0xFF)).tail.length =
        payload.length) :
    Unmarked region payload := by
  by_cases marker : 0xFF ∈ region
  · right
    obtain ⟨front, back, rfl, clean⟩ := List.eq_append_cons_of_mem marker
    obtain ⟨_, dropped⟩ :=
      takeWhile_region clean (Or.inr ⟨back ++ markedPayload payload, rfl⟩)
    rw [List.append_assoc, List.cons_append, dropped, List.tail_cons,
      List.length_append] at found
    by_cases noPayload : payload = []
    · rw [noPayload, List.length_nil] at found
      have noBack : back = [] := by
        apply List.eq_nil_of_length_eq_zero
        omega
      refine ⟨noPayload, ?_⟩
      rw [noBack, List.dropLast_concat]
      exact clean
    · unfold markedPayload at found
      rw [if_neg noPayload, List.length_cons] at found
      omega
  · exact Or.inl marker

/-- The bytes that are taken for the region of an unmarked region. -/
theorem unmarked_region (unmarked : Unmarked region payload) :
    (((region ++ markedPayload payload).takeWhile (· ≠ 0xFF) = region ∧
          0xFF ∉ region) ∨
        (payload = [] ∧ region = region.dropLast ++ [0xFF] ∧
          (region ++ markedPayload payload).takeWhile (· ≠ 0xFF) =
            region.dropLast)) ∧
      ((region ++ markedPayload payload).dropWhile (· ≠ 0xFF)).tail =
        payload := by
  by_cases marker : 0xFF ∈ region
  · obtain ⟨noPayload, clean⟩ := unmarked.resolve_left (not_not_intro marker)
    have ends := ends_with_marker marker clean
    have body : region ++ markedPayload payload = region.dropLast ++ [0xFF] := by
      unfold markedPayload
      rw [if_pos noPayload, List.append_nil]
      exact ends
    obtain ⟨taken, dropped⟩ := takeWhile_region clean (Or.inr ⟨[], rfl⟩)
    rw [body, taken, dropped, noPayload]
    exact ⟨Or.inr ⟨rfl, ends, rfl⟩, rfl⟩
  · obtain ⟨taken, dropped⟩ :=
      takeWhile_region marker (markedPayload_marked payload)
    rw [taken, dropped, markedPayload_tail]
    exact ⟨Or.inl ⟨rfl, marker⟩, rfl⟩

end Region

/-- The option loop reads all options of an unmarked region. -/
theorem framedRegion_walked {delta len : ExtensionDecoder}
    (framed : List (FramedOption len)) {slots : Nat} {payload : Bytes}
    (fits : framed.length ≤ slots)
    (room : slots * maxOptionBytes < 2 ^ 16)
    (unmarked : Unmarked (framedBytes framed) payload) (number : UInt8) :
    optionsWalk delta len slots
        (((framedBytes framed ++ markedPayload payload).takeWhile
          (· ≠ 0xFF)).length % 2 ^ 16) number
        (framedBytes framed ++ markedPayload payload) =
      .ok (parsedOptions delta number framed (markedPayload payload)) := by
  have bound := framedBytes_length_le framed
  have short : (framedBytes framed).length < 2 ^ 16 := by
    have product := Nat.mul_le_mul_right maxOptionBytes fits
    omega
  obtain ⟨region, _⟩ := unmarked_region unmarked
  rcases region with ⟨taken, _⟩ | ⟨noPayload, ends, taken⟩
  · rw [taken, Nat.mod_eq_of_lt short]
    exact optionsWalk_framed delta framed fits number _
  · rcases List.eq_nil_or_concat framed with none | ⟨front, last, isConcat⟩
    · rw [none] at ends
      cases ends
    · rw [List.concat_eq_append] at isConcat
      subst isConcat
      have split :
          framedBytes (front ++ [last]) = framedBytes front ++ last.bytes := by
        rw [framedBytes_append, framedBytes_cons, framedBytes_nil,
          List.append_nil]
      generalize (framedBytes (front ++ [last])).dropLast = init
        at ends taken
      have reaches := last.bytes_length_of_marker (split.symm.trans ends)
      have total := congrArg List.length split
      have totalEnds := congrArg List.length ends
      rw [List.length_append] at total
      rw [List.length_append, List.length_singleton] at totalEnds
      rw [List.length_append, List.length_singleton] at fits
      have left : init.length % 2 ^ 16 = init.length :=
        Nat.mod_eq_of_lt (by omega)
      rw [taken, left, split, List.append_assoc]
      exact
        optionsWalk_overrun delta front last (by omega) (by omega) (by omega)
          number _

end UoscoreUedhoc.Oscore
