import UoscoreUedhoc.Oscore.RestoredOptions

/-!
# Dividing options and assembling the outer ones

`e_u_options_extract` divides the options of a packet into two lists, and
`oscore_pkg_generate` puts the OSCORE option between those of class U.  Options
keep their order and their contents; in each of the three lists they get deltas
that sum to their numbers.
-/

namespace UoscoreUedhoc.Oscore

open UoscoreUedhoc

/-! ## The properties -/

/-- The options are divided by class, with their order and their contents. -/
structure IsDivision (options eOptions uOptions : List OCoapOption) :
    Prop where
  eContents :
    eOptions.map OCoapOption.content =
      (options.filter fun option =>
        isClassE option.optionNumber.toUInt16).map OCoapOption.content
  uContents :
    uOptions.map OCoapOption.content =
      (options.filter fun option =>
        !isClassE option.optionNumber.toUInt16).map OCoapOption.content
  partition :
    ((eOptions ++ uOptions).map OCoapOption.content).Perm
      (options.map OCoapOption.content)
  eDeltas : SumsToNumbers 0 eOptions
  uDeltas : SumsToNumbers 0 uOptions

/-- The outer options are the options of class U and, between those numbered at
most 9 and the others, the OSCORE option. -/
structure IsOuterList (uOptions : List OCoapOption) (oscore : OCoapOption)
    (outer : List OCoapOption) : Prop where
  inserted :
    ∃ before after, uOptions = before ++ after ∧
      outer.map OCoapOption.content =
        before.map OCoapOption.content ++
          oscore.content :: after.map OCoapOption.content ∧
      (∀ option ∈ before, option.optionNumber ≤ 9) ∧
      ∀ option ∈ after, 9 < option.optionNumber
  ascending :
    outer.Pairwise fun option later =>
      option.optionNumber ≤ later.optionNumber
  deltas : SumsToNumbers 0 outer
  count : outer.length = uOptions.length + 1

/-! ## Ascending numbers -/

/-- The order of the numbers is one of the contents. -/
theorem ascending_of_content {options others : List OCoapOption}
    (same : options.map OCoapOption.content = others.map OCoapOption.content)
    (ascending :
      others.Pairwise fun option later =>
        option.optionNumber ≤ later.optionNumber) :
    options.Pairwise fun option later =>
      option.optionNumber ≤ later.optionNumber := by
  have contents :
      (others.map OCoapOption.content).Pairwise fun content later =>
        content.number ≤ later.number :=
    List.pairwise_map.mpr ascending
  rw [← same, List.pairwise_map] at contents
  exact contents

/-- Behind the first option with a larger number there are only such. -/
theorem dropWhile_above {bound : UInt8} {options : List OCoapOption}
    (ascending :
      options.Pairwise fun option later =>
        option.optionNumber ≤ later.optionNumber) :
    ∀ option ∈ options.dropWhile fun option => option.optionNumber ≤ bound,
      bound < option.optionNumber := by
  induction options with
  | nil =>
      intro option member
      cases member
  | cons first options inductionHypothesis =>
      obtain ⟨isFirst, ascendingRest⟩ := List.pairwise_cons.mp ascending
      by_cases small : first.optionNumber ≤ bound
      · rw [List.dropWhile_cons, if_pos (decide_eq_true small)]
        exact inductionHypothesis ascendingRest
      · rw [List.dropWhile_cons, if_neg (by simpa using small)]
        have above : bound < first.optionNumber := not_le.mp small
        intro option member
        rcases List.mem_cons.mp member with rfl | later
        · exact above
        · exact lt_of_lt_of_le above (isFirst option later)

theorem takeWhile_below {bound : UInt8} {options : List OCoapOption} :
    ∀ option ∈ options.takeWhile fun option => option.optionNumber ≤ bound,
      option.optionNumber ≤ bound := by
  intro option member
  have passed := List.mem_takeWhile_imp member
  exact of_decide_eq_true passed

/-! ## The division -/

theorem pkgOptions_sumsToNumbers (options : List OCoapOption) :
    SumsToNumbers 0 (pkgOptions 0 options) := by
  have renumbered := withDeltas_eq_pkgOptions 0 options
  change withDeltas 0 options = _ at renumbered
  rw [← renumbered]
  exact withDeltas_sumsToNumbers 0 options

theorem euOptionsExtract_isDivision {options : List OCoapOption}
    (numbered : Numbered 0 options) :
    IsDivision options (euOptionsExtract 0 0 0 options).eOptions
      (euOptionsExtract 0 0 0 options).uOptions := by
  obtain ⟨isE, isU⟩ := euOptionsExtract_eq numbered 0 0
  rw [isE, isU]
  refine
    ⟨pkgOptions_content 0 _, pkgOptions_content 0 _, ?_,
      pkgOptions_sumsToNumbers _, pkgOptions_sumsToNumbers _⟩
  rw [List.map_append, pkgOptions_content, pkgOptions_content,
    ← List.map_append]
  exact (List.filter_append_perm _ options).map _

/-! ## The outer packet -/

theorem pkgOptions_isOuterList {uOptions : List OCoapOption}
    {oscore : OCoapOption} (isOscore : oscore.optionNumber = coapOptionOscore)
    (ascending :
      uOptions.Pairwise fun option later =>
        option.optionNumber ≤ later.optionNumber) :
    IsOuterList uOptions oscore
      (pkgOptions 0
        ((uOptions.takeWhile fun option =>
            option.optionNumber ≤ coapOptionOscore) ++
          oscore ::
            uOptions.dropWhile fun option =>
              option.optionNumber ≤ coapOptionOscore)) := by
  have below := @takeWhile_below coapOptionOscore uOptions
  have above := @dropWhile_above coapOptionOscore uOptions ascending
  have split :=
    List.takeWhile_append_dropWhile
      (p := fun option : OCoapOption =>
        decide (option.optionNumber ≤ coapOptionOscore)) (l := uOptions)
  generalize
    (uOptions.takeWhile fun option =>
      option.optionNumber ≤ coapOptionOscore) = before at below split ⊢
  generalize
    (uOptions.dropWhile fun option =>
      option.optionNumber ≤ coapOptionOscore) = after at above split ⊢
  subst split
  obtain ⟨beforeAscending, afterAscending, _⟩ :=
    List.pairwise_append.mp ascending
  have contents := pkgOptions_content 0 (before ++ oscore :: after)
  refine
    ⟨⟨before, after, rfl, ?_, below, above⟩, ?_,
      pkgOptions_sumsToNumbers _, ?_⟩
  · rw [contents, List.map_append, List.map_cons]
  · apply ascending_of_content contents
    refine
      List.pairwise_append.mpr
        ⟨beforeAscending, List.pairwise_cons.mpr ⟨?_, afterAscending⟩, ?_⟩
    · intro later isLater
      rw [isOscore]
      exact le_of_lt (above later isLater)
    · intro option isBefore later member
      have low := below option isBefore
      rcases List.mem_cons.mp member with rfl | isLater
      · rw [isOscore]
        exact low
      · exact le_of_lt (lt_of_le_of_lt low (above later isLater))
  · have lengths := congrArg List.length contents
    rw [List.length_map, List.length_map] at lengths
    rw [lengths, List.length_append, List.length_append, List.length_cons,
      Nat.add_assoc]

/-- The options of a parsed packet are divided, and with the OSCORE option the
outer ones become the options of the outer packet. -/
theorem options_divided_assembled (packet : OCoapPacket)
    (options : List OCoapOption) (ciphertext value : Bytes)
    (numbered : Numbered 0 options)
    (few : options.length ≤ maxOptionCount - 1)
    (ascending :
      options.Pairwise fun option later =>
        option.optionNumber ≤ later.optionNumber) :
    IsDivision options (euOptionsExtract 0 0 0 options).eOptions
        (euOptionsExtract 0 0 0 options).uOptions ∧
      ∃ oscorePacket outer,
        oscorePkgGenerate packet (euOptionsExtract 0 0 0 options).uOptions
            ciphertext (oscoreOption value) = .ok oscorePacket ∧
          oscorePacket.options = some outer ∧
          IsOuterList (euOptionsExtract 0 0 0 options).uOptions
            (oscoreOption value) outer := by
  have divided := euOptionsExtract_isDivision numbered
  have uAscending :=
    ascending_of_content divided.uContents (ascending.filter _)
  have uFew :
      (euOptionsExtract 0 0 0 options).uOptions.length ≤ options.length := by
    have lengths := congrArg List.length divided.uContents
    rw [List.length_map, List.length_map] at lengths
    rw [lengths]
    exact List.length_filter_le _ _
  have room :
      ¬ maxOptionCount <
        (euOptionsExtract 0 0 0 options).uOptions.length + 1 := by
    unfold maxOptionCount at few ⊢
    omega
  refine ⟨divided, ?_⟩
  unfold oscorePkgGenerate
  rw [if_neg room]
  exact ⟨_, _, rfl, rfl, pkgOptions_isOuterList rfl uAscending⟩

/-- A Uri-Host, two Uri-Path options and a Proxy-Scheme. -/
theorem options_divided_assembled_proxy :
    ∃ oscorePacket outer,
      oscorePkgGenerate t1Packet
          (euOptionsExtract 0 0 0
            [⟨3, 1, [0x61], 3⟩, ⟨8, 1, [0x62], 11⟩, ⟨0, 1, [0x63], 11⟩,
              ⟨28, 1, [0x64], 39⟩]).uOptions
          [0] (oscoreOption [9, 0]) = .ok oscorePacket ∧
        oscorePacket.options = some outer ∧
        IsOuterList [⟨3, 1, [0x61], 3⟩, ⟨36, 1, [0x64], 39⟩]
          (oscoreOption [9, 0]) outer :=
  (options_divided_assembled t1Packet
      [⟨3, 1, [0x61], 3⟩, ⟨8, 1, [0x62], 11⟩, ⟨0, 1, [0x63], 11⟩,
        ⟨28, 1, [0x64], 39⟩]
      [0] [9, 0] ⟨rfl, rfl, rfl, rfl, trivial⟩ (by decide) (by decide)).2

end UoscoreUedhoc.Oscore
