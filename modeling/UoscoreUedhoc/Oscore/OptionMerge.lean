import UoscoreUedhoc.Lib.CursorMerge
import UoscoreUedhoc.Oscore.Oscore2Coap
import UoscoreUedhoc.Oscore.OuterPacket

/-!
# Merging inner and outer options

`options_from_oscore_reorder` as a merge with two cursors.  The cursor on the
outer options does not get over the OSCORE option, whose number is not among
those that are merged, so the outer options behind it are lost.
-/

namespace UoscoreUedhoc.Oscore

open UoscoreUedhoc
open UoscoreUedhoc.CursorMerge

/-! ## The merge loop -/

/-- Options with new deltas, behind those with the delta sum `deltaSum`. -/
def withDeltas : UInt16 → List OCoapOption → List OCoapOption
  | _, [] => []
  | deltaSum, option :: options =>
      let delta := option.optionNumber.toUInt16 - deltaSum
      { option with delta } :: withDeltas (deltaSum + delta) options

theorem mergeOptions_eq (numbers : List UInt8) (outer inner : List OCoapOption)
    (deltaSum : UInt16) :
    mergeOptions numbers outer inner deltaSum =
      match cursorMerge OCoapOption.optionNumber numbers outer inner with
      | some merged => .ok (withDeltas deltaSum merged)
      | none => undefinedBehaviour := by
  induction numbers generalizing outer inner deltaSum with
  | nil =>
      rfl
  | cons number numbers inductionHypothesis =>
      cases outer with
      | nil =>
          rw [cursorMerge_left_end]
          rfl
      | cons left lefts =>
          by_cases isLeft : number = left.optionNumber
          · subst isLeft
            have step :
                mergeOptions (left.optionNumber :: numbers) (left :: lefts)
                    inner deltaSum = (do
                  let delta := left.optionNumber.toUInt16 - deltaSum
                  let rest ←
                    mergeOptions numbers lefts inner (deltaSum + delta)
                  .ok ({ left with delta } :: rest)) := by
              cases inner with
              | nil =>
                  rw [mergeOptions, if_pos rfl]
              | cons right rights =>
                  rw [mergeOptions, if_pos rfl]
            rw [step, cursorMerge_left]
            dsimp only
            rw [inductionHypothesis]
            cases cursorMerge OCoapOption.optionNumber numbers lefts inner with
            | none =>
                rfl
            | some merged =>
                rfl
          · cases inner with
            | nil =>
                rw [mergeOptions, if_neg isLeft, cursorMerge_right_end isLeft]
            | cons right rights =>
                rw [mergeOptions, if_neg isLeft]
                dsimp only
                by_cases isRight : number = right.optionNumber
                · subst isRight
                  rw [if_pos rfl, cursorMerge_right _ isLeft,
                    inductionHypothesis]
                  cases
                    cursorMerge OCoapOption.optionNumber numbers
                      (left :: lefts) rights with
                  | none =>
                      rfl
                  | some merged =>
                      rfl
                · rw [if_neg isRight, cursorMerge_skip _ isLeft isRight]
                  exact inductionHypothesis _ _ _

/-- The deltas sum to the option numbers. -/
def SumsToNumbers : UInt16 → List OCoapOption → Prop
  | _, [] => True
  | deltaSum, option :: options =>
      deltaSum + option.delta = option.optionNumber.toUInt16 ∧
        SumsToNumbers (deltaSum + option.delta) options

theorem withDeltas_sumsToNumbers (deltaSum : UInt16)
    (options : List OCoapOption) :
    SumsToNumbers deltaSum (withDeltas deltaSum options) := by
  induction options generalizing deltaSum with
  | nil =>
      trivial
  | cons option options inductionHypothesis =>
      refine ⟨?_, inductionHypothesis _⟩
      rw [UInt16.add_comm, UInt16.sub_add_cancel]

theorem withDeltas_content (deltaSum : UInt16) (options : List OCoapOption) :
    (withDeltas deltaSum options).map OCoapOption.content =
      options.map OCoapOption.content := by
  induction options generalizing deltaSum with
  | nil =>
      rfl
  | cons option options inductionHypothesis =>
      rw [withDeltas, List.map_cons, List.map_cons, inductionHypothesis]
      rfl

theorem map_optionNumber (options : List OCoapOption) :
    (options.map OCoapOption.content).map OptionContent.number =
      options.map OCoapOption.optionNumber := by
  rw [List.map_map]
  rfl

/-! ## The numbers that are merged -/

/-- The numbers of all options but the OSCORE options. -/
def mergedNumbers (outer inner : List OCoapOption) : List UInt8 :=
  ((outer.map OCoapOption.optionNumber).filter (· ≠ coapOptionOscore)) ++
    inner.map OCoapOption.optionNumber

theorem mergedNumbers_eq (outer inner : List OCoapOption) :
    mergedNumbers outer inner =
      (outer.filter fun option =>
          option.optionNumber ≠ coapOptionOscore).map
            OCoapOption.optionNumber ++
        inner.map OCoapOption.optionNumber := by
  unfold mergedNumbers
  rw [List.filter_map]
  rfl

theorem mergedNumbers_length_lt {outer : List OCoapOption}
    (inner : List OCoapOption) {oscore : OCoapOption}
    (member : oscore ∈ outer) (isOscore : oscore.optionNumber = 9) :
    (mergedNumbers outer inner).length < outer.length + inner.length := by
  have dropped :
      (outer.filter fun option =>
        option.optionNumber ≠ coapOptionOscore).length < outer.length := by
    apply List.length_filter_lt_length_iff_exists.mpr
    exact ⟨oscore, member, by simp [isOscore, coapOptionOscore]⟩
  rw [mergedNumbers_eq, List.length_append, List.length_map, List.length_map]
  omega

/-- The sorted array: the merged numbers, and zeros for the OSCORE options
behind the first. -/
theorem reorderNumbers_eq {outer : List OCoapOption}
    (inner : List OCoapOption) {oscore : OCoapOption}
    (member : oscore ∈ outer) (isOscore : oscore.optionNumber = 9) :
    reorderNumbers outer inner (outer.length + inner.length - 1) =
      mergedNumbers outer inner ++
        List.replicate
          (outer.length + inner.length - 1 -
            (mergedNumbers outer inner).length) 0 := by
  have fits := mergedNumbers_length_lt inner member isOscore
  change
    (mergedNumbers outer inner ++ List.replicate _ 0).take _ = _
  rw [List.take_append, List.take_of_length_le (by omega),
    List.take_replicate, Nat.min_eq_left (Nat.sub_le _ _)]

/-- The count of `options_from_oscore_reorder`, which leaves out one OSCORE
option. -/
theorem mergedCount_toNat {outer inner : List OCoapOption}
    (positive : 0 < outer.length)
    (few : outer.length + inner.length < 256) :
    (UInt8.ofNat (outer.length + inner.length) - 1).toNat =
      outer.length + inner.length - 1 := by
  have small :
      (UInt8.ofNat (outer.length + inner.length)).toNat =
        outer.length + inner.length :=
    UInt8.toNat_ofNat_of_lt' few
  have one : (1 : UInt8) ≤ UInt8.ofNat (outer.length + inner.length) := by
    rw [UInt8.le_iff_toNat_le, small]
    change 1 ≤ _
    omega
  rw [UInt8.toNat_sub_of_le _ _ one, small]
  rfl

/-- With an outer option and few options the loop merges with two cursors. -/
theorem optionsFromOscoreReorder_eq_ok {outer inner merged : List OCoapOption}
    (positive : 0 < outer.length)
    (few : outer.length + inner.length < 256) :
    optionsFromOscoreReorder outer inner = .ok merged ↔
      outer.length + inner.length - 1 ≤ maxOptionCount ∧
        ∃ options,
          cursorMerge OCoapOption.optionNumber
              (ExchangeSort.exchangeSort
                (reorderNumbers outer inner
                  (outer.length + inner.length - 1)))
              outer inner = some options ∧
            merged = withDeltas 0 options := by
  have countIs := mergedCount_toNat positive few
  unfold optionsFromOscoreReorder
  dsimp only
  by_cases some : 0 < outer.length + inner.length - 1
  · have counted :
        0 < UInt8.ofNat (outer.length + inner.length) - 1 := by
      rw [UInt8.lt_iff_toNat_lt, countIs]
      exact some
    rw [if_pos counted, outcome_bind_eq_ok, countIs, mergeOptions_eq]
    simp only [checkBufferSize_eq_ok, exists_const]
    apply and_congr_right
    intro _
    cases
      cursorMerge OCoapOption.optionNumber
        (ExchangeSort.exchangeSort
          (reorderNumbers outer inner (outer.length + inner.length - 1)))
        outer inner with
    | none =>
        simp [undefinedBehaviour]
    | some options =>
        simp [eq_comm]
  · have none : outer.length + inner.length - 1 = 0 := by omega
    have notCounted :
        ¬ 0 < UInt8.ofNat (outer.length + inner.length) - 1 := by
      rw [UInt8.lt_iff_toNat_lt, countIs]
      exact some
    rw [if_neg notCounted, none]
    have empty :
        ExchangeSort.exchangeSort (reorderNumbers outer inner 0) = [] := by
      unfold reorderNumbers
      rfl
    rw [empty, cursorMerge]
    constructor
    · intro merged
      cases merged
      exact ⟨Nat.zero_le _, [], rfl, rfl⟩
    · intro described
      obtain ⟨_, options, isEmpty, rfl⟩ := described
      cases isEmpty
      rfl

/-! ## Ascending lists -/

/-- The options of two lists in ascending order, each once and in the order it
had in its list, with deltas that sum to the numbers. -/
structure IsAscendingMerge (merged left right : List OCoapOption) : Prop where
  count : merged.length = left.length + right.length
  perm :
    (merged.map OCoapOption.content).Perm
      ((left ++ right).map OCoapOption.content)
  ascending :
    merged.Pairwise fun option later =>
      option.optionNumber ≤ later.optionNumber
  leftOrder :
    (left.map OCoapOption.content).Sublist (merged.map OCoapOption.content)
  rightOrder :
    (right.map OCoapOption.content).Sublist (merged.map OCoapOption.content)
  deltas : SumsToNumbers 0 merged

theorem withDeltas_pairwise {deltaSum : UInt16} {options : List OCoapOption}
    (ascending :
      options.Pairwise fun option later =>
        option.optionNumber ≤ later.optionNumber) :
    (withDeltas deltaSum options).Pairwise fun option later =>
      option.optionNumber ≤ later.optionNumber := by
  have numbers :
      (withDeltas deltaSum options).map OCoapOption.optionNumber =
        options.map OCoapOption.optionNumber := by
    rw [← map_optionNumber, withDeltas_content, map_optionNumber]
  rw [← List.pairwise_map (f := OCoapOption.optionNumber)] at ascending ⊢
  rwa [numbers]

theorem withDeltas_merge {left right : List OCoapOption}
    (leftAscending :
      left.Pairwise fun option later =>
        option.optionNumber ≤ later.optionNumber)
    (rightAscending :
      right.Pairwise fun option later =>
        option.optionNumber ≤ later.optionNumber) :
    IsAscendingMerge
      (withDeltas 0 (mergeByKey OCoapOption.optionNumber left right)) left
      right := by
  have orders :=
    @sublist_mergeByKey _ _ _ OCoapOption.optionNumber left right
  refine ⟨?_, ?_, ?_, ?_, ?_, withDeltas_sumsToNumbers 0 _⟩
  · have contents :=
      congrArg List.length
        (withDeltas_content 0
          (mergeByKey OCoapOption.optionNumber left right))
    rw [List.length_map, List.length_map, mergeByKey_length] at contents
    exact contents
  · rw [withDeltas_content]
    exact (mergeByKey_perm left right).map _
  · exact withDeltas_pairwise (mergeByKey_sorted leftAscending rightAscending)
  · rw [withDeltas_content]
    exact orders.1.map _
  · rw [withDeltas_content]
    exact orders.2.map _

/-- A list with one OSCORE option, split there. -/
theorem split_at_oscore {outer : List OCoapOption}
    (once :
      (outer.filter fun option =>
        option.optionNumber = coapOptionOscore).length = 1) :
    ∃ before oscore behind, outer = before ++ oscore :: behind ∧
      oscore.optionNumber = coapOptionOscore ∧
      (∀ option ∈ before ++ behind,
        option.optionNumber ≠ coapOptionOscore) ∧
      (outer.filter fun option => option.optionNumber ≠ coapOptionOscore) =
        before ++ behind := by
  obtain ⟨oscore, isOne⟩ := List.length_eq_one_iff.mp once
  have member :
      oscore ∈
        outer.filter fun option => option.optionNumber = coapOptionOscore := by
    rw [isOne]
    exact List.mem_singleton_self oscore
  obtain ⟨inOuter, isOscore⟩ := List.mem_filter.mp member
  obtain ⟨before, behind, rfl⟩ := List.append_of_mem inOuter
  have others :
      ∀ option ∈ before ++ behind,
        option.optionNumber ≠ coapOptionOscore := by
    have lengths := congrArg List.length isOne
    rw [List.filter_append, List.filter_cons_of_pos (by exact isOscore),
      List.length_append, List.length_cons, List.length_singleton] at lengths
    have noneBefore := List.eq_nil_of_length_eq_zero
      (show (before.filter fun option =>
        option.optionNumber = coapOptionOscore).length = 0 by omega)
    have noneBehind := List.eq_nil_of_length_eq_zero
      (show (behind.filter fun option =>
        option.optionNumber = coapOptionOscore).length = 0 by omega)
    intro option isOther same
    rcases List.mem_append.mp isOther with inBefore | inBehind
    · exact
        List.filter_eq_nil_iff.mp noneBefore option inBefore
          (decide_eq_true same)
    · exact
        List.filter_eq_nil_iff.mp noneBehind option inBehind
          (decide_eq_true same)
  have kept : ∀ entries : List OCoapOption,
      (∀ option ∈ entries, option ∈ before ++ behind) →
        (entries.filter fun option =>
          option.optionNumber ≠ coapOptionOscore) = entries := by
    intro entries inside
    apply List.filter_eq_self.mpr
    intro option isEntry
    exact decide_eq_true (others option (inside option isEntry))
  refine
    ⟨before, oscore, behind, rfl, of_decide_eq_true isOscore, others, ?_⟩
  rw [List.filter_append, List.filter_cons_of_neg (by simpa using isOscore),
    kept before fun option isEntry => List.mem_append_left _ isEntry,
    kept behind fun option isEntry => List.mem_append_right _ isEntry]

section OneOscoreOption

variable {before behind inner : List OCoapOption} {oscore : OCoapOption}

/-- With one OSCORE option the sorted numbers are those of the others. -/
theorem sortedNumbers_perm (isOscore : oscore.optionNumber = coapOptionOscore)
    (kept :
      ((before ++ oscore :: behind).filter fun option =>
        option.optionNumber ≠ coapOptionOscore) = before ++ behind) :
    (ExchangeSort.exchangeSort
      (reorderNumbers (before ++ oscore :: behind) inner
        ((before ++ oscore :: behind).length + inner.length - 1))).Perm
      ((before ++ behind).map OCoapOption.optionNumber ++
        inner.map OCoapOption.optionNumber) := by
  refine (ExchangeSort.exchangeSort_perm _).trans ?_
  have member : oscore ∈ before ++ oscore :: behind :=
    List.mem_append_right _ List.mem_cons_self
  have length :
      ((before ++ behind).map OCoapOption.optionNumber ++
          inner.map OCoapOption.optionNumber).length =
        (before ++ oscore :: behind).length + inner.length - 1 := by
    simp only [List.length_append, List.length_map, List.length_cons]
    omega
  rw [reorderNumbers_eq inner member isOscore, mergedNumbers_eq, kept, length,
    Nat.sub_self, List.replicate_zero, List.append_nil]

/-- Its own number is not among them. -/
theorem oscore_blocks {numbers : List UInt8}
    (isOscore : oscore.optionNumber = coapOptionOscore)
    (others :
      ∀ option ∈ before ++ behind, option.optionNumber ≠ coapOptionOscore)
    (innerClass :
      ∀ option ∈ inner, isClassE option.optionNumber.toUInt16 = true)
    (perm :
      numbers.Perm
        ((before ++ behind).map OCoapOption.optionNumber ++
          inner.map OCoapOption.optionNumber)) :
    Blocks OCoapOption.optionNumber numbers before (oscore :: behind) := by
  intro stopped first inNumbers
  cases first
  rcases List.mem_append.mp (perm.mem_iff.mp inNumbers) with inOuter | inInner
  · obtain ⟨option, isOther, same⟩ := List.mem_map.mp inOuter
    exact absurd (same.trans isOscore) (others option isOther)
  · obtain ⟨option, isInner, same⟩ := List.mem_map.mp inInner
    have classE := innerClass option isInner
    rw [same, isOscore] at classE
    cases classE

end OneOscoreOption

/-- With the OSCORE option behind the other outer options, all are merged. -/
theorem optionsFromOscoreReorder_last {before inner : List OCoapOption}
    {oscore : OCoapOption} (isOscore : oscore.optionNumber = coapOptionOscore)
    (others : ∀ option ∈ before, option.optionNumber ≠ coapOptionOscore)
    (beforeAscending :
      before.Pairwise fun option later =>
        option.optionNumber ≤ later.optionNumber)
    (innerAscending :
      inner.Pairwise fun option later =>
        option.optionNumber ≤ later.optionNumber)
    (innerClass :
      ∀ option ∈ inner, isClassE option.optionNumber.toUInt16 = true)
    (size : before.length + inner.length ≤ maxOptionCount) :
    optionsFromOscoreReorder (before ++ [oscore]) inner =
      .ok
        (withDeltas 0 (mergeByKey OCoapOption.optionNumber before inner)) := by
  have length :
      (before ++ [oscore]).length + inner.length - 1 =
        before.length + inner.length := by
    rw [List.length_append, List.length_singleton]
    omega
  have few : (before ++ [oscore]).length + inner.length < 256 := by
    unfold maxOptionCount at size
    rw [List.length_append, List.length_singleton]
    omega
  have kept :
      ((before ++ [oscore]).filter fun option =>
        option.optionNumber ≠ coapOptionOscore) = before ++ [] := by
    rw [List.filter_append, List.filter_cons_of_neg (by simpa using isOscore),
      List.filter_nil]
    congr 1
    apply List.filter_eq_self.mpr
    intro option member
    exact decide_eq_true (others option member)
  have perm := @sortedNumbers_perm before [] inner oscore isOscore kept
  have sorted :=
    ExchangeSort.exchangeSort_sorted
      (reorderNumbers (before ++ [oscore]) inner
        ((before ++ [oscore]).length + inner.length - 1))
  have blocks :=
    oscore_blocks isOscore
      (fun option member => others option (by simpa using member))
      innerClass perm
  rw [List.append_nil] at perm
  rw [optionsFromOscoreReorder_eq_ok (by simp) few]
  exact
    ⟨by omega, _,
      cursorMerge_total OCoapOption.optionNumber sorted beforeAscending
        innerAscending perm blocks,
      rfl⟩

/-- The merge is complete exactly when no outer option follows the OSCORE
option. -/
theorem optionsFromOscoreReorder_merges_iff (outer inner : List OCoapOption)
    (outerAscending :
      outer.Pairwise fun option later =>
        option.optionNumber ≤ later.optionNumber)
    (once :
      (outer.filter fun option =>
        option.optionNumber = coapOptionOscore).length = 1)
    (innerAscending :
      inner.Pairwise fun option later =>
        option.optionNumber ≤ later.optionNumber)
    (innerClass :
      ∀ option ∈ inner, isClassE option.optionNumber.toUInt16 = true)
    (size : outer.length + inner.length ≤ maxOptionCount) :
    (∃ merged, optionsFromOscoreReorder outer inner = .ok merged ∧
        IsAscendingMerge merged
          (outer.filter fun option =>
            option.optionNumber ≠ coapOptionOscore) inner) ↔
      ∀ option ∈ outer, option.optionNumber ≤ coapOptionOscore := by
  obtain ⟨before, oscore, behind, rfl, isOscore, others, kept⟩ :=
    split_at_oscore once
  have member : oscore ∈ before ++ oscore :: behind :=
    List.mem_append_right _ List.mem_cons_self
  have few : (before ++ oscore :: behind).length + inner.length < 256 := by
    unfold maxOptionCount at size
    omega
  have perm := @sortedNumbers_perm before behind inner oscore isOscore kept
  have sorted :=
    ExchangeSort.exchangeSort_sorted
      (reorderNumbers (before ++ oscore :: behind) inner
        ((before ++ oscore :: behind).length + inner.length - 1))
  have returned :=
    fun merged =>
      @optionsFromOscoreReorder_eq_ok _ inner merged
        (List.length_pos_of_mem member) few
  generalize
    ExchangeSort.exchangeSort
      (reorderNumbers (before ++ oscore :: behind) inner
        ((before ++ oscore :: behind).length + inner.length - 1)) = numbers
    at perm sorted returned
  have blocks := oscore_blocks isOscore others innerClass perm
  have beforeAscending := (List.pairwise_append.mp outerAscending).1
  obtain ⟨aboveOscore, _⟩ :=
    List.pairwise_cons.mp (List.pairwise_append.mp outerAscending).2.1
  constructor
  · intro merges
    obtain ⟨merged, done, isMerge⟩ := merges
    obtain ⟨_, options, merging, rfl⟩ := (returned merged).mp done
    have covers :
        Covers OCoapOption.optionNumber numbers before inner := by
      intro value
      rw [perm.count_eq, List.count_append, List.map_append,
        List.count_append]
      omega
    have innerBlocks :
        Blocks OCoapOption.optionNumber numbers inner [] := by
      intro entry first
      cases first
    have same :=
      cursorMerge_eq_some OCoapOption.optionNumber sorted beforeAscending
        innerAscending covers blocks.stops innerBlocks.stops
        (by rwa [List.append_nil])
    have counted := isMerge.count
    have contents := congrArg List.length (withDeltas_content 0 options)
    rw [List.length_map, List.length_map] at contents
    rw [contents, same, mergeByKey_length, kept, List.length_append]
      at counted
    have nothing : behind = [] := List.eq_nil_of_length_eq_zero (by omega)
    subst nothing
    intro option isOuter
    rcases List.mem_append.mp isOuter with inBefore | isLast
    · rw [← isOscore]
      exact
        (List.pairwise_append.mp outerAscending).2.2 option inBefore oscore
          List.mem_cons_self
    · rw [List.mem_singleton.mp isLast, isOscore]
  · intro last
    have nothing : behind = [] := by
      apply List.eq_nil_iff_forall_not_mem.mpr
      intro option isBehind
      have above := aboveOscore option isBehind
      have below :=
        last option
          (List.mem_append_right _ (List.mem_cons_of_mem _ isBehind))
      rw [isOscore] at above
      exact
        others option (List.mem_append_right _ isBehind)
          (UInt8.le_antisymm below above)
    subst nothing
    rw [List.append_nil] at kept
    refine
      ⟨_,
        optionsFromOscoreReorder_last isOscore
          (fun option isBefore =>
            others option (List.mem_append_left _ isBefore))
          beforeAscending innerAscending innerClass ?_, ?_⟩
    · rw [List.length_append, List.length_singleton] at size
      omega
    · rw [kept]
      exact withDeltas_merge beforeAscending innerAscending

/-- An option with the number `number` and a value of one byte. -/
def byteOption (number byte : UInt8) : OCoapOption where
  delta := number.toUInt16
  len := 1
  value := [byte]
  optionNumber := number

/-- A Uri-Host option and the OSCORE option around a Uri-Path option. -/
theorem optionsFromOscoreReorder_merges_uriHost :
    ∃ merged,
      optionsFromOscoreReorder [byteOption 3 0x61, byteOption 9 0]
          [byteOption 11 0x62] = .ok merged ∧
        IsAscendingMerge merged
          ([byteOption 3 0x61, byteOption 9 0].filter fun option =>
            option.optionNumber ≠ coapOptionOscore)
          [byteOption 11 0x62] :=
  (optionsFromOscoreReorder_merges_iff [byteOption 3 0x61, byteOption 9 0]
      [byteOption 11 0x62] (by decide) (by decide) (by decide) (by decide)
      (by decide)).mpr
    (by decide)

/-- A Proxy-Uri option behind the OSCORE option is lost. -/
theorem proxyUri_lost :
    ¬ ∀ outer inner : List OCoapOption,
      (outer.Pairwise fun option later =>
        option.optionNumber ≤ later.optionNumber) →
      (∀ option ∈ outer, isClassE option.optionNumber.toUInt16 = false) →
      (outer.filter fun option =>
        option.optionNumber = coapOptionOscore).length = 1 →
      (inner.Pairwise fun option later =>
        option.optionNumber ≤ later.optionNumber) →
      (∀ option ∈ inner, isClassE option.optionNumber.toUInt16 = true) →
      outer.length + inner.length ≤ maxOptionCount →
      ∃ merged, optionsFromOscoreReorder outer inner = .ok merged ∧
        IsAscendingMerge merged
          (outer.filter fun option =>
            option.optionNumber ≠ coapOptionOscore) inner := by
  intro merges
  obtain ⟨merged, done, isMerge⟩ :=
    merges [byteOption 9 0, byteOption 35 0x61] [byteOption 60 0x62]
      (by decide) (by decide) (by decide) (by decide) (by decide) (by decide)
  have lost :
      optionsFromOscoreReorder [byteOption 9 0, byteOption 35 0x61]
          [byteOption 60 0x62] = .ok [byteOption 60 0x62] :=
    rfl
  rw [lost, Except.ok.injEq] at done
  subst done
  exact absurd isMerge.count (by decide)

end UoscoreUedhoc.Oscore
