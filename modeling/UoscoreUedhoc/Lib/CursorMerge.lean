import Mathlib.Data.List.Sort
import Mathlib.Order.Basic

/-!
# Merging with two cursors

The loop that goes through sorted keys and copies for each key the entry at the
first cursor that has it, else the one at the second.  A cursor that meets an
entry without a key of its own stays there, so that only the entries in front of
it are merged.
-/

namespace UoscoreUedhoc.CursorMerge

variable {α κ : Type} [LinearOrder κ] (key : α → κ)

/-- The loop; `none` where it compares an entry behind the end of a list. -/
def cursorMerge : List κ → List α → List α → Option (List α)
  | [], _, _ => some []
  | _ :: _, [], _ => none
  | next :: keys, left :: lefts, rights =>
      if next = key left then
        (cursorMerge keys lefts rights).map (left :: ·)
      else
        match rights with
        | [] => none
        | right :: others =>
            if next = key right then
              (cursorMerge keys (left :: lefts) others).map (right :: ·)
            else
              cursorMerge keys (left :: lefts) rights

section Steps

variable {key} {keys : List κ} {next : κ} {left : α} {lefts : List α}

theorem cursorMerge_left (rights : List α) :
    cursorMerge key (key left :: keys) (left :: lefts) rights =
      (cursorMerge key keys lefts rights).map (left :: ·) := by
  cases rights with
  | nil =>
      rw [cursorMerge, if_pos rfl]
  | cons right rights =>
      rw [cursorMerge, if_pos rfl]

theorem cursorMerge_right {right : α} (rights : List α)
    (differs : key right ≠ key left) :
    cursorMerge key (key right :: keys) (left :: lefts) (right :: rights) =
      (cursorMerge key keys (left :: lefts) rights).map (right :: ·) := by
  rw [cursorMerge, if_neg differs, if_pos rfl]

theorem cursorMerge_skip {right : α} (rights : List α)
    (notLeft : next ≠ key left) (notRight : next ≠ key right) :
    cursorMerge key (next :: keys) (left :: lefts) (right :: rights) =
      cursorMerge key keys (left :: lefts) (right :: rights) := by
  rw [cursorMerge, if_neg notLeft, if_neg notRight]

theorem cursorMerge_left_end (rights : List α) :
    cursorMerge key (next :: keys) [] rights = none := by
  cases rights with
  | nil =>
      rfl
  | cons right rights =>
      rfl

theorem cursorMerge_right_end (notLeft : next ≠ key left) :
    cursorMerge key (next :: keys) (left :: lefts) [] = none := by
  rw [cursorMerge, if_neg notLeft]

end Steps

/-- The merge of two lists by their keys, where entries of the left list come
first among those with one key. -/
def mergeByKey (left right : List α) : List α :=
  left.merge right fun first second => decide (key first ≤ key second)

/-! ## Merges by key -/

section MergeByKey

variable {key} {left right : List α}

theorem mergeByKey_cons_left {first : α}
    (least : ∀ other ∈ right, key first ≤ key other) :
    mergeByKey key (first :: left) right =
      first :: mergeByKey key left right := by
  unfold mergeByKey
  cases right with
  | nil =>
      rw [List.merge_right, List.merge_right]
  | cons second right =>
      apply List.cons_merge_cons_pos
      exact decide_eq_true (least second List.mem_cons_self)

theorem mergeByKey_cons_right {second : α}
    (least : ∀ other ∈ left, key second < key other) :
    mergeByKey key left (second :: right) =
      second :: mergeByKey key left right := by
  unfold mergeByKey
  cases left with
  | nil =>
      rw [List.nil_merge, List.nil_merge]
  | cons first left =>
      apply List.cons_merge_cons_neg
      have after := least first List.mem_cons_self
      rw [decide_eq_true_eq]
      exact not_le.mpr after

theorem mergeByKey_perm (left right : List α) :
    (mergeByKey key left right).Perm (left ++ right) :=
  List.merge_perm_append _

theorem mergeByKey_length (left right : List α) :
    (mergeByKey key left right).length = left.length + right.length := by
  rw [(mergeByKey_perm left right).length_eq, List.length_append]

theorem mergeByKey_map {β : Type} (content : β → α) (left right : List β) :
    (mergeByKey (fun entry => key (content entry)) left right).map content =
      mergeByKey key (left.map content) (right.map content) := by
  unfold mergeByKey
  apply List.map_merge
  intro first _ second _
  rfl

theorem mergeByKey_sorted
    (leftSorted : left.Pairwise fun first later => key first ≤ key later)
    (rightSorted : right.Pairwise fun first later => key first ≤ key later) :
    (mergeByKey key left right).Pairwise fun first later =>
      key first ≤ key later := by
  have merged :=
    @List.pairwise_merge _ (fun first later => decide (key first ≤ key later))
      (by
        intro first second third firstLe secondLe
        rw [decide_eq_true_eq] at firstLe secondLe ⊢
        exact le_trans firstLe secondLe)
      (by
        intro first second
        rw [Bool.or_eq_true, decide_eq_true_eq, decide_eq_true_eq]
        exact le_total _ _)
      left right (by simpa only [decide_eq_true_eq] using leftSorted)
      (by simpa only [decide_eq_true_eq] using rightSorted)
  simp only [decide_eq_true_eq] at merged
  exact merged

/-- A merge keeps the order within each of its lists. -/
theorem sublist_mergeByKey (left right : List α) :
    List.Sublist left (mergeByKey key left right) ∧
      List.Sublist right (mergeByKey key left right) := by
  induction left generalizing right with
  | nil =>
      unfold mergeByKey
      rw [List.nil_merge]
      exact ⟨List.nil_sublist right, List.Sublist.refl right⟩
  | cons first left leftHypothesis =>
      induction right with
      | nil =>
          unfold mergeByKey
          rw [List.merge_right]
          exact ⟨List.Sublist.refl _, List.nil_sublist _⟩
      | cons second right rightHypothesis =>
          by_cases inOrder : key first ≤ key second
          · have step :
                mergeByKey key (first :: left) (second :: right) =
                  first :: mergeByKey key left (second :: right) :=
              List.cons_merge_cons_pos _ _ _ (decide_eq_true inOrder)
            obtain ⟨inLeft, inRight⟩ := leftHypothesis (second :: right)
            rw [step]
            exact ⟨inLeft.cons_cons first, inRight.cons first⟩
          · have step :
                mergeByKey key (first :: left) (second :: right) =
                  second :: mergeByKey key (first :: left) right := by
              apply List.cons_merge_cons_neg
              rw [decide_eq_true_eq]
              exact inOrder
            obtain ⟨inLeft, inRight⟩ := rightHypothesis
            rw [step]
            exact ⟨inLeft.cons second, inRight.cons_cons second⟩

end MergeByKey

/-! ## Entries with one key -/

/-- The entries with one key. -/
def withKey (value : κ) (entries : List α) : List α :=
  entries.filter fun entry => key entry = value

section WithKey

variable {value : κ} {entry : α} {entries : List α}

theorem withKey_cons_pos (same : key entry = value) :
    withKey key value (entry :: entries) =
      entry :: withKey key value entries :=
  List.filter_cons_of_pos (decide_eq_true same)

theorem withKey_cons_neg (differs : key entry ≠ value) :
    withKey key value (entry :: entries) = withKey key value entries :=
  List.filter_cons_of_neg (by simpa using differs)

theorem mem_withKey :
    entry ∈ withKey key value entries ↔ entry ∈ entries ∧ key entry = value := by
  unfold withKey
  rw [List.mem_filter, decide_eq_true_eq]

theorem withKey_eq_nil (differs : ∀ entry ∈ entries, key entry ≠ value) :
    withKey key value entries = [] := by
  apply List.eq_nil_iff_forall_not_mem.mpr
  intro entry member
  obtain ⟨isEntry, same⟩ := (mem_withKey key).mp member
  exact differs entry isEntry same

end WithKey

/-- A merge is stable: the entries with one key are those of the left list and
then those of the right one. -/
theorem withKey_mergeByKey {left right : List α}
    (leftSorted : left.Pairwise fun first later => key first ≤ key later)
    (value : κ) :
    withKey key value (mergeByKey key left right) =
      withKey key value left ++ withKey key value right := by
  induction left generalizing right with
  | nil =>
      unfold mergeByKey
      rw [List.nil_merge]
      rfl
  | cons first left leftHypothesis =>
      obtain ⟨least, sortedRest⟩ := List.pairwise_cons.mp leftSorted
      induction right with
      | nil =>
          unfold mergeByKey
          rw [List.merge_right]
          exact (List.append_nil _).symm
      | cons second right rightHypothesis =>
          by_cases inOrder : key first ≤ key second
          · have step :
                mergeByKey key (first :: left) (second :: right) =
                  first :: mergeByKey key left (second :: right) :=
              List.cons_merge_cons_pos _ _ _ (decide_eq_true inOrder)
            have rest := @leftHypothesis (second :: right) sortedRest
            rw [step]
            by_cases hit : key first = value
            · rw [withKey_cons_pos key hit, withKey_cons_pos key hit, rest,
                List.cons_append]
            · rw [withKey_cons_neg key hit, withKey_cons_neg key hit, rest]
          · have below : ∀ entry ∈ first :: left, key second < key entry := by
              intro entry member
              rcases List.mem_cons.mp member with rfl | later
              · exact not_le.mp inOrder
              · exact lt_of_lt_of_le (not_le.mp inOrder) (least entry later)
            rw [mergeByKey_cons_right below]
            by_cases hit : key second = value
            · have noLeft : withKey key value (first :: left) = [] := by
                apply withKey_eq_nil
                intro entry member
                rw [← hit]
                exact ne_of_gt (below entry member)
              rw [withKey_cons_pos key hit, withKey_cons_pos key hit,
                rightHypothesis, noLeft, List.nil_append, List.nil_append]
            · rw [withKey_cons_neg key hit, withKey_cons_neg key hit,
                rightHypothesis]

/-- The first of two sorted lists with the same entries for each key does not
come behind the first of the other. -/
theorem head_le_of_withKey {first second : α} {left right : List α}
    (rightSorted :
      (second :: right).Pairwise fun first later => key first ≤ key later)
    (same :
      withKey key (key first) (first :: left) =
        withKey key (key first) (second :: right)) :
    key second ≤ key first := by
  have member : first ∈ withKey key (key first) (second :: right) := by
    rw [← same]
    exact (mem_withKey key).mpr ⟨List.mem_cons_self, rfl⟩
  rcases List.mem_cons.mp ((mem_withKey key).mp member).1 with isSecond | later
  · exact le_of_eq (congrArg key isSecond.symm)
  · exact List.rel_of_pairwise_cons rightSorted later

/-- A sorted list is determined by its entries with each key. -/
theorem eq_iff_withKey_eq {left right : List α}
    (leftSorted : left.Pairwise fun first later => key first ≤ key later)
    (rightSorted : right.Pairwise fun first later => key first ≤ key later) :
    left = right ↔ ∀ value, withKey key value left = withKey key value right := by
  constructor
  · intro same value
    rw [same]
  · intro same
    induction left generalizing right with
    | nil =>
        cases right with
        | nil =>
            rfl
        | cons second right =>
            have none := same (key second)
            rw [withKey_cons_pos key rfl] at none
            cases none
    | cons first left inductionHypothesis =>
        cases right with
        | nil =>
            have none := same (key first)
            rw [withKey_cons_pos key rfl] at none
            cases none
        | cons second right =>
            have oneKey : key second = key first :=
              le_antisymm
                (head_le_of_withKey key rightSorted (same (key first)))
                (head_le_of_withKey key leftSorted (same (key second)).symm)
            have heads := same (key first)
            rw [withKey_cons_pos key rfl, withKey_cons_pos key oneKey,
              List.cons.injEq] at heads
            obtain ⟨rfl, _⟩ := heads
            rw [inductionHypothesis (List.Pairwise.of_cons leftSorted)
              (List.Pairwise.of_cons rightSorted)]
            intro value
            have tails := same value
            by_cases hit : key first = value
            · rw [withKey_cons_pos key hit, withKey_cons_pos key hit,
                List.cons.injEq] at tails
              exact tails.2
            · rw [withKey_cons_neg key hit, withKey_cons_neg key hit] at tails
              exact tails

/-- A choice of keys keeps all entries with a key or none. -/
theorem withKey_filter (chosen : κ → Bool) (value : κ) (entries : List α) :
    withKey key value (entries.filter fun entry => chosen (key entry)) =
      if chosen value then withKey key value entries else [] := by
  unfold withKey
  rw [List.filter_filter]
  cases isChosen : chosen value with
  | false =>
      apply List.filter_eq_nil_iff.mpr
      intro entry _ hit
      obtain ⟨same, kept⟩ := Bool.and_eq_true_iff.mp hit
      rw [of_decide_eq_true same, isChosen] at kept
      cases kept
  | true =>
      rw [if_pos rfl]
      apply List.filter_congr
      intro entry _
      by_cases same : key entry = value
      · rw [same, isChosen, Bool.and_true]
      · rw [decide_eq_false same, Bool.false_and]

/-- A sorted list is the merge of the two parts into which a choice of keys
divides it. -/
theorem mergeByKey_filter {entries : List α}
    (sorted : entries.Pairwise fun first later => key first ≤ key later)
    (chosen : κ → Bool) :
    mergeByKey key (entries.filter fun entry => !chosen (key entry))
        (entries.filter fun entry => chosen (key entry)) =
      entries := by
  have leftSorted := sorted.filter fun entry => !chosen (key entry)
  have rightSorted := sorted.filter fun entry => chosen (key entry)
  apply (eq_iff_withKey_eq key (mergeByKey_sorted leftSorted rightSorted)
    sorted).mpr
  intro value
  have left := withKey_filter key (fun value => !chosen value) value entries
  rw [withKey_mergeByKey key leftSorted, withKey_filter key chosen, left]
  cases chosen value with
  | false =>
      exact List.append_nil _
  | true =>
      exact List.nil_append _

/-! ## What the loop computes -/

/-- The first entry of `rest` has no key of its own behind `passed`. -/
def Blocks (keys : List κ) (passed rest : List α) : Prop :=
  ∀ entry ∈ rest.head?, key entry ∈ keys →
    ∃ other ∈ passed, key entry < key other

/-- A cursor stops at the first entry of `rest`: the key of that entry comes
before one of `passed`, or `passed` and `others` use up all its occurrences. -/
def Stops (keys : List κ) (passed others rest : List α) : Prop :=
  ∀ entry ∈ rest.head?, key entry ∈ keys →
    (∃ other ∈ passed, key entry < key other) ∨
      keys.count (key entry) ≤
        (passed.map key).count (key entry) + (others.map key).count (key entry)

/-- Each key occurs often enough for the entries that have it. -/
def Covers (keys : List κ) (left right : List α) : Prop :=
  ∀ value, (left.map key).count value + (right.map key).count value ≤
    keys.count value

section Loop

variable {key} {keys : List κ} {next : κ} {passed rest : List α}

theorem count_key_eq_zero {entries : List α}
    (without : ∀ entry ∈ entries, key entry ≠ next) :
    (entries.map key).count next = 0 := by
  apply List.count_eq_zero.mpr
  intro member
  obtain ⟨entry, isEntry, same⟩ := List.mem_map.mp member
  exact without entry isEntry same

theorem Blocks.tail (blocks : Blocks key (next :: keys) passed rest) :
    Blocks key keys passed rest := by
  intro entry first member
  exact blocks entry first (List.mem_cons_of_mem next member)

/-- A cursor stays blocked when it moves over an entry with the least key. -/
theorem Blocks.advance {entry : α}
    (blocks : Blocks key (key entry :: keys) (entry :: passed) rest)
    (least : ∀ other ∈ keys, key entry ≤ other) :
    Blocks key keys passed rest := by
  intro stopped first member
  obtain ⟨other, isPassed, smaller⟩ :=
    blocks stopped first (List.mem_cons_of_mem _ member)
  rcases List.mem_cons.mp isPassed with rfl | later
  · exact absurd smaller (not_lt.mpr (least _ member))
  · exact ⟨other, later, smaller⟩

/-- Where nothing is left in front of it, a blocked cursor does not match. -/
theorem Blocks.ne {stopped : α} {others : List α}
    (blocks : Blocks key (next :: keys) [] (stopped :: others)) :
    next ≠ key stopped := by
  intro same
  obtain ⟨other, isPassed, _⟩ :=
    blocks stopped rfl (same ▸ List.mem_cons_self)
  cases isPassed

variable {others : List α}

theorem Blocks.stops (blocks : Blocks key keys passed rest) :
    Stops key keys passed others rest := by
  intro entry first member
  exact Or.inl (blocks entry first member)

theorem Stops.tail (stops : Stops key (next :: keys) passed others rest) :
    Stops key keys passed others rest := by
  intro entry first member
  have counted := stops entry first (List.mem_cons_of_mem next member)
  rw [List.count_cons] at counted
  apply counted.imp_right
  intro usedUp
  omega

/-- A cursor stays stopped when it moves over an entry with the least key. -/
theorem Stops.advance {entry : α}
    (stops : Stops key (key entry :: keys) (entry :: passed) others rest)
    (least : ∀ other ∈ keys, key entry ≤ other) :
    Stops key keys passed others rest := by
  intro stopped first member
  rcases stops stopped first (List.mem_cons_of_mem _ member) with before |
    usedUp
  · obtain ⟨other, isPassed, smaller⟩ := before
    rcases List.mem_cons.mp isPassed with rfl | later
    · exact absurd smaller (not_lt.mpr (least _ member))
    · exact Or.inl ⟨other, later, smaller⟩
  · rw [List.map_cons, List.count_cons, List.count_cons] at usedUp
    exact Or.inr (by omega)

/-- And when the other cursor moves over one. -/
theorem Stops.advance_other {entry : α}
    (stops : Stops key (key entry :: keys) passed (entry :: others) rest) :
    Stops key keys passed others rest := by
  intro stopped first member
  have counted := stops stopped first (List.mem_cons_of_mem _ member)
  rw [List.map_cons, List.count_cons, List.count_cons] at counted
  apply counted.imp_right
  intro usedUp
  omega

/-- Where nothing is left in front of it, a stopped cursor does not match a key
that the other list does not have. -/
theorem Stops.ne {stopped : α} {behind : List α}
    (stops : Stops key (next :: keys) [] others (stopped :: behind))
    (notOther : ∀ entry ∈ others, key entry ≠ next) :
    next ≠ key stopped := by
  intro same
  subst same
  rcases stops stopped rfl List.mem_cons_self with before | usedUp
  · obtain ⟨other, isPassed, _⟩ := before
    cases isPassed
  · rw [count_key_eq_zero notOther, List.count_cons_self] at usedUp
    exact absurd usedUp (by simp)

/-- Behind the least key, a sorted list without it is above it. -/
theorem lt_of_ne_head {entries : List α}
    (sorted : entries.Pairwise fun first later => key first ≤ key later)
    (least : ∀ entry ∈ entries, next ≤ key entry)
    (differs : ∀ entry ∈ entries.head?, next ≠ key entry) :
    ∀ entry ∈ entries, next < key entry := by
  cases entries with
  | nil =>
      intro entry member
      cases member
  | cons first entries =>
      have above : next < key first :=
        lt_of_le_of_ne (least first List.mem_cons_self) (differs first rfl)
      intro entry member
      rcases List.mem_cons.mp member with rfl | later
      · exact above
      · exact lt_of_lt_of_le above (List.rel_of_pairwise_cons sorted later)

variable {left right : List α}

theorem Covers.mem_left {entry : α} (covers : Covers key keys left right)
    (member : entry ∈ left) : key entry ∈ keys := by
  have enough := covers (key entry)
  have present : 0 < (left.map key).count (key entry) :=
    List.count_pos_iff.mpr (List.mem_map_of_mem member)
  exact List.count_pos_iff.mp (by omega)

theorem Covers.mem_right {entry : α} (covers : Covers key keys left right)
    (member : entry ∈ right) : key entry ∈ keys := by
  have enough := covers (key entry)
  have present : 0 < (right.map key).count (key entry) :=
    List.count_pos_iff.mpr (List.mem_map_of_mem member)
  exact List.count_pos_iff.mp (by omega)

theorem Covers.advance_left {entry : α}
    (covers : Covers key (key entry :: keys) (entry :: left) right) :
    Covers key keys left right := by
  intro value
  have enough := covers value
  rw [List.map_cons, List.count_cons, List.count_cons] at enough
  omega

theorem Covers.advance_right {entry : α}
    (covers : Covers key (key entry :: keys) left (entry :: right)) :
    Covers key keys left right := by
  intro value
  have enough := covers value
  rw [List.map_cons, List.count_cons, List.count_cons] at enough
  omega

/-- A key that no entry has may be skipped. -/
theorem Covers.skip (covers : Covers key (next :: keys) left right)
    (notLeft : ∀ entry ∈ left, key entry ≠ next)
    (notRight : ∀ entry ∈ right, key entry ≠ next) :
    Covers key keys left right := by
  intro value
  have enough := covers value
  rw [List.count_cons] at enough
  by_cases same : next = value
  · subst same
    rw [count_key_eq_zero notLeft, count_key_eq_zero notRight]
    exact Nat.zero_le _
  · rw [if_neg (by simpa using same)] at enough
    exact enough

end Loop

/-- The loop merges what is in front of the entries at which its cursors stop. -/
theorem cursorMerge_eq_some {keys : List κ} {left leftRest right rightRest
    merged : List α} (sorted : keys.Pairwise (· ≤ ·))
    (leftSorted : left.Pairwise fun first later => key first ≤ key later)
    (rightSorted : right.Pairwise fun first later => key first ≤ key later)
    (covers : Covers key keys left right)
    (leftStops : Stops key keys left [] leftRest)
    (rightStops : Stops key keys right left rightRest)
    (done :
      cursorMerge key keys (left ++ leftRest) (right ++ rightRest) =
        some merged) :
    merged = mergeByKey key left right := by
  induction keys generalizing left right merged with
  | nil =>
      have noLeft : left = [] :=
        List.eq_nil_iff_forall_not_mem.mpr fun entry member =>
          List.not_mem_nil (covers.mem_left member)
      have noRight : right = [] :=
        List.eq_nil_iff_forall_not_mem.mpr fun entry member =>
          List.not_mem_nil (covers.mem_right member)
      subst noLeft noRight
      rw [cursorMerge, Option.some.injEq] at done
      unfold mergeByKey
      rw [List.nil_merge]
      exact done.symm
  | cons next keys inductionHypothesis =>
      obtain ⟨least, sortedRest⟩ := List.pairwise_cons.mp sorted
      have atLeast : ∀ value ∈ next :: keys, next ≤ value := by
        intro value member
        rcases List.mem_cons.mp member with rfl | later
        · exact le_refl _
        · exact least value later
      have leftAtLeast : ∀ entry ∈ left, next ≤ key entry :=
        fun entry member => atLeast _ (covers.mem_left member)
      have rightAtLeast : ∀ entry ∈ right, next ≤ key entry :=
        fun entry member => atLeast _ (covers.mem_right member)
      by_cases hit : ∃ first others, left = first :: others ∧ next = key first
      · obtain ⟨first, others, rfl, rfl⟩ := hit
        rw [List.cons_append, cursorMerge_left, Option.map_eq_some_iff]
          at done
        obtain ⟨mergedRest, doneRest, rfl⟩ := done
        rw [mergeByKey_cons_left rightAtLeast,
          inductionHypothesis sortedRest (List.Pairwise.of_cons leftSorted)
            rightSorted covers.advance_left (leftStops.advance least)
            rightStops.advance_other doneRest]
      · have leftDiffers : ∀ entry ∈ left.head?, next ≠ key entry := by
          intro entry first same
          obtain ⟨others, rfl⟩ := List.head?_eq_some_iff.mp first
          exact hit ⟨entry, others, rfl, same⟩
        have leftAbove := lt_of_ne_head leftSorted leftAtLeast leftDiffers
        obtain ⟨entry, others, cursor, differs⟩ :
            ∃ entry others, left ++ leftRest = entry :: others ∧
              next ≠ key entry := by
          cases left with
          | nil =>
              cases leftRest with
              | nil =>
                  rw [List.append_nil, cursorMerge_left_end] at done
                  cases done
              | cons stopped others =>
                  exact
                    ⟨stopped, others, rfl,
                      leftStops.ne fun _ member =>
                        absurd member List.not_mem_nil⟩
          | cons first others =>
              exact
                ⟨first, others ++ leftRest, rfl, leftDiffers first rfl⟩
        rw [cursor] at done
        cases right with
        | nil =>
            have skipped :=
              covers.skip
                (fun other member => ne_of_gt (leftAbove other member))
                (fun other member => absurd member List.not_mem_nil)
            cases rightRest with
            | nil =>
                rw [List.append_nil, cursorMerge_right_end differs] at done
                cases done
            | cons stopped later =>
                rw [List.nil_append,
                  cursorMerge_skip later differs
                    (rightStops.ne fun other member =>
                      ne_of_gt (leftAbove other member)), ← cursor] at done
                exact
                  inductionHypothesis sortedRest leftSorted rightSorted
                    skipped leftStops.tail rightStops.tail done
        | cons second later =>
            rw [List.cons_append] at done
            by_cases taken : next = key second
            · subst taken
              rw [cursorMerge_right _ differs, Option.map_eq_some_iff,
                ← cursor] at done
              obtain ⟨mergedRest, doneRest, rfl⟩ := done
              rw [mergeByKey_cons_right leftAbove,
                inductionHypothesis sortedRest leftSorted
                  (List.Pairwise.of_cons rightSorted) covers.advance_right
                  leftStops.tail (rightStops.advance least) doneRest]
            · have rightAbove :=
                lt_of_ne_head rightSorted rightAtLeast (by
                  intro other first
                  cases first
                  exact taken)
              rw [cursorMerge_skip _ differs taken, ← cursor,
                ← List.cons_append] at done
              exact
                inductionHypothesis sortedRest leftSorted rightSorted
                  (covers.skip
                    (fun other member => ne_of_gt (leftAbove other member))
                    (fun other member => ne_of_gt (rightAbove other member)))
                  leftStops.tail rightStops.tail done

theorem Covers.of_perm {keys : List κ} {left right : List α}
    (perm : keys.Perm (left.map key ++ right.map key)) :
    Covers key keys left right := by
  intro value
  rw [perm.count_eq, List.count_append]

/-- With exactly the keys of what is in front of them, the cursors stay inside
their lists as long as the left one is stopped. -/
theorem cursorMerge_total {keys : List κ} {left right : List α} {stopped : α}
    {others : List α} (sorted : keys.Pairwise (· ≤ ·))
    (leftSorted : left.Pairwise fun first later => key first ≤ key later)
    (rightSorted : right.Pairwise fun first later => key first ≤ key later)
    (perm : keys.Perm (left.map key ++ right.map key))
    (blocks : Blocks key keys left (stopped :: others)) :
    cursorMerge key keys (left ++ stopped :: others) right =
      some (mergeByKey key left right) := by
  have returns :
      ∃ merged,
        cursorMerge key keys (left ++ stopped :: others) right =
          some merged := by
    induction keys generalizing left right with
    | nil =>
        exact ⟨[], rfl⟩
    | cons next keys inductionHypothesis =>
        obtain ⟨least, sortedRest⟩ := List.pairwise_cons.mp sorted
        have covers := Covers.of_perm key perm
        have atLeast : ∀ value ∈ next :: keys, next ≤ value := by
          intro value member
          rcases List.mem_cons.mp member with rfl | later
          · exact le_refl _
          · exact least value later
        by_cases hit : ∃ first rest, left = first :: rest ∧ next = key first
        · obtain ⟨first, rest, rfl, rfl⟩ := hit
          obtain ⟨merged, done⟩ :=
            inductionHypothesis sortedRest (List.Pairwise.of_cons leftSorted)
              rightSorted (List.Perm.cons_inv perm) (blocks.advance least)
          refine ⟨first :: merged, ?_⟩
          rw [List.cons_append, cursorMerge_left, done, Option.map_some]
        · have leftAbove :=
            lt_of_ne_head leftSorted
              (fun entry member => atLeast _ (covers.mem_left member)) (by
                intro entry first same
                obtain ⟨rest, rfl⟩ := List.head?_eq_some_iff.mp first
                exact hit ⟨entry, rest, rfl, same⟩)
          have notLeft : next ∉ left.map key := by
            intro member
            obtain ⟨entry, isEntry, same⟩ := List.mem_map.mp member
            exact absurd (leftAbove entry isEntry) (same ▸ lt_irrefl _)
          have inRight : next ∈ right.map key :=
            (List.mem_append.mp
              (perm.mem_iff.mp List.mem_cons_self)).resolve_left notLeft
          cases right with
          | nil =>
              cases inRight
          | cons second later =>
              obtain ⟨entry, isEntry, same⟩ := List.mem_map.mp inRight
              have secondIs : next = key second := by
                apply le_antisymm (atLeast _ (covers.mem_right
                  List.mem_cons_self))
                rcases List.mem_cons.mp isEntry with rfl | behind
                · exact le_of_eq same
                · rw [← same]
                  exact List.rel_of_pairwise_cons rightSorted behind
              subst secondIs
              have permRest : keys.Perm (left.map key ++ later.map key) :=
                List.Perm.cons_inv
                  (perm.trans (List.perm_middle))
              obtain ⟨merged, done⟩ :=
                inductionHypothesis sortedRest leftSorted
                  (List.Pairwise.of_cons rightSorted) permRest blocks.tail
              refine ⟨second :: merged, ?_⟩
              cases left with
              | nil =>
                  rw [List.nil_append] at done ⊢
                  rw [cursorMerge_right _ blocks.ne, done, Option.map_some]
              | cons first rest =>
                  rw [List.cons_append] at done ⊢
                  rw [cursorMerge_right _
                    (ne_of_lt (leftAbove first List.mem_cons_self)), done,
                    Option.map_some]
  obtain ⟨merged, done⟩ := returns
  have rightBlocks : Blocks key keys right [] := by
    intro entry first
    cases first
  have same :=
    cursorMerge_eq_some key sorted leftSorted rightSorted
      (Covers.of_perm key perm) blocks.stops rightBlocks.stops
      (by rwa [List.append_nil])
  rw [done, same]

end UoscoreUedhoc.CursorMerge
