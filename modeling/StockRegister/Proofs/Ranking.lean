import Mathlib.Data.List.Basic
import Mathlib.Tactic.SplitIfs
import StockRegister.Proofs.Fields
import StockRegister.Store

/-!
# Rankings keep the records

Whatever the comparison is, sorting by runs gives back the items of the list in some order. A merge
of two runs keeps the items that were taken and those that are left together : `Merge.Keeps` says so
of the states of a merge from the front, and the states of one from the back are shown to be
permutations of the items directly. How many items are taken at once has no part in it.

So a merge is a permutation of both runs (`perm_mergeRuns`), the runs that wait hold the items that
were read so far (`perm_addRuns`), and merging them all gives a permutation of the list
(`perm_runSort`). With the merge sort of the library for comparable figures, a ranking permutes the
records (`perm_rankBy`, `perm_rankByFigure`), and what the top of a store shows is in the store.
-/

namespace StockRegister

open scoped List

namespace RunSort

variable {α : Type}

/-! ## Places -/

theorem halve_le (p : Nat → Bool) (fuel low high : Nat) :
    halve p fuel low high ≤ max low high := by
  induction fuel generalizing low high with
  | zero => exact Nat.le_max_left low high
  | succ fuel ih =>
    unfold halve
    split_ifs with hlow
    · have hmiddle : low + (high - low) / 2 < high := by omega
      dsimp only
      split_ifs
      · have h := ih (low + (high - low) / 2 + 1) high
        omega
      · have h := ih low (low + (high - low) / 2)
        omega
    · exact Nat.le_max_left low high

/-- The last good stride stays below the most, and the next one is at least as long as at the
start. -/
theorem strides_bounds (p : Nat → Bool) {most last next : Nat} (hlast : last < most)
    (hnext : 0 < next) (fuel : Nat) :
    (strides p most fuel last next).1 < most ∧ 0 < (strides p most fuel last next).2 := by
  induction fuel generalizing last next with
  | zero => exact ⟨hlast, hnext⟩
  | succ fuel ih =>
    unfold strides
    split_ifs with hgood
    · rw [Bool.and_eq_true, decide_eq_true_eq] at hgood
      exact ih hgood.1 (Nat.succ_pos _)
    · exact ⟨hlast, hnext⟩

/-- The first failure is no further than the count, if the start is within it. -/
theorem firstFailure_le {p : Nat → Bool} {count start : Nat} (hstart : start ≤ count)
    (hp : p start = true → start < count) : firstFailure p count start ≤ count := by
  unfold firstFailure
  dsimp only
  split_ifs with hgood
  · have hlt := hp hgood
    have hmost : 0 < count - start := by omega
    obtain ⟨hlast, -⟩ := strides_bounds (fun k => p (start + k)) hmost Nat.one_pos count
    generalize strides (fun k => p (start + k)) (count - start) count 0 1 = stride at hlast ⊢
    have h := halve_le p (count + 1) (start + stride.1 + 1)
      (start + min stride.2 (count - start))
    omega
  · have hmost : 0 < start + 1 := by omega
    obtain ⟨-, hnext⟩ := strides_bounds (fun k => !p (start - k)) hmost Nat.one_pos count
    generalize strides (fun k => !p (start - k)) (start + 1) count 0 1 = stride at hnext ⊢
    have h := halve_le p (count + 1) (start + 1 - min stride.2 (start + 1)) (start - stride.1)
    omega

theorem lt_size_of_testAt {xs : Array α} {p : α → Bool} {k : Nat} (h : testAt xs p k = true) :
    k < xs.size := by
  unfold testAt at h
  obtain ⟨x, hx, -⟩ := (Option.any_eq_true _ _).mp h
  exact (Array.getElem?_eq_some_iff.mp hx).1

/-! ## Merging from the front -/

namespace Merge

/-- A merge is ahead of another with the same items : they were taken or are left, and no more are
left than the runs have. -/
structure Keeps (items : List α) (m : Merge α) : Prop where
  left : m.leftCount ≤ m.left.size
  right : m.rightCount ≤ m.right.size
  perm : m.frontDone.1.Perm items

variable {items : List α} {m : Merge α}

/-- Items that are taken from a part of an array are no longer left there. -/
theorem itemsFrom_take_append (xs : Array α) {count : Nat} (h : count ≤ xs.size) (k : Nat) :
    (itemsFrom xs (xs.size - count)).take k ++ itemsFrom xs (xs.size - (count - k)) =
      itemsFrom xs (xs.size - count) := by
  have hrest : itemsFrom xs (xs.size - (count - k)) =
      (itemsFrom xs (xs.size - count)).drop k := by
    unfold itemsFrom
    rw [List.drop_drop]
    by_cases hk : k ≤ count
    · congr 1
      omega
    · have hlength : xs.toList.length = xs.size := Array.length_toList
      rw [List.drop_eq_nil_of_le (by omega), List.drop_eq_nil_of_le (by omega)]
  rw [hrest, List.take_append_drop]

theorem Keeps.takeLeft (h : m.Keeps items) (k : Nat) : (m.takeLeft k).Keeps items := by
  refine ⟨Nat.le_trans (Nat.sub_le _ _) h.left, h.right, ?_⟩
  have hleft := itemsFrom_take_append m.left h.left k
  have hdone : (m.takeLeft k).frontDone.1 = m.frontDone.1 := by
    simp only [frontDone, Merge.takeLeft, leftAt, rightAt, List.reverse_append,
      List.reverse_reverse]
    rw [List.append_assoc m.taken.reverse, hleft]
  rw [hdone]
  exact h.perm

theorem Keeps.takeRight (h : m.Keeps items) (k : Nat) : (m.takeRight k).Keeps items := by
  refine ⟨h.left, Nat.le_trans (Nat.sub_le _ _) h.right, List.Perm.trans ?_ h.perm⟩
  have hright := itemsFrom_take_append m.right h.right k
  simp only [frontDone, Merge.takeRight, leftAt, rightAt, List.reverse_append,
    List.reverse_reverse, List.append_assoc]
  have hswap := List.perm_append_comm_assoc
    ((itemsFrom m.right (m.right.size - m.rightCount)).take k)
    (itemsFrom m.left (m.left.size - m.leftCount))
    (itemsFrom m.right (m.right.size - (m.rightCount - k)))
  rw [hright] at hswap
  exact hswap.append_left _

theorem Keeps.last (h : m.Keeps items) : m.frontLast.1.Perm items := by
  refine List.Perm.trans ?_ h.perm
  simp only [frontDone, frontLast, List.append_assoc]
  exact List.perm_append_comm.append_left _

theorem Keeps.withPatience (h : m.Keeps items) (patience saved : Nat) :
    { m with patience := patience, saved := saved }.Keeps items :=
  ⟨h.left, h.right, h.perm⟩

theorem perm_front (before : α → α → Bool) (fuel : Nat) :
    (∀ wins losses (m : Merge α), m.Keeps items →
      (frontPlain before wins losses fuel m).1.Perm items) ∧
    ∀ m : Merge α, m.Keeps items → (frontGallop before fuel m).1.Perm items := by
  induction fuel with
  | zero => exact ⟨fun _ _ m h => h.perm, fun m h => h.perm⟩
  | succ fuel ih =>
    obtain ⟨ihPlain, ihGallop⟩ := ih
    refine ⟨fun wins losses m h => ?_, fun m h => ?_⟩
    · unfold frontPlain
      dsimp only
      split_ifs
      · exact (h.takeRight 1).perm
      · exact ihGallop _ ((h.takeRight 1).withPatience _ _)
      · exact ihPlain _ _ _ (h.takeRight 1)
      · exact (h.takeLeft 1).last
      · exact ihGallop _ ((h.takeLeft 1).withPatience _ _)
      · exact ihPlain _ _ _ (h.takeLeft 1)
    · unfold frontGallop
      dsimp only
      have hm := h.withPatience (max 1 (m.patience - 1)) (max 1 (m.patience - 1))
      split_ifs
      · exact (hm.takeLeft _).last
      · exact (hm.takeLeft _).perm
      · exact ((hm.takeLeft _).takeRight 1).perm
      · exact (((hm.takeLeft _).takeRight 1).takeRight _).perm
      · exact ((((hm.takeLeft _).takeRight 1).takeRight _).takeLeft 1).last
      · exact ihGallop _ ((((hm.takeLeft _).takeRight 1).takeRight _).takeLeft 1)
      · exact ihPlain _ _ _
          (((((hm.takeLeft _).takeRight 1).takeRight _).takeLeft 1).withPatience _ _)

theorem perm_fromFront (before : α → α → Bool) (h : m.Keeps items) :
    (m.fromFront before).1.Perm items := by
  unfold fromFront
  dsimp only
  split_ifs
  · exact (h.takeRight 1).perm
  · exact (h.takeRight 1).last
  · exact (perm_front before _).1 _ _ _ (h.takeRight 1)

/-! ## Merging from the back -/

/-- Items that are taken from the end of a part of an array are no longer left there. -/
theorem itemsUpTo_append_drop (xs : Array α) (count k : Nat) :
    itemsUpTo xs (count - k) ++ (itemsUpTo xs count).drop (count - k) = itemsUpTo xs count := by
  have hpart : itemsUpTo xs (count - k) = (itemsUpTo xs count).take (count - k) := by
    unfold itemsUpTo
    rw [List.take_take, Nat.min_eq_left (Nat.sub_le _ _)]
  rw [hpart, List.take_append_drop]

/-- A part of a list may stand behind another list. -/
theorem perm_of_append_eq {first second whole : List α} (h : first ++ second = whole)
    (other rest : List α) : (first ++ other ++ (second ++ rest)).Perm (whole ++ other ++ rest) := by
  subst h
  simp only [List.append_assoc]
  exact (List.perm_append_comm_assoc other second rest).append_left first

section Back

variable (h : m.backDone.1.Perm items)

include h

theorem perm_takeLeftEnd (k : Nat) : (m.takeLeftEnd k).backDone.1.Perm items := by
  have hleft := itemsUpTo_append_drop m.left m.leftCount k
  exact (perm_of_append_eq hleft (itemsUpTo m.right m.rightCount) m.taken).trans h

theorem perm_takeRightEnd (k : Nat) : (m.takeRightEnd k).backDone.1.Perm items := by
  have hright := itemsUpTo_append_drop m.right m.rightCount k
  have hdone : (m.takeRightEnd k).backDone.1 = m.backDone.1 := by
    simp only [backDone, takeRightEnd]
    rw [List.append_assoc, ← List.append_assoc (itemsUpTo m.right _), hright, List.append_assoc]
  rw [hdone]
  exact h

theorem perm_backLast : m.backLast.1.Perm items :=
  (List.perm_append_comm.append_right _).trans h

end Back

theorem perm_back (before : α → α → Bool) (fuel : Nat) :
    (∀ wins losses (m : Merge α), m.backDone.1.Perm items →
      (backPlain before wins losses fuel m).1.Perm items) ∧
    ∀ m : Merge α, m.backDone.1.Perm items → (backGallop before fuel m).1.Perm items := by
  induction fuel with
  | zero => exact ⟨fun _ _ m h => h, fun m h => h⟩
  | succ fuel ih =>
    obtain ⟨ihPlain, ihGallop⟩ := ih
    refine ⟨fun wins losses m h => ?_, fun m h => ?_⟩
    · unfold backPlain
      dsimp only
      split_ifs
      · exact perm_takeLeftEnd h 1
      · exact ihGallop _ (perm_takeLeftEnd h 1)
      · exact ihPlain _ _ _ (perm_takeLeftEnd h 1)
      · exact perm_backLast (perm_takeRightEnd h 1)
      · exact ihGallop _ (perm_takeRightEnd h 1)
      · exact ihPlain _ _ _ (perm_takeRightEnd h 1)
    · unfold backGallop
      dsimp only
      have hm : { m with patience := max 1 (m.patience - 1),
                         saved := max 1 (m.patience - 1) }.backDone.1.Perm items := h
      split_ifs
      · exact perm_takeLeftEnd hm _
      · exact perm_backLast (perm_takeRightEnd (perm_takeLeftEnd hm _) 1)
      · exact perm_backLast (perm_takeRightEnd (perm_takeRightEnd (perm_takeLeftEnd hm _) 1) _)
      · exact perm_takeRightEnd (perm_takeRightEnd (perm_takeLeftEnd hm _) 1) _
      · exact perm_takeLeftEnd
          (perm_takeRightEnd (perm_takeRightEnd (perm_takeLeftEnd hm _) 1) _) 1
      · exact ihGallop _ (perm_takeLeftEnd
          (perm_takeRightEnd (perm_takeRightEnd (perm_takeLeftEnd hm _) 1) _) 1)
      · exact ihPlain _ _ _ (perm_takeLeftEnd
          (perm_takeRightEnd (perm_takeRightEnd (perm_takeLeftEnd hm _) 1) _) 1)

theorem perm_fromBack (before : α → α → Bool) (h : m.backDone.1.Perm items) :
    (m.fromBack before).1.Perm items := by
  unfold fromBack
  dsimp only
  split_ifs
  · exact perm_takeLeftEnd h 1
  · exact perm_backLast (perm_takeLeftEnd h 1)
  · exact (perm_back before _).1 _ _ _ (perm_takeLeftEnd h 1)

end Merge

/-! ## Merging runs -/

/-- A merge gives back the items of both runs. -/
theorem perm_mergeRuns (before : α → α → Bool) (left right : List α) (patience : Nat) :
    (mergeRuns before left right patience).1.Perm (left ++ right) := by
  unfold mergeRuns
  dsimp only
  generalize firstFailure _ left.toArray.size 0 = inPlace
  have hmoving : firstFailure
      (fun k => testAt left.toArray (fun x => testAt right.toArray (fun y => before y x) k)
        (left.toArray.size - 1)) right.toArray.size (right.toArray.size - 1) ≤ right.length := by
    refine firstFailure_le (Nat.sub_le _ _) fun hlast => ?_
    obtain ⟨x, -, hx⟩ := (Option.any_eq_true _ _).mp hlast
    exact lt_size_of_testAt hx
  generalize firstFailure _ right.toArray.size (right.toArray.size - 1) = moving at hmoving ⊢
  have hmerged : ∀ {merged}, merged.Perm (left.drop inPlace ++ right.take moving) →
      (left.take inPlace ++ merged ++ right.drop moving).Perm (left ++ right) := by
    intro merged h
    calc left.take inPlace ++ merged ++ right.drop moving
      _ ~ left.take inPlace ++ (left.drop inPlace ++ right.take moving) ++ right.drop moving :=
        (h.append_left _).append_right _
      _ = left ++ right := by
        rw [← List.append_assoc, List.take_append_drop, List.append_assoc, List.take_append_drop]
  split_ifs with hplace hnone hshort
  · exact .refl _
  · exact .refl _
  · refine hmerged (Merge.perm_fromFront before ⟨?_, ?_, ?_⟩)
    · simp
    · simp [hmoving]
    · simp [Merge.frontDone, Merge.leftAt, Merge.rightAt, itemsFrom, hmoving]
  · refine hmerged (Merge.perm_fromBack before ?_)
    have hleft : (left.drop inPlace).take (left.drop inPlace).length = left.drop inPlace :=
      List.take_length
    simp only [Merge.backDone, itemsUpTo, List.append_nil, List.take_take, Nat.min_self, hleft]
    exact .refl _

/-! ## The tree of merges -/

/-- The items of runs that wait. -/
def waitingItems (waiting : List (Waiting α)) : List α := waiting.flatMap (·.items)

theorem perm_collapse (before : α → α → Bool) (power : Nat) (waiting : List (Waiting α))
    (patience : Nat) :
    waitingItems (collapse before power waiting patience).1 ~ waitingItems waiting := by
  fun_induction collapse before power waiting patience with
  | case1 right left rest patience hpower items patience' hmerge ih =>
    have hmerged := perm_mergeRuns before left.items right.items patience
    rw [hmerge] at hmerged
    calc waitingItems _
      _ ~ items ++ waitingItems rest := ih
      _ ~ left.items ++ right.items ++ waitingItems rest := hmerged.append_right _
      _ ~ right.items ++ left.items ++ waitingItems rest := List.perm_append_comm.append_right _
      _ = waitingItems (right :: left :: rest) := List.append_assoc _ _ _
  | case2 => exact .refl _
  | case3 => exact .refl _

theorem perm_addRun (before : α → α → Bool) (whole : Nat) (run : List α)
    (waiting : List (Waiting α)) (patience : Nat) :
    waitingItems (addRun before whole run waiting patience).1 ~ run ++ waitingItems waiting := by
  unfold addRun
  split
  · exact .refl _
  · rename_i last rest
    have hcollapse := perm_collapse before
      (boundaryPower whole (whole.log2 + 4) (2 * last.start + last.items.length)
        (2 * last.start + last.items.length + last.items.length + run.length))
      (last :: rest) patience
    dsimp only
    split
    · rename_i last' rest' patience' heq
      rw [heq] at hcollapse
      exact hcollapse.append_left run
    · rename_i patience' heq
      rw [heq] at hcollapse
      exact hcollapse.append_left run

/-- The run at the head of a list is made of its first items, of which it takes at least one. -/
theorem perm_headRun (before : α → α → Bool) (xs : List α) :
    (headRun before xs).1 ++ (headRun before xs).2 ~ xs ∧
      (xs ≠ [] → (headRun before xs).2.length < xs.length) := by
  unfold headRun
  split
  · exact ⟨.refl _, fun h => absurd rfl h⟩
  · exact ⟨.refl _, fun _ => Nat.one_pos⟩
  · rename_i x y rest
    dsimp only
    generalize htail : runTail before (before y x) y rest = tail
    refine ⟨?_, fun _ => ?_⟩
    · have hrun : (if before y x = true then ((x :: y :: rest).take (tail + 2)).reverse
          else (x :: y :: rest).take (tail + 2)) ~ (x :: y :: rest).take (tail + 2) := by
        split_ifs
        · exact List.reverse_perm _
        · exact .refl _
      have hparts := hrun.append_right ((x :: y :: rest).drop (tail + 2))
      rwa [List.take_append_drop] at hparts
    · simp only [List.length_drop, List.length_cons]
      omega

theorem perm_insertSorted (before : α → α → Bool) (sorted : List α) (x : α) :
    insertSorted before sorted x ~ x :: sorted := by
  unfold insertSorted
  dsimp only
  generalize halve _ _ 0 sorted.length = place
  have hparts : sorted.take place ++ x :: sorted.drop place ~
      x :: (sorted.take place ++ sorted.drop place) := List.perm_middle
  rwa [List.take_append_drop] at hparts

theorem perm_foldl_insertSorted (before : α → α → Bool) (xs sorted : List α) :
    xs.foldl (insertSorted before) sorted ~ sorted ++ xs := by
  induction xs generalizing sorted with
  | nil => exact .of_eq (List.append_nil sorted).symm
  | cons x xs ih =>
    have hinsert := (perm_insertSorted before sorted x).append_right xs
    exact (ih _).trans (hinsert.trans List.perm_middle.symm)

/-- A run takes some of the items at the head of a list, at least one. -/
theorem perm_takeRun (before : α → α → Bool) (least : Nat) (xs : List α) :
    (takeRun before least xs).1 ++ (takeRun before least xs).2 ~ xs ∧
      (xs ≠ [] → (takeRun before least xs).2.length < xs.length) := by
  obtain ⟨hhead, hshorter⟩ := perm_headRun before xs
  unfold takeRun
  dsimp only
  generalize headRun before xs = parts at hhead hshorter ⊢
  generalize least - parts.1.length = more
  refine ⟨?_, fun h => ?_⟩
  · calc (parts.2.take more).foldl (insertSorted before) parts.1 ++ parts.2.drop more
      _ ~ parts.1 ++ parts.2.take more ++ parts.2.drop more :=
        (perm_foldl_insertSorted before _ _).append_right _
      _ = parts.1 ++ parts.2 := by rw [List.append_assoc, List.take_append_drop]
      _ ~ xs := hhead
  · have hlength := hshorter h
    rw [List.length_drop]
    omega

/-- The runs that wait in the end hold all items, if there is fuel for each. -/
theorem perm_addRuns (before : α → α → Bool) (whole least fuel : Nat) {xs : List α}
    (hfuel : xs.length ≤ fuel) (waiting : List (Waiting α)) (patience : Nat) :
    waitingItems (addRuns before whole least fuel xs waiting patience).1 ~
      xs ++ waitingItems waiting := by
  induction fuel generalizing xs waiting patience with
  | zero =>
    obtain rfl := List.eq_nil_of_length_eq_zero (Nat.le_zero.mp hfuel)
    exact .refl _
  | succ fuel ih =>
    cases xs with
    | nil => exact .refl _
    | cons x xs =>
      obtain ⟨hrun, hshorter⟩ := perm_takeRun before least (x :: xs)
      have hlength := hshorter (List.cons_ne_nil _ _)
      unfold addRuns
      dsimp only
      generalize takeRun before least (x :: xs) = parts at hrun hlength ⊢
      have hadd := perm_addRun before whole parts.1 waiting patience
      generalize addRun before whole parts.1 waiting patience = added at hadd ⊢
      have hrest : parts.2.length ≤ fuel := by
        rw [List.length_cons] at hfuel hlength
        omega
      calc waitingItems (addRuns before whole least fuel parts.2 added.1 added.2).1
        _ ~ parts.2 ++ waitingItems added.1 := ih hrest added.1 added.2
        _ ~ parts.2 ++ (parts.1 ++ waitingItems waiting) := hadd.append_left _
        _ ~ parts.1 ++ (parts.2 ++ waitingItems waiting) := List.perm_append_comm_assoc _ _ _
        _ = parts.1 ++ parts.2 ++ waitingItems waiting := (List.append_assoc _ _ _).symm
        _ ~ x :: xs ++ waitingItems waiting := hrun.append_right _

theorem perm_mergeAll (before : α → α → Bool) (waiting : List (Waiting α)) (patience : Nat) :
    mergeAll before waiting patience ~ waitingItems waiting := by
  fun_induction mergeAll before waiting patience with
  | case1 => exact .refl _
  | case2 run => exact .of_eq (List.append_nil run.items).symm
  | case3 right left patience =>
    have hmerged := perm_mergeRuns before left.items right.items patience
    calc (mergeRuns before left.items right.items patience).1
      _ ~ left.items ++ right.items := hmerged
      _ ~ right.items ++ left.items := List.perm_append_comm
      _ = waitingItems [right, left] := congrArg _ (List.append_nil left.items).symm
  | case4 right middle left rest patience hshort items patience' hmerge ih =>
    have hmerged := perm_mergeRuns before left.items middle.items patience
    rw [hmerge] at hmerged
    calc mergeAll before _ patience'
      _ ~ right.items ++ (items ++ waitingItems rest) := ih
      _ ~ right.items ++ (left.items ++ middle.items ++ waitingItems rest) :=
        (hmerged.append_right _).append_left _
      _ ~ right.items ++ (middle.items ++ left.items ++ waitingItems rest) :=
        (List.perm_append_comm.append_right _).append_left _
      _ = waitingItems (right :: middle :: left :: rest) :=
        congrArg _ (List.append_assoc _ _ _)
  | case5 right middle left rest patience hshort items patience' hmerge ih =>
    have hmerged := perm_mergeRuns before middle.items right.items patience
    rw [hmerge] at hmerged
    calc mergeAll before _ patience'
      _ ~ items ++ (left.items ++ waitingItems rest) := ih
      _ ~ middle.items ++ right.items ++ (left.items ++ waitingItems rest) :=
        hmerged.append_right _
      _ ~ right.items ++ middle.items ++ (left.items ++ waitingItems rest) :=
        List.perm_append_comm.append_right _
      _ = waitingItems (right :: middle :: left :: rest) := List.append_assoc _ _ _

/-- Sorting by runs gives back the items of the list. -/
theorem perm_runSort (before : α → α → Bool) (xs : List α) : runSort before xs ~ xs := by
  have hruns := perm_addRuns before xs.length (leastRun (xs.length + 1) xs.length 0)
    (xs.length + 1) (Nat.le_succ xs.length) [] leastPatience
  unfold runSort
  dsimp only
  generalize addRuns before xs.length _ (xs.length + 1) xs [] leastPatience = runs at hruns ⊢
  calc mergeAll before runs.1 runs.2
    _ ~ waitingItems runs.1 := perm_mergeAll before runs.1 runs.2
    _ ~ xs ++ [] := hruns
    _ = xs := List.append_nil xs

end RunSort

/-! ## Ranking -/

/-- Ranking rows permutes them. -/
theorem perm_ranked (rows : List (Option Double × Stock)) : ranked rows ~ rows := by
  unfold ranked
  dsimp only
  split_ifs
  · exact List.mergeSort_perm _ _
  · exact RunSort.perm_runSort _ _

theorem perm_rankBy (figure : Stock → Option Double) (stocks : List Stock) :
    rankBy figure stocks ~ stocks := by
  calc rankBy figure stocks
    _ ~ (stocks.map fun s => (figure s, s)).map Prod.snd := (perm_ranked _).map Prod.snd
    _ = stocks := by rw [List.map_map]; exact List.map_id stocks

/-- Records that could be ranked by a figure were ranked with the figures of all of them. -/
theorem exists_rows_of_rankByFigure {figure : Stock → Except FigureError (Option Double)}
    {stocks sorted : List Stock} (h : rankByFigure figure stocks = .ok sorted) :
    ∃ rows, rows.map Prod.snd = stocks ∧ (∀ r ∈ rows, figure r.2 = .ok r.1) ∧
      sorted = (ranked rows).map Prod.snd := by
  have hrows : ∀ {stocks : List Stock} {rows}, (stocks.mapM fun s => return (← figure s, s) :
      Except FigureError _) = .ok rows →
      rows.map Prod.snd = stocks ∧ ∀ r ∈ rows, figure r.2 = .ok r.1 := by
    intro stocks
    induction stocks with
    | nil =>
      intro rows h
      cases h
      exact ⟨rfl, fun r hr => nomatch hr⟩
    | cons s stocks ih =>
      intro rows h
      rw [List.mapM_cons] at h
      obtain ⟨row, hrow, h⟩ := exists_of_bind_eq_ok h
      obtain ⟨rest, hrest, h⟩ := exists_of_bind_eq_ok h
      obtain ⟨rate, hfigure, hrate⟩ := exists_of_bind_eq_ok hrow
      obtain ⟨hstocks, hfigures⟩ := ih hrest
      cases h
      cases hrate
      exact ⟨by rw [List.map_cons, hstocks], List.forall_mem_cons.mpr ⟨hfigure, hfigures⟩⟩
  obtain ⟨rows, hmap, heq⟩ := exists_of_bind_eq_ok h
  cases heq
  exact ⟨rows, (hrows hmap).1, (hrows hmap).2, rfl⟩

/-- Records whose figures can all be computed are ranked by them. -/
theorem rankByFigure_eq_ok {figure : Stock → Except FigureError (Option Double)}
    {known : Stock → Option Double} {stocks : List Stock}
    (h : ∀ x ∈ stocks, figure x = .ok (known x)) :
    rankByFigure figure stocks = .ok (rankBy known stocks) := by
  have hrows : (stocks.mapM fun x => return (← figure x, x) : Except FigureError _) =
      .ok (stocks.map fun x => (known x, x)) := by
    induction stocks with
    | nil => rfl
    | cons x stocks ih =>
      obtain ⟨hx, hstocks⟩ := List.forall_mem_cons.mp h
      rw [List.mapM_cons, ih hstocks, hx]
      rfl
  rw [rankByFigure, hrows]
  rfl

theorem perm_rankByFigure {figure : Stock → Except FigureError (Option Double)}
    {stocks sorted : List Stock} (h : rankByFigure figure stocks = .ok sorted) :
    sorted ~ stocks := by
  obtain ⟨rows, rfl, -, rfl⟩ := exists_rows_of_rankByFigure h
  exact (perm_ranked rows).map Prod.snd

theorem mem_of_mem_upTo {α : Type} {limit : Int} {xs : List α} {x : α} (h : x ∈ upTo limit xs) :
    x ∈ xs := by
  unfold upTo at h
  split_ifs at h <;> exact List.mem_of_mem_take h

namespace Store

theorem mem_of_mem_topGainers {s : Store} {limit : Int} {stocks : List Stock}
    (h : s.topGainers limit = .ok stocks) {x : Stock} (hx : x ∈ stocks) : x ∈ s.toList := by
  unfold topGainers at h
  cases hrank : rankByFigure Stock.changeRate s.toList with
  | error e =>
    rw [hrank] at h
    cases h
  | ok sorted =>
    rw [hrank] at h
    cases h
    exact (perm_rankByFigure hrank).mem_iff.mp (mem_of_mem_upTo hx)

theorem mem_of_mem_topByMarketCap {s : Store} {limit : Int} {x : Stock}
    (hx : x ∈ s.topByMarketCap limit) : x ∈ s.toList :=
  (perm_rankBy Stock.marketCap s.toList).mem_iff.mp (mem_of_mem_upTo hx)

end Store

end StockRegister
