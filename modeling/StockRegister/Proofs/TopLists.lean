import StockRegister.Proofs.Gainers

/-!
# The top of a ranking

A ranking by a figure has all records, in falling order with those last that lack the figure, and
records with the same figure keep the order in which they were added (`IsRanking`). There is at most
one such ranking, since a list in order is determined by what it has of each figure
(`eq_of_pairwise_of_filter_eq`). If all figures can be compared there is one, and it is what sorting
makes of the records (`isRanking_rankBy`).

A list of the top is a slice of the ranking (`ListsTop`), so a greater limit only extends it, and
what is left out ranks no higher than what is shown. The change of a price is missing if a price is
or if the previous one is zero (`Stock.changeRate_eq_none_iff`). It cannot be computed of what is no
number or too large for one, and then there is no list of gainers (`rankByFigure_of_error`).
`Store.listsTops` puts these together for all stores.
-/

namespace StockRegister

/-! ## Lists in order -/

section Orders

variable {α : Type} {le : α → α → Bool}

/-- Whether two items are at the same place of an order. -/
def tied (le : α → α → Bool) (x y : α) : Bool := le x y && le y x

theorem tied_iff {x y : α} : tied le x y = true ↔ le x y = true ∧ le y x = true :=
  Bool.and_eq_true_iff

theorem tied_self (hrefl : ∀ x, le x x = true) (x : α) : tied le x x = true :=
  tied_iff.mpr ⟨hrefl x, hrefl x⟩

theorem mem_of_filter_eq (hrefl : ∀ x, le x x = true) {xs ys : List α} {x : α} (hx : x ∈ xs)
    (h : xs.filter (tied le x) = ys.filter (tied le x)) : x ∈ ys := by
  have hmem : x ∈ xs.filter (tied le x) := List.mem_filter.mpr ⟨hx, tied_self hrefl x⟩
  rw [h] at hmem
  exact (List.mem_filter.mp hmem).1

/-- Two lists in order are the same if they have the same items of each place in the order, one
after the other. -/
theorem eq_of_pairwise_of_filter_eq (hrefl : ∀ x, le x x = true) {xs ys : List α}
    (hxs : xs.Pairwise fun x y => le x y = true) (hys : ys.Pairwise fun x y => le x y = true)
    (h : ∀ z, z ∈ xs ∨ z ∈ ys → xs.filter (tied le z) = ys.filter (tied le z)) : xs = ys := by
  induction xs generalizing ys with
  | nil =>
    refine (List.eq_nil_iff_forall_not_mem.mpr fun y hy => ?_).symm
    cases mem_of_filter_eq hrefl hy (h y (Or.inr hy)).symm
  | cons x xs ih =>
    have hx := h x (Or.inl List.mem_cons_self)
    have hxmem := mem_of_filter_eq hrefl List.mem_cons_self hx
    cases ys with
    | nil => cases hxmem
    | cons y ys =>
      have hymem := mem_of_filter_eq hrefl List.mem_cons_self (h y (Or.inr List.mem_cons_self)).symm
      -- Each head is in the other list, so the two are at the same place.
      have hxy : le x y = true := hxs.rel_head_of_rel_head_head hymem (hrefl x)
      have hyx : le y x = true := hys.rel_head_of_rel_head_head hxmem (hrefl y)
      rw [List.filter_cons_of_pos (tied_self hrefl x),
        List.filter_cons_of_pos (tied_iff.mpr ⟨hxy, hyx⟩)] at hx
      obtain rfl := List.head_eq_of_cons_eq hx
      refine congrArg _ (ih hxs.of_cons hys.of_cons fun z hz => ?_)
      have htails := h z (hz.imp (List.mem_cons_of_mem _) (List.mem_cons_of_mem _))
      rw [List.filter_cons, List.filter_cons] at htails
      split_ifs at htails
      · exact List.tail_eq_of_cons_eq htails
      · exact htails

/-- Sorting keeps the items of one place in their order. -/
theorem filter_tied_mergeSort (htrans : ∀ x y z, le x y = true → le y z = true → le x z = true)
    (htotal : ∀ x y, (le x y || le y x) = true) (xs : List α) (z : α) :
    (xs.mergeSort le).filter (tied le z) = xs.filter (tied le z) := by
  have hclass : (xs.filter (tied le z)).Pairwise fun x y => le x y = true := by
    refine List.pairwise_of_forall_mem_list fun x hx y hy => ?_
    have hxz := (tied_iff.mp (List.mem_filter.mp hx).2).2
    have hzy := (tied_iff.mp (List.mem_filter.mp hy).2).1
    exact htrans x z y hxz hzy
  have hsublist := (List.sublist_mergeSort htrans htotal hclass List.filter_sublist).filter
    (tied le z)
  rw [List.filter_filter] at hsublist
  simp only [Bool.and_self] at hsublist
  exact (hsublist.eq_of_length ((xs.mergeSort_perm le).filter _).length_eq.symm).symm

end Orders

/-! ## Rankings -/

/-- Whether a record ranks not below another one : its figure is not smaller, and missing only if
that of the other one is. -/
def ranksNotBelow (figure : Stock → Option Double) (x y : Stock) : Bool :=
  !figureBefore (figure y) (figure x)

/-- The two zeros are tied, and neither is with a figure that is missing. -/
example : figureBefore (some Double.zero) (some Double.zero.neg) = false ∧
    figureBefore (some Double.zero.neg) (some Double.zero) = false ∧
    figureBefore (some Double.zero.neg) none = true := by decide

/-- A ranking of records by a figure : all of them, no record before one that ranks above it, and
those that rank alike in their order. -/
structure IsRanking (figure : Stock → Option Double) (stocks sorted : List Stock) : Prop where
  perm : sorted.Perm stocks
  inOrder : sorted.Pairwise fun x y => ranksNotBelow figure x y = true
  stable : ∀ z ∈ stocks, sorted.filter (tied (ranksNotBelow figure) z) =
    stocks.filter (tied (ranksNotBelow figure) z)

section Rankings

variable {figure : Stock → Option Double} {stocks : List Stock}

theorem ranksNotBelow_self (x : Stock) : ranksNotBelow figure x x = true := by
  unfold ranksNotBelow
  cases figure x with
  | none => rfl
  | some f => simp [figureBefore, Double.lt]

/-- Records are ranked in one way only. -/
theorem IsRanking.eq {sorted other : List Stock} (h : IsRanking figure stocks sorted)
    (h' : IsRanking figure stocks other) : sorted = other := by
  refine eq_of_pairwise_of_filter_eq ranksNotBelow_self h.inOrder h'.inOrder fun z hz => ?_
  have hmem : z ∈ stocks := hz.elim h.perm.mem_iff.mp h'.perm.mem_iff.mp
  rw [h.stable z hmem, h'.stable z hmem]

/-- By figures that can be compared the records are sorted. -/
theorem rankBy_eq_mergeSort (h : ∀ x ∈ stocks, isComparable (figure x) = true) :
    rankBy figure stocks = stocks.mergeSort fun x y => figureAtLeast (figure x) (figure y) := by
  let row (x : Stock) : Option Double × Stock := (figure x, x)
  have hrows : ∀ r ∈ stocks.map row, isComparable r.1 = true ∧ figure r.2 = r.1 := by
    intro r hr
    obtain ⟨x, hx, rfl⟩ := List.mem_map.mp hr
    exact ⟨h x hx, rfl⟩
  have hstocks : (stocks.map row).map Prod.snd = stocks := by simp [row, Function.comp_def]
  have hsort := List.map_mergeSort (r := fun r s => !figureBefore s.1 r.1)
    (s := fun x y => figureAtLeast (figure x) (figure y)) (f := Prod.snd) (l := stocks.map row)
    fun r hr s hs => by
      rw [not_figureBefore (hrows r hr).1 (hrows s hs).1, (hrows r hr).2, (hrows s hs).2]
  rw [hstocks] at hsort
  unfold rankBy ranked
  dsimp only
  rw [if_pos (List.all_eq_true.mpr fun r hr => (hrows r hr).1)]
  exact hsort

theorem isRanking_rankBy (h : ∀ x ∈ stocks, isComparable (figure x) = true) :
    IsRanking figure stocks (rankBy figure stocks) := by
  let le (x y : Stock) : Bool := figureAtLeast (figure x) (figure y)
  have hle : ∀ x ∈ stocks, ∀ y ∈ stocks, ranksNotBelow figure x y = le x y :=
    fun x hx y hy => not_figureBefore (h x hx) (h y hy)
  have hperm := List.mergeSort_perm stocks le
  have htrans (x y z : Stock) : le x y = true → le y z = true → le x z = true :=
    figureAtLeast_trans
  have htotal (x y : Stock) : (le x y || le y x) = true := figureAtLeast_total _ _
  rw [rankBy_eq_mergeSort h]
  refine ⟨hperm, ?_, fun z hz => ?_⟩
  · refine (List.pairwise_mergeSort htrans htotal stocks).imp_of_mem fun {x y} hx hy hxy => ?_
    rwa [hle x (hperm.mem_iff.mp hx) y (hperm.mem_iff.mp hy)]
  · have htied : ∀ x ∈ stocks, tied (ranksNotBelow figure) z x = tied le z x := fun x hx => by
      rw [tied, tied, hle z hz x hx, hle x hx z hz]
    rw [List.filter_congr htied, List.filter_congr fun x hx => htied x (hperm.mem_iff.mp hx)]
    exact filter_tied_mergeSort htrans htotal stocks z

end Rankings

/-! ## Slices -/

/-- A slice from the front is followed by the rest of the list. -/
theorem exists_upTo_append {α : Type} (limit : Int) (xs : List α) :
    ∃ rest, upTo limit xs ++ rest = xs := by
  unfold upTo
  split_ifs
  · exact ⟨_, List.take_append_drop _ xs⟩
  · exact ⟨_, List.take_append_drop _ xs⟩

theorem upTo_prefix {α : Type} {m n : Int} (hm : 0 ≤ m) (hmn : m ≤ n) (xs : List α) :
    upTo m xs <+: upTo n xs := by
  rw [upTo, upTo, if_pos hm, if_pos (Int.le_trans hm hmn)]
  exact List.take_prefix_take_left (Int.toNat_le_toNat hmn)

/-- The lists of the top by a figure, one for each limit : the slices of the one ranking. So a
greater limit only extends the list, and with what is left out it has all records, none of which
ranks above one that is shown. -/
structure ListsTop (figure : Stock → Option Double) (stocks : List Stock)
    (top : Int → List Stock) : Prop where
  ranking : ∃! sorted, IsRanking figure stocks sorted
  slices : ∀ sorted, IsRanking figure stocks sorted → ∀ limit, top limit = upTo limit sorted
  grows : ∀ m n, 0 ≤ m → m ≤ n → top m <+: top n
  leftOut : ∀ limit, ∃ rest, (top limit ++ rest).Perm stocks ∧
    ∀ x ∈ top limit, ∀ y ∈ rest, ranksNotBelow figure x y = true

theorem IsRanking.listsTop {figure : Stock → Option Double} {stocks sorted : List Stock}
    (h : IsRanking figure stocks sorted) :
    ListsTop figure stocks fun limit => upTo limit sorted where
  ranking := ⟨sorted, h, fun _ h' => h'.eq h⟩
  slices _ h' _ := by rw [h'.eq h]
  grows _ _ hm hmn := upTo_prefix hm hmn sorted
  leftOut limit := by
    obtain ⟨rest, hrest⟩ := exists_upTo_append limit sorted
    have hparts := h.inOrder
    rw [← hrest, List.pairwise_append] at hparts
    exact ⟨rest, by rw [hrest]; exact h.perm, hparts.2.2⟩

/-! ## Changes of prices -/

namespace Stock

/-- The change of a price is missing exactly if the price is or if there is no previous price that
it could be relative to. -/
theorem changeRate_eq_none_iff (x : Stock) :
    x.changeRate = .ok none ↔ x.currentPrice = .null ∨ x.previousPrice.isEmpty = true := by
  unfold changeRate
  split
  · rename_i hcurrent
    exact iff_of_true rfl (Or.inl hcurrent)
  · rename_i hcurrent
    split_ifs with hprevious
    · exact iff_of_true rfl (Or.inr hprevious)
    · refine iff_of_false ?_ (not_or.mpr ⟨hcurrent, hprevious⟩)
      split
      · cases relativeChange _ _ <;> simp
      · simp

end Stock

/-- A number counts as absent exactly if it is zero. -/
theorem Value.isEmpty_of_toAmount? {v : Value} {n : Amount} (h : v.toAmount? = some n) :
    v.isEmpty = n.isZero := by
  cases v with
  | bool b => cases h; cases b <;> rfl
  | int n => cases h; rfl
  | float x => cases h; rfl
  | _ => cases h

/-- Where a figure cannot be computed, nothing is ranked by it. -/
theorem rankByFigure_of_error {figure : Stock → Except FigureError (Option Double)}
    {stocks : List Stock} {x : Stock} (hx : x ∈ stocks) {e : FigureError}
    (he : figure x = .error e) : ∃ e, rankByFigure figure stocks = .error e := by
  cases hrank : rankByFigure figure stocks with
  | error e => exact ⟨e, rfl⟩
  | ok sorted =>
    obtain ⟨rows, rfl, hfigures, -⟩ := exists_rows_of_rankByFigure hrank
    obtain ⟨r, hr, rfl⟩ := List.mem_map.mp hx
    cases he.symm.trans (hfigures r hr)

/-- What the lists of the top show of a store. -/
structure Store.ListsTops (s : Store) : Prop where
  marketCap : (∀ x ∈ s.toList, isComparable x.marketCap = true) →
    ListsTop Stock.marketCap s.toList s.topByMarketCap
  gainers : (∀ x ∈ s.toList, ∃ rate, x.changeRate = .ok rate ∧ isComparable rate = true) →
    ∃ top, ListsTop Stock.rate? s.toList top ∧ ∀ limit, s.topGainers limit = .ok (top limit)
  /-- There is no list of gainers if the change of one price cannot be computed. -/
  fails : ∀ x ∈ s.toList, ∀ e, x.changeRate = .error e →
    ∀ limit, ∃ e, s.topGainers limit = .error e
  /-- Of prices that are null or floating-point numbers it always can. -/
  computed : ∀ x ∈ s.toList, ∀ current previous, x.currentPrice = .ofDouble? current →
    x.previousPrice = .ofDouble? previous → ∃ rate, x.changeRate = .ok rate
  missing : ∀ x ∈ s.toList, x.changeRate = .ok none ↔
    x.currentPrice = .null ∨ x.previousPrice.isEmpty = true
  /-- Among numbers, the previous prices that no change is relative to are the zeros. -/
  zero : ∀ x ∈ s.toList, ∀ n, x.previousPrice.toAmount? = some n →
    x.previousPrice.isEmpty = n.isZero

/-- The lists of the top of any store are slices of the one ranking of its records : by the market
capitalisation if all of them can be compared, and by the change of the price if all changes can be
computed and compared. -/
theorem Store.listsTops (s : Store) : s.ListsTops where
  marketCap h := (isRanking_rankBy h).listsTop
  gainers h := by
    have hknown : ∀ x ∈ s.toList, ∃ rate, x.changeRate = .ok rate :=
      fun x hx => (h x hx).imp fun _ => And.left
    have hcomparable : ∀ x ∈ s.toList, isComparable x.rate? = true := by
      intro x hx
      obtain ⟨rate, hrate, hr⟩ := h x hx
      rw [Stock.changeRate_eq_rate? ⟨rate, hrate⟩, Except.ok.injEq] at hrate
      rwa [hrate]
    exact ⟨_, (isRanking_rankBy hcomparable).listsTop, topGainers_eq_ok hknown⟩
  fails x hx e he limit := by
    obtain ⟨e', hfail⟩ := rankByFigure_of_error hx he
    exact ⟨e', by rw [topGainers, hfail]; rfl⟩
  computed _ _ _ _ := Stock.exists_changeRate_of_doubles
  missing x _ := x.changeRate_eq_none_iff
  zero _ _ _ := Value.isEmpty_of_toAmount?

/-- A price that is too large for a floating-point number leaves no list of gainers, though no
change is not a number, and though the list that is asked for is empty. -/
theorem topGainers_of_huge_price :
    let now : Moment := ⟨⟨2024, 2, 29⟩, 0, 0, 0, 0, none⟩
    let details : StockDetails := ⟨some "A", some "Acme", some Double.one, none, none, none, none⟩
    let s := Store.empty.applyAll
      [.add now details, .updatePrice now 1 (.int (Int.pow 10 400)) .null]
    (∀ x ∈ s.toList, ∀ rate, x.changeRate = .ok rate → isComparable rate = true) ∧
      ¬∃ sorted, IsRanking Stock.rate? s.toList sorted ∧
        s.topGainers 0 = .ok (upTo 0 sorted) := by
  intro now details s
  have hrates : s.toList.map Stock.changeRate = [.error .tooLarge] := by
    decide +kernel +zetaReduce
  obtain ⟨x, hx, he⟩ := List.mem_map.mp (hrates ▸ List.mem_singleton_self _)
  refine ⟨fun x hx rate hrate => ?_, ?_⟩
  · have hmem := List.mem_map_of_mem (f := Stock.changeRate) hx
    rw [hrates, hrate] at hmem
    simp at hmem
  · rintro ⟨sorted, -, h⟩
    obtain ⟨e, hfail⟩ := rankByFigure_of_error hx he
    rw [Store.topGainers, hfail] at h
    cases h

end StockRegister
