import StockRegister.Proofs.Ranking
import StockRegister.Proofs.Replies

/-!
# Rankings by the change of the price

The records are ranked by the change of their price relative to the previous one. A quotient that is
rounded is always a number, so a sum is none only of two infinities of opposite signs
(`Double.isNaN_add`), and a quotient only of two infinities or two zeros (`Double.isNaN_div`). Hence
the change of a sound record is missing or a number unless its previous price is infinite
(`Stock.exists_comparable_changeRate`).

All sound records can be ranked (`Store.exists_ranking`). On figures that can be compared, not to
be before is an order (`figureAtLeast`), so a ranking by such figures is in order
(`pairwise_ranked`), and no record stands before one with a larger change
(`Store.pairwise_topGainers`). Prices that are finite stay so whatever is asked
(`Errand.HasFinitePrices.keeps`), so that only a request with an infinite price can take this away
(`gainers_of_seed`). One that does is enough, though : in `gainers_out_of_order` the record with an
infinite previous price is out of place, and so are the other two.
-/

namespace StockRegister

open Schema

/-! ## Numbers that are none -/

namespace Double

theorem isNaN_nan : nan.isNaN = true := by decide

theorem isNaN_infinity (negative : Bool) : (infinity negative).isNaN = false := by
  simp [isNaN, infinity]

/-- A quotient that is rounded is a number. -/
theorem isNaN_ofQuotient (negative : Bool) (num den : Nat) :
    (ofQuotient negative num den).isNaN = false := by
  rw [isNaN, decide_eq_false_iff_not, Nat.not_lt]
  exact roundRank_le num den

theorem isNaN_zero (negative : Bool) : (⟨negative, 0, by decide⟩ : Double).isNaN = false := by
  simp [isNaN]

theorem isNaN_neg (x : Double) : x.neg.isNaN = x.isNaN := rfl

theorem isInfinite_neg (x : Double) : x.neg.isInfinite = x.isInfinite := rfl

theorem isZero_of_isInfinite {x : Double} (h : x.isInfinite = true) : x.isZero = false := by
  rw [isInfinite, beq_iff_eq] at h
  rw [isZero, h]
  decide

/-- A sum is no number only if one of the two is none, or they are opposite infinities. -/
theorem isNaN_add (x y : Double) :
    (x.add y).isNaN =
      (x.isNaN || y.isNaN || (x.isInfinite && y.isInfinite && x.negative != y.negative)) := by
  unfold add
  dsimp only
  cases hx : x.isNaN <;> cases hy : y.isNaN <;> cases hx' : x.isInfinite <;>
    cases hy' : y.isInfinite <;>
    simp only [Bool.or_true, Bool.true_or, Bool.or_false, Bool.false_or, Bool.true_and,
      Bool.and_false, Bool.false_and, if_true, Bool.false_eq_true, if_false, isNaN_nan, hx, hy]
  · split_ifs
    · exact isNaN_zero _
    · exact isNaN_ofQuotient ..
  · cases hopposite : x.negative != y.negative
    · exact hx
    · exact isNaN_nan

/-- A quotient is no number only if one of the two is none, or both are infinite or zero. -/
theorem isNaN_div (x y : Double) :
    (x.div y).isNaN =
      (x.isNaN || y.isNaN || (x.isInfinite && y.isInfinite) || (x.isZero && y.isZero)) := by
  unfold div
  dsimp only
  cases hx : x.isNaN <;> cases hy : y.isNaN <;> cases hx' : x.isInfinite <;>
    cases hy' : y.isInfinite <;>
    simp only [Bool.or_true, Bool.true_or, Bool.or_false, Bool.false_or, Bool.true_and,
      Bool.and_false, Bool.false_and, if_true, Bool.false_eq_true, if_false, isNaN_nan,
      isNaN_zero, isNaN_infinity]
  · cases x.isZero <;> cases y.isZero <;>
      simp only [Bool.true_and, Bool.false_and, if_true, Bool.false_eq_true, if_false, isNaN_nan,
        isNaN_infinity, isNaN_ofQuotient]
  · rw [isZero_of_isInfinite hy', Bool.and_false]
  · rw [isZero_of_isInfinite hx', Bool.false_and]

theorem isNaN_of_zero_le {x : Double} (h : zero.le x = true) : x.isNaN = false := by
  simp only [le, Bool.and_eq_true, Bool.not_eq_true'] at h
  exact h.1.2

/-- An infinity that is not below zero is the positive one. -/
theorem negative_of_zero_le {x : Double} (h : zero.le x = true) (hx : x.isInfinite = true) :
    x.negative = false := by
  rw [isInfinite, beq_iff_eq] at hx
  by_contra hnegative
  rw [Bool.not_eq_false] at hnegative
  simp [le, key, hnegative, hx, zero, infinityRank] at h

/-- The change from a number to another, neither of them below zero, is a number unless the first
one is infinite. -/
theorem isNaN_change {c p : Double} (hc : zero.le c = true) (hp : zero.le p = true)
    (hzero : p.isZero = false) : ((c.sub p).div p).isNaN = p.isInfinite := by
  have hnan : (c.sub p).isNaN = (c.isInfinite && p.isInfinite) := by
    rw [sub, isNaN_add, isNaN_neg, isInfinite_neg, isNaN_of_zero_le hc, isNaN_of_zero_le hp]
    cases hc' : c.isInfinite with
    | false => rfl
    | true =>
      cases hp' : p.isInfinite with
      | false => rfl
      | true =>
        rw [neg, negative_of_zero_le hc hc', negative_of_zero_le hp hp']
        rfl
  rw [isNaN_div, hnan, isNaN_of_zero_le hp, hzero]
  cases hp' : p.isInfinite with
  | false => simp only [Bool.and_false, Bool.or_false]
  | true =>
    cases hc' : c.isInfinite with
    | true => rfl
    | false =>
      -- What remains of the difference is the infinity.
      have hsub : c.sub p = p.neg := by
        simp only [sub, add, isNaN_neg, isInfinite_neg, isNaN_of_zero_le hc, isNaN_of_zero_le hp,
          hc', hp', Bool.or_false, Bool.false_eq_true, if_false, if_true]
      rw [hsub, isInfinite_neg, hp']
      rfl

end Double

/-! ## Changes of prices -/

namespace Value

/-- Whether a price is infinite. -/
def isInfinitePrice : Value → Bool
  | float x => x.isInfinite
  | _ => false

end Value

namespace Stock

/-- The price of a record changed from infinity. -/
def FromInfinity (x : Stock) : Prop :=
  x.currentPrice ≠ .null ∧ x.previousPrice.isInfinitePrice = true

/-- The change of the price of a sound record is missing or a number, unless it is from infinity. -/
theorem exists_comparable_changeRate {x : Stock} (hx : x.IsSound) :
    ∃ rate, x.changeRate = .ok rate ∧ (isComparable rate = false ↔ x.FromInfinity) := by
  obtain ⟨current, hcurrent⟩ := hx.currentPrice.exists_double
  obtain ⟨previous, hprevious⟩ := hx.previousPrice.exists_double
  have hc := hx.currentPrice
  have hp := hx.previousPrice
  unfold changeRate FromInfinity
  rw [hcurrent] at hc ⊢
  rw [hprevious] at hp ⊢
  cases current with
  | none => exact ⟨none, rfl, by simp [isComparable, Value.ofDouble?]⟩
  | some current =>
    cases previous with
    | none => exact ⟨none, rfl, by simp [isComparable, Value.ofDouble?, Value.isInfinitePrice]⟩
    | some previous =>
      cases hzero : previous.isZero with
      | true =>
        refine ⟨none, if_pos hzero, fun h => (Bool.noConfusion h), fun h => ?_⟩
        rw [Double.isZero_of_isInfinite h.2] at hzero
        cases hzero
      | false =>
        refine ⟨some ((current.sub previous).div previous),
          if_neg (by simp [Value.ofDouble?, Value.isEmpty, hzero]), ?_⟩
        rw [isComparable, Option.all_some, Double.isNaN_change hc hp hzero]
        simp [Value.isInfinitePrice, Value.ofDouble?]

/-- A record may stand before another one in a ranking by the change of the price : its own change
is not smaller, and missing only if that of the other one is. -/
structure MayPrecede (x y : Stock) : Prop where
  rate : ∀ r s, x.changeRate = .ok (some r) → y.changeRate = .ok (some s) → r.lt s = false
  missing : x.changeRate = .ok none → y.changeRate = .ok none

end Stock

/-! ## Rankings in order -/

/-- Whether a figure is at least another one, by the places of the two numbers; one that is missing
is below all others. -/
def figureAtLeast : Option Double → Option Double → Bool
  | _, none => true
  | none, some _ => false
  | some x, some y => y.key ≤ x.key

/-- Of figures that can be compared, the second one is before the first one or not greater. -/
theorem not_figureBefore {f g : Option Double} (hf : isComparable f = true)
    (hg : isComparable g = true) : (!figureBefore g f) = figureAtLeast f g := by
  cases f with
  | none => cases g <;> rfl
  | some x =>
    cases g with
    | none => rfl
    | some y =>
      simp only [isComparable, Option.all_some, Bool.not_eq_true'] at hf hg
      rw [figureBefore, figureAtLeast, Double.lt, hf, hg]
      simp only [Bool.not_false, Bool.true_and, ← decide_not, Int.not_lt]

theorem figureAtLeast_trans {f g h : Option Double} (hfg : figureAtLeast f g = true)
    (hgh : figureAtLeast g h = true) : figureAtLeast f h = true := by
  cases h with
  | none => cases f <;> rfl
  | some z =>
    cases g with
    | none => cases hgh
    | some y =>
      cases f with
      | none => cases hfg
      | some x =>
        simp only [figureAtLeast, decide_eq_true_eq] at hfg hgh ⊢
        exact Int.le_trans hgh hfg

theorem figureAtLeast_total (f g : Option Double) :
    (figureAtLeast f g || figureAtLeast g f) = true := by
  cases f with
  | none => cases g <;> rfl
  | some x =>
    cases g with
    | none => rfl
    | some y => simpa [figureAtLeast] using Int.le_total y.key x.key

/-- Records are ranked in order by figures that can be compared. -/
theorem pairwise_ranked {rows : List (Option Double × Stock)}
    (h : ∀ r ∈ rows, isComparable r.1 = true) :
    (ranked rows).Pairwise fun r s => figureBefore s.1 r.1 = false := by
  -- The comparison is an order on the rows only, so it is replaced by one that is an order on all.
  have hsort := List.map_mergeSort (r := fun r s => !figureBefore s.1 r.1)
    (s := fun r s => figureAtLeast r.1 s.1) (f := id) (l := rows)
    fun r hr s hs => not_figureBefore (h r hr) (h s hs)
  rw [List.map_id, List.map_id] at hsort
  unfold ranked
  dsimp only
  rw [if_pos (List.all_eq_true.mpr h), hsort]
  have hsorted : (rows.mergeSort fun r s => figureAtLeast r.1 s.1).Pairwise fun r s =>
      figureAtLeast r.1 s.1 = true := by
    apply List.pairwise_mergeSort
    · exact fun _ _ _ => figureAtLeast_trans
    · exact fun r s => figureAtLeast_total r.1 s.1
  refine hsorted.imp_of_mem fun {r s} hr hs hle => ?_
  have hperm := List.mergeSort_perm rows fun r s => figureAtLeast r.1 s.1
  rw [← not_figureBefore (h r (hperm.mem_iff.mp hr)) (h s (hperm.mem_iff.mp hs))] at hle
  simpa using hle

/-- All sound records can be ranked, and every limit cuts the same ranking. -/
theorem Store.exists_ranking {s : Store} (hs : ∀ x ∈ s.toList, x.IsSound) :
    ∃ sorted, sorted.Perm s.toList ∧ ∀ limit, s.topGainers limit = .ok (upTo limit sorted) := by
  obtain ⟨stocks, h⟩ := s.exists_topGainers hs 0
  unfold topGainers at h ⊢
  cases hrank : rankByFigure Stock.changeRate s.toList with
  | error e =>
    rw [hrank] at h
    cases h
  | ok sorted => exact ⟨sorted, perm_rankByFigure hrank, fun limit => rfl⟩

/-- The top of a store is in order if all changes can be compared. -/
theorem Store.pairwise_topGainers {s : Store} {limit : Int} {stocks : List Stock}
    (h : s.topGainers limit = .ok stocks)
    (hrates : ∀ x ∈ s.toList, ∀ rate, x.changeRate = .ok rate → isComparable rate = true) :
    stocks.Pairwise Stock.MayPrecede := by
  unfold topGainers at h
  cases hrank : rankByFigure Stock.changeRate s.toList with
  | error e =>
    rw [hrank] at h
    cases h
  | ok sorted =>
    rw [hrank] at h
    obtain rfl := Except.ok.inj h
    obtain ⟨rows, hrows, hfigures, rfl⟩ := exists_rows_of_rankByFigure hrank
    have hsorted := pairwise_ranked fun r hr =>
      hrates r.2 (hrows ▸ List.mem_map_of_mem hr) r.1 (hfigures r hr)
    have hpairs : ((ranked rows).map Prod.snd).Pairwise Stock.MayPrecede := by
      rw [List.pairwise_map]
      refine hsorted.imp_of_mem fun {r s} hr hs hbefore => ?_
      have hr' := hfigures r ((perm_ranked rows).mem_iff.mp hr)
      have hs' := hfigures s ((perm_ranked rows).mem_iff.mp hs)
      refine ⟨fun x y hx hy => ?_, fun hx => ?_⟩
      · rw [hr', Except.ok.injEq] at hx
        rw [hs', Except.ok.injEq] at hy
        rwa [hx, hy] at hbefore
      · rw [hr', Except.ok.injEq] at hx
        rw [hx] at hbefore
        rw [hs', Except.ok.injEq]
        cases hfigure : s.1 with
        | none => rfl
        | some y =>
          rw [hfigure] at hbefore
          cases hbefore
    unfold upTo
    split_ifs
    · exact hpairs.sublist (List.take_sublist ..)
    · exact hpairs.sublist (List.take_sublist ..)

/-! ## Finite prices -/

/-- Neither price of a record is infinite. -/
structure Stock.HasFinitePrices (x : Stock) : Prop where
  currentPrice : x.currentPrice.isInfinitePrice = false
  previousPrice : x.previousPrice.isInfinitePrice = false

/-- Neither price that details give is infinite. -/
structure StockDetails.HasFinitePrices (d : StockDetails) : Prop where
  currentPrice : (Value.ofDouble? d.currentPrice).isInfinitePrice = false
  previousPrice : (Value.ofDouble? d.previousPrice).isInfinitePrice = false

theorem Value.isInfinitePrice_getD {o : Option Double} {v : Value}
    (ho : (ofDouble? o).isInfinitePrice = false) (hv : v.isInfinitePrice = false) :
    ((o.map float).getD v).isInfinitePrice = false := by
  cases o with
  | none => exact hv
  | some x => exact ho

namespace Stock

theorem HasFinitePrices.not_fromInfinity {x : Stock} (hx : x.HasFinitePrices) :
    ¬x.FromInfinity := fun h => by
  rw [FromInfinity, hx.previousPrice] at h
  cases h.2

theorem hasFinitePrices_made (id : Int) (now : Moment) {d : StockDetails} (hd : d.HasFinitePrices)
    (symbol companyName : Text) : (made id now d symbol companyName).HasFinitePrices :=
  ⟨hd.currentPrice, hd.previousPrice⟩

theorem HasFinitePrices.revised {x : Stock} (hx : x.HasFinitePrices) (now : Moment)
    {d : StockDetails} (hd : d.HasFinitePrices) : (x.revised now d).HasFinitePrices :=
  ⟨Value.isInfinitePrice_getD hd.currentPrice hx.currentPrice,
    Value.isInfinitePrice_getD hd.previousPrice hx.previousPrice⟩

/-- The old price becomes the previous one, so both have to be finite. -/
theorem HasFinitePrices.repriced {x : Stock} (hx : x.HasFinitePrices) (now : Moment)
    {price : Double} (hprice : price.isInfinite = false) (volume : Value) :
    (x.repriced now (.float price) volume).HasFinitePrices :=
  ⟨hprice, hx.currentPrice⟩

end Stock

namespace Desk

/-- No price that an errand gives is infinite. -/
def Errand.HasFinitePrices : Errand → Prop
  | createStock (some d) => d.HasFinitePrices
  | updateStock _ d => d.HasFinitePrices
  | updateStockPrice _ p => p.newPrice.isInfinite = false
  | _ => True

theorem Errand.HasFinitePrices.keeps {r : Errand} (hr : r.HasFinitePrices) (now : Moment) :
    r.Keeps Stock.HasFinitePrices now := by
  cases r with
  | createStock details =>
    cases details with
    | none => trivial
    | some d => exact fun id symbol companyName _ _ => Stock.hasFinitePrices_made id now hr _ _
  | updateStock v d => exact fun x hx => hx.revised now hr
  | updateStockPrice v p => exact fun x hx => hx.repriced now hr _
  | _ => trivial

/-! ## The ranking of a desk -/

/-- The changes of the prices at a desk are numbers as far as they are not from infinity. The
records can be ranked by them, and unless a change is from infinity, the top of the ranking is in
order. -/
structure RanksGainers (d : Desk) : Prop where
  number : ∀ x ∈ d.store.toList, ∃ rate, x.changeRate = .ok rate ∧
    (isComparable rate = false ↔ x.FromInfinity)
  ranked : ∃ sorted, sorted.Perm d.store.toList ∧
    ∀ limit, d.store.topGainers limit = .ok (upTo limit sorted)
  inOrder : (∀ x ∈ d.store.toList, ¬x.FromInfinity) → ∀ limit stocks,
    d.store.topGainers limit = .ok stocks → stocks.Pairwise Stock.MayPrecede
  answered : ∀ clock stocks, (d.handle clock .topGainers).2 = .ok (.records stocks) →
    d.store.topGainers d.topCount = .ok stocks

/-- The ranking that is answered is that of the store. -/
theorem topGainers_of_handle {d : Desk} {clock : Clock} {stocks : List Stock}
    (h : (d.handle clock .topGainers).2 = .ok (.records stocks)) :
    d.store.topGainers d.topCount = .ok stocks := by
  let ranking : Desk → Desk × Except DeskError (List Stock) :=
    answer fun s => (s.topGainers d.topCount).mapError .figure
  have heq : (d.handle clock .topGainers).2 =
      (continueWith (d.guard clock .bulkLookup .null) ranking).2.map .records := rfl
  rcases continueWith_cases (d.guard clock .bulkLookup .null) ranking with
    ⟨e, -, hfail⟩ | ⟨-, hanswer⟩
  · rw [heq, hfail] at h
    cases h
  · rw [heq, hanswer] at h
    simp only [ranking, answer, store_guard] at h
    cases htop : d.store.topGainers d.topCount with
    | error e =>
      rw [htop] at h
      cases h
    | ok top =>
      rw [htop] at h
      cases h
      rfl

theorem ranksGainers {d : Desk} (hd : ∀ x ∈ d.store.toList, x.IsSound) : d.RanksGainers where
  number x hx := Stock.exists_comparable_changeRate (hd x hx)
  ranked := Store.exists_ranking hd
  inOrder hfinite limit stocks hstocks := by
    refine Store.pairwise_topGainers hstocks fun x hx rate hrate => ?_
    obtain ⟨rate', hrate', hcomparable⟩ := Stock.exists_comparable_changeRate (hd x hx)
    obtain rfl := Except.ok.inj (hrate.symm.trans hrate')
    rw [← Bool.not_eq_false]
    exact fun h => hfinite x hx (hcomparable.mp h)
  answered _ _ := topGainers_of_handle

/-- From a desk that starts with records, if all requests were read by their models, whatever is
asked of it : the change of a price is missing or a number, unless the previous price is infinite,
and unless there is such a record, no record is ranked before one with a larger change. Only
requests with an infinite price bring such a record about. -/
theorem gainers_of_seed {records : List SeedRecord} (hr : ∀ r ∈ records, r.IsChecked)
    (now : Moment) (assessor : Assessor) (trail : Trail) (topCount : Int)
    {errands : List (Clock × Errand)} (he : ∀ e ∈ errands, e.2.IsChecked) :
    let d : Desk := ⟨(Store.seed now records .empty).1, assessor, trail, topCount⟩
    (d.after errands).RanksGainers ∧
      ((∀ r ∈ records, ∀ details, r.read = .ok details → details.HasFinitePrices) →
        (∀ e ∈ errands, e.2.HasFinitePrices) →
          ∀ x ∈ (d.after errands).store.toList, ¬x.FromInfinity) := by
  intro d
  have hordered : d.store.Ordered := Store.ordered_empty.seed now records
  have hnew : ∀ x ∈ d.store.toList, x.IsSound ∧ x.updatedAt = none := new_of_seed hr
  have hsound := isSound_after hordered (fun x hx => (hnew x hx).1) he
  refine ⟨ranksGainers hsound, fun hrecords herrands x hx => ?_⟩
  have hstart : ∀ y ∈ d.store.toList, y.HasFinitePrices := by
    refine Store.forall_mem_seed ?_ Store.ordered_empty (fun y hy => nomatch hy)
    exact fun r hmem details id symbol companyName hread _ =>
      Stock.hasFinitePrices_made id now (hrecords r hmem details hread) symbol companyName
  have hkeeps : ∀ e ∈ errands, e.2.Keeps Stock.HasFinitePrices e.1.now :=
    fun e hmem => (herrands e hmem).keeps e.1.now
  exact (forall_mem_after hordered hkeeps hstart x hx).not_fromInfinity

/-- A record whose price has doubled and one whose price is the same are ranked in order. -/
theorem gainers_of_doubled_price :
    let clock : Clock := ⟨⟨⟨2024, 2, 29⟩, 0, 0, 0, 0, none⟩, Double.zero⟩
    let two : Double := ⟨false, 1024 * Nat.pow 2 52, by decide⟩
    let records := [SeedRecord.raw (.object [("symbol", .text "ACME"),
      ("companyName", .text "Acme"), ("currentPrice", .float Double.one),
      ("previousPrice", .float Double.one)])]
    let details : StockDetails :=
      ⟨some "BETA", some "Beta", some Double.one, none, none, none, none⟩
    let errands := [(clock, Errand.createStock (some details)),
      (clock, .updateStockPrice (.int 2) ⟨two, none⟩)]
    (∀ r ∈ records, r.IsChecked) ∧ (∀ e ∈ errands, e.2.IsChecked) ∧
      ∃ a, Assessor.ofSettings {} (.cycle Double.one []) = .ok a ∧
        let d := (⟨(Store.seed clock.now records .empty).1, a, {}, 10⟩ : Desk).after errands
        d.store.toList.map Stock.changeRate = [.ok (some Double.zero), .ok (some Double.one)] ∧
          d.RanksGainers ∧
          ∃ stocks, d.store.topGainers 10 = .ok stocks ∧ stocks.Pairwise Stock.MayPrecede := by
  intro clock two records details errands
  have hr : ∀ r ∈ records, r.IsChecked := List.forall_mem_singleton.mpr trivial
  have he : ∀ e ∈ errands, e.2.IsChecked :=
    List.forall_mem_cons.mpr ⟨⟨.object [("symbol", .text "BETA"), ("companyName", .text "Beta"),
      ("currentPrice", .float Double.one)], rfl⟩,
      List.forall_mem_singleton.mpr ⟨.object [("newPrice", .float two)], rfl⟩⟩
  have hrecords : ∀ r ∈ records, ∀ x, r.read = .ok x → x.HasFinitePrices := by
    refine List.forall_mem_singleton.mpr fun x hx => ?_
    cases hx
    exact ⟨by decide, by decide⟩
  have herrands : ∀ e ∈ errands, e.2.HasFinitePrices :=
    List.forall_mem_cons.mpr ⟨⟨by decide, by decide⟩, List.forall_mem_singleton.mpr rfl⟩
  obtain ⟨a, ha, hrates⟩ : ∃ a, Assessor.ofSettings {} (.cycle Double.one []) = .ok a ∧
      ((⟨(Store.seed clock.now records .empty).1, a, {}, 10⟩ : Desk).after
        errands).store.toList.map Stock.changeRate =
        [.ok (some Double.zero), .ok (some Double.one)] :=
    ⟨_, rfl, by decide +kernel +zetaReduce⟩
  obtain ⟨hranks, hfinite⟩ := gainers_of_seed hr clock.now a {} 10 he
  obtain ⟨sorted, -, hsorted⟩ := hranks.ranked
  exact ⟨hr, he, a, ha, hrates, hranks, _, hsorted 10,
    hranks.inOrder (hfinite hrecords herrands) 10 _ (hsorted 10)⟩

/-- A record whose previous price is infinite stands between the other two, and the one whose price
has doubled behind the one whose price is the same. -/
theorem gainers_out_of_order :
    let clock : Clock := ⟨⟨⟨2024, 2, 29⟩, 0, 0, 0, 0, none⟩, Double.zero⟩
    let two : Double := ⟨false, 1024 * Nat.pow 2 52, by decide⟩
    let creation (symbol : Text) (current previous : Double) : Clock × Errand :=
      (clock, .createStock (some ⟨some symbol, some "Acme", some current, some previous, none, none,
        none⟩))
    let errands := [creation "A" Double.one Double.one,
      creation "B" Double.one (Double.infinity false), creation "C" two Double.one]
    (∀ e ∈ errands, e.2.IsChecked) ∧
      ∃ a, Assessor.ofSettings {} (.cycle Double.one []) = .ok a ∧
        let d := (⟨.empty, a, {}, 10⟩ : Desk).after errands
        ∃ stocks, d.store.topGainers 10 = .ok stocks ∧
          stocks.map Stock.changeRate = [.ok (some Double.zero), .ok (some Double.nan),
            .ok (some Double.one)] ∧ ¬stocks.Pairwise Stock.MayPrecede := by
  intro clock two creation errands
  have hchecked : ∀ e ∈ errands, e.2.IsChecked := by
    intro e he
    simp only [errands, List.mem_cons, List.not_mem_nil, or_false] at he
    rcases he with rfl | rfl | rfl
    · exact ⟨.object [("symbol", .text "A"), ("companyName", .text "Acme"),
        ("currentPrice", .float Double.one), ("previousPrice", .float Double.one)], rfl⟩
    · exact ⟨.object [("symbol", .text "B"), ("companyName", .text "Acme"),
        ("currentPrice", .float Double.one), ("previousPrice", .float (Double.infinity false))],
        rfl⟩
    · exact ⟨.object [("symbol", .text "C"), ("companyName", .text "Acme"),
        ("currentPrice", .float two), ("previousPrice", .float Double.one)], rfl⟩
  obtain ⟨a, ha, hrates⟩ : ∃ a, Assessor.ofSettings {} (.cycle Double.one []) = .ok a ∧
      (((⟨.empty, a, {}, 10⟩ : Desk).after errands).store.topGainers 10).map
        (·.map Stock.changeRate) =
      .ok [.ok (some Double.zero), .ok (some Double.nan), .ok (some Double.one)] :=
    ⟨_, rfl, by decide +kernel +zetaReduce⟩
  obtain ⟨stocks, hstocks, hmap⟩ := exists_of_map_eq_ok hrates
  refine ⟨hchecked, a, ha, stocks, hstocks, hmap, fun hpairs => ?_⟩
  have hordered : (stocks.map Stock.changeRate).Pairwise fun r s =>
      ∀ x y, r = .ok (some x) → s = .ok (some y) → x.lt y = false :=
    List.pairwise_map.mpr (hpairs.imp fun h => h.rate)
  rw [hmap] at hordered
  have hfirst : Double.zero.lt Double.one = false :=
    (List.pairwise_cons.mp hordered).1 _ (by simp) _ _ rfl rfl
  exact absurd hfirst (by decide)

end Desk

end StockRegister
