import StockRegister.Proofs.Revisions

/-!
# The history of prices

An update and a new price both write the current and the previous price of a record, and the volume.
An update writes what it gives. A new price always becomes the current one, and the one that the
record had becomes the previous price, which may be null. What a change makes of a record is a
function of the record (`Store.Change.act`), and a store that comes of changes has what they make of
its records one after the other, if none of them takes the record out
(`Store.Ordered.get?_applyAll`).

So the current price is what the last change gave that gives one, and so is the volume
(`Store.Change.actAll_eq_last`). The previous price was decided by the last change that decides on
it (`Store.PreviousBy`) : it was given, or it is what the current price was just before a new one.
`Store.priceHistory_applyAll_empty` puts these together for all records and changes.
-/

namespace StockRegister

namespace Store

namespace Change

/-! ## One change -/

/-- What a change makes of a record that it does not take out. -/
def act (r : Stock) : Change → Stock
  | update now i d => if r.id = i then r.revised now d else r
  | updatePrice now i price volume => if r.id = i then r.repriced now price volume else r
  | _ => r

/-- The current price that a change sets of the record with an id. -/
def price? (i : Int) : Change → Option Value
  | update _ j d => if i = j then d.currentPrice.map .float else none
  | updatePrice _ j price _ => if i = j then some price else none
  | _ => none

/-- The volume that a change sets of the record with an id; null sets none. -/
def volume? (i : Int) : Change → Option Value
  | update _ j d => if i = j then d.volume.map .int else none
  | updatePrice _ j _ volume => if i = j then volume.known? else none
  | _ => none

/-- A change decides on the previous price of the record with an id : it sets a new price, or it is
an update that gives a previous one. -/
def DecidesPrevious (i : Int) : Change → Prop
  | update _ j d => i = j ∧ d.previousPrice ≠ none
  | updatePrice _ j _ _ => i = j
  | _ => False

@[simp] theorem id_act (r : Stock) (c : Change) : (act r c).id = r.id := by
  cases c <;> simp only [act] <;> split_ifs <;> rfl

theorem currentPrice_act (r : Stock) (c : Change) :
    (act r c).currentPrice = (c.price? r.id).getD r.currentPrice := by
  cases c with
  | update now i d =>
    simp only [act, price?]
    split_ifs <;> rfl
  | updatePrice now i price volume =>
    simp only [act, price?]
    split_ifs <;> rfl
  | _ => rfl

theorem volume_act (r : Stock) (c : Change) :
    (act r c).volume = (c.volume? r.id).getD r.volume := by
  cases c with
  | update now i d =>
    simp only [act, volume?]
    split_ifs <;> rfl
  | updatePrice now i price volume =>
    simp only [act, volume?]
    split_ifs
    · cases volume <;> rfl
    · rfl
  | _ => rfl

/-- A new price writes over the record that it is for. -/
theorem act_updatePrice (r : Stock) (now : Moment) (price volume : Value) :
    act r (.updatePrice now r.id price volume) = r.repriced now price volume :=
  if_pos rfl

theorem previousPrice_act_update {r : Stock} {now : Moment} {d : StockDetails} {price : Double}
    (h : d.previousPrice = some price) :
    (act r (.update now r.id d)).previousPrice = .float price := by
  simp only [act, if_true, Stock.revised, h, Option.map_some, Option.getD_some]

theorem previousPrice_act_of_not {r : Stock} {c : Change} (h : ¬c.DecidesPrevious r.id) :
    (act r c).previousPrice = r.previousPrice := by
  cases c with
  | update now i d =>
    simp only [act]
    split_ifs with hi
    · have hnone : d.previousPrice = none := by simpa [DecidesPrevious, hi] using h
      simp only [Stock.revised, hnone, Option.map_none, Option.getD_none]
    · rfl
  | updatePrice now i price volume => exact congrArg _ (if_neg h)
  | _ => rfl

/-! ## Changes one after the other -/

/-- What changes make of a record, one after the other. -/
def actAll (r : Stock) (changes : List Change) : Stock := changes.foldl act r

@[simp] theorem id_actAll (r : Stock) (changes : List Change) : (actAll r changes).id = r.id := by
  induction changes generalizing r with
  | nil => rfl
  | cons c changes ih => exact (ih (act r c)).trans (id_act r c)

theorem actAll_concat (r : Stock) (changes : List Change) (c : Change) :
    actAll r (changes ++ [c]) = act (actAll r changes) c :=
  List.foldl_concat ..

/-- What is written over by every change that gives it is in the end what was given last. -/
theorem actAll_eq_last {get : Stock → Value} (write : Int → Change → Option Value)
    (h : ∀ r c, get (act r c) = (write r.id c).getD (get r)) (r : Stock)
    (changes : List Change) :
    get (actAll r changes) = ((changes.filterMap (write r.id)).getLast?).getD (get r) := by
  induction changes generalizing r with
  | nil => rfl
  | cons c changes ih =>
    have hrest := ih (act r c)
    rw [id_act, h] at hrest
    rw [actAll, List.foldl_cons, ← actAll, hrest]
    cases hc : write r.id c with
    | none => rw [List.filterMap_cons_none hc]; rfl
    | some v => rw [List.filterMap_cons_some hc, List.getLast?_cons]; rfl

end Change

/-! ## Records of a store -/

variable {s : Store} {i : Int}

/-- A record that a change does not take out is in the store as the change makes it. -/
theorem Ordered.get?_apply (h : s.Ordered) {r : Stock} (hr : s.get? i = some r) {c : Change}
    (hc : c ≠ .remove i) : (s.apply c).get? i = some (c.act r) := by
  obtain ⟨hmem, rfl⟩ := h.get?_eq_some_iff.mp hr
  refine (h.apply c).get?_eq_some_iff.mpr ⟨?_, Change.id_act r c⟩
  have hplaces := h.keepsPlaces
  cases c with
  | add now d => exact (hplaces.add now d).subset hmem
  | seed now records => exact (hplaces.seed now records).subset hmem
  | update now j d =>
    rw [hplaces.update]
    exact List.mem_map_of_mem (f := fun r => if r.id = j then r.revised now d else r) hmem
  | updatePrice now j price volume =>
    rw [hplaces.updatePrice]
    exact List.mem_map_of_mem (f := fun r => if r.id = j then r.repriced now price volume else r)
      hmem
  | remove j =>
    rw [hplaces.remove, List.mem_filter]
    exact ⟨hmem, by simpa using fun heq => hc (congrArg _ heq.symm)⟩

/-- A record that no change takes out is in the store as the changes make it. -/
theorem Ordered.get?_applyAll (h : s.Ordered) {r : Stock} (hr : s.get? i = some r)
    {changes : List Change} (hc : ∀ c ∈ changes, c ≠ .remove i) :
    (s.applyAll changes).get? i = some (Change.actAll r changes) := by
  induction changes generalizing s r with
  | nil => exact hr
  | cons c changes ih =>
    obtain ⟨hfirst, hrest⟩ := List.forall_mem_cons.mp hc
    exact ih (h.apply c) (h.get?_apply hr hfirst) hrest

/-! ## The previous price -/

/-- Where the previous price of a record of a store comes from after changes : it was not decided
on, or the last change that decided on it gave it, or that change set a new price and the previous
one is the current price that the record had just before it. -/
inductive PreviousBy (s : Store) (i : Int) (r : Stock) (changes : List Change) : Value → Prop
  | kept : (∀ c ∈ changes, ¬c.DecidesPrevious i) → PreviousBy s i r changes r.previousPrice
  | given {before after : List Change} {now : Moment} {d : StockDetails} {price : Double} :
      changes = before ++ .update now i d :: after → d.previousPrice = some price →
        (∀ c ∈ after, ¬c.DecidesPrevious i) → PreviousBy s i r changes (.float price)
  | shifted {before after : List Change} {now : Moment} {price volume : Value} {r' : Stock} :
      changes = before ++ .updatePrice now i price volume :: after →
        (s.applyAll before).get? i = some r' → (∀ c ∈ after, ¬c.DecidesPrevious i) →
          PreviousBy s i r changes r'.currentPrice

/-- A change that does not decide on the previous price may follow. -/
theorem PreviousBy.append_singleton {r : Stock} {changes : List Change} {v : Value}
    (h : PreviousBy s i r changes v) {c : Change} (hc : ¬c.DecidesPrevious i) :
    PreviousBy s i r (changes ++ [c]) v := by
  have hmore {after : List Change} (hafter : ∀ c ∈ after, ¬c.DecidesPrevious i) :
      ∀ x ∈ after ++ [c], ¬x.DecidesPrevious i :=
    List.forall_mem_append.mpr ⟨hafter, List.forall_mem_singleton.mpr hc⟩
  cases h with
  | kept hall => exact .kept (hmore hall)
  | given heq hprice hafter =>
    exact .given (by rw [heq, List.append_assoc, List.cons_append]) hprice (hmore hafter)
  | shifted heq hget hafter =>
    exact .shifted (by rw [heq, List.append_assoc, List.cons_append]) hget (hmore hafter)

theorem Ordered.previousBy (h : s.Ordered) {r : Stock} (hr : s.get? i = some r)
    {changes : List Change} (hc : ∀ c ∈ changes, c ≠ .remove i) :
    PreviousBy s i r changes (Change.actAll r changes).previousPrice := by
  induction changes using List.reverseRecOn with
  | nil => exact .kept fun c hc => nomatch hc
  | append_singleton changes c ih =>
    obtain ⟨hchanges, -⟩ := List.forall_mem_append.mp hc
    have hprevious := ih hchanges
    have hget := h.get?_applyAll hr hchanges
    rw [Change.actAll_concat]
    generalize Change.actAll r changes = r' at hprevious hget ⊢
    obtain rfl := ((h.applyAll changes).get?_eq_some_iff.mp hget).2
    by_cases hdecides : c.DecidesPrevious r'.id
    · cases c with
      | update now j d =>
        obtain ⟨rfl, hgiven⟩ := hdecides
        obtain ⟨price, hprice⟩ := Option.ne_none_iff_exists'.mp hgiven
        rw [Change.previousPrice_act_update hprice]
        exact .given rfl hprice fun c hc => nomatch hc
      | updatePrice now j price volume =>
        obtain rfl : r'.id = j := hdecides
        rw [Change.act_updatePrice]
        exact .shifted rfl hget fun c hc => nomatch hc
      | _ => cases hdecides
    · rw [Change.previousPrice_act_of_not hdecides]
      exact hprevious.append_singleton hdecides

/-! ## The history of a record -/

/-- What changes that do not take a record out leave of its prices and its volume. -/
structure PriceHistory (s : Store) (i : Int) (r : Stock) (changes : List Change) (r' : Stock) :
    Prop where
  found : (s.applyAll changes).get? i = some r'
  currentPrice : r'.currentPrice =
    ((changes.filterMap (Change.price? i)).getLast?).getD r.currentPrice
  previousPrice : PreviousBy s i r changes r'.previousPrice
  volume : r'.volume = ((changes.filterMap (Change.volume? i)).getLast?).getD r.volume
  /-- After two new prices without another one between them they are the two prices. -/
  consecutive : ∀ before between now now' first second volume volume',
    changes = before ++ .updatePrice now i first volume ::
      (between ++ [.updatePrice now' i second volume']) →
    (∀ c ∈ between, c.price? i = none) → r'.currentPrice = second ∧ r'.previousPrice = first

theorem Ordered.priceHistory (h : s.Ordered) {r : Stock} (hr : s.get? i = some r)
    {changes : List Change} (hc : ∀ c ∈ changes, c ≠ .remove i) :
    PriceHistory s i r changes (Change.actAll r changes) := by
  have hid : r.id = i := (h.get?_eq_some_iff.mp hr).2
  have hcurrent := Change.actAll_eq_last Change.price? Change.currentPrice_act r
  have hvolume := Change.actAll_eq_last Change.volume? Change.volume_act r changes
  rw [hid] at hcurrent hvolume
  refine ⟨h.get?_applyAll hr hc, hcurrent changes, h.previousBy hr hc, hvolume, ?_⟩
  rintro before between now now' first second volume volume' rfl hbetween
  -- Just before the second price, the current price is the first one.
  have hfirst := hcurrent (before ++ .updatePrice now i first volume :: between)
  have hgives : Change.price? i (.updatePrice now i first volume) = some first := if_pos rfl
  rw [List.filterMap_append, List.filterMap_cons_some hgives,
    List.filterMap_eq_nil_iff.mpr hbetween, List.getLast?_concat, Option.getD_some] at hfirst
  rw [← List.cons_append, ← List.append_assoc, Change.actAll_concat]
  generalize hr' : Change.actAll r (before ++ .updatePrice now i first volume :: between) = r'
    at hfirst ⊢
  obtain rfl : r'.id = i := by rw [← hr', Change.id_actAll, hid]
  rw [Change.act_updatePrice]
  exact ⟨rfl, hfirst⟩

/-- In every store that any changes lead to, further changes that do not take out a record leave the
price and the volume that were given to it last. Its previous price is what the last change that
decides on it made of it, or the old one. -/
theorem priceHistory_applyAll_empty (start : List Change) {i : Int} {r : Stock}
    (hr : (empty.applyAll start).get? i = some r) {changes : List Change}
    (hc : ∀ c ∈ changes, c ≠ .remove i) :
    ∃ r', PriceHistory (empty.applyAll start) i r changes r' :=
  ⟨_, (ordered_applyAll_empty start).1.priceHistory hr hc⟩

/-- A new price for a record that has none makes null of the previous price that was known. Then an
update gives a volume and leaves the prices, another record is added and changed, and the next new
price makes the first one the previous price. -/
theorem priceHistory_of_unknown_price :
    let now : Moment := ⟨⟨2024, 2, 29⟩, 0, 0, 0, 0, none⟩
    let acme : StockDetails :=
      ⟨some "ACME", some "Acme", none, some Double.one, some 5, none, none⟩
    let beta : StockDetails := ⟨some "BETA", some "Beta", none, none, none, none, none⟩
    let volume : StockDetails := ⟨none, none, none, none, some 7, none, none⟩
    let start := [Change.add now acme]
    let first := [Change.updatePrice now 1 (.int 3) .null]
    let between := [.update now 1 volume, .add now beta, .updatePrice now 2 (.int 9) (.int 9)]
    let changes := first ++ (between ++ [.updatePrice now 1 (.int 4) .null])
    ∃ r r' r'', (empty.applyAll start).get? 1 = some r ∧ (∀ c ∈ changes, c ≠ .remove 1) ∧
      PriceHistory (empty.applyAll start) 1 r first r' ∧
      PriceHistory (empty.applyAll start) 1 r changes r'' ∧
      r.previousPrice = .float Double.one ∧ r'.previousPrice = .null ∧
      r''.currentPrice = .int 4 ∧ r''.previousPrice = .int 3 ∧ r''.volume = .int 7 := by
  intro now acme beta volume start first between changes
  obtain ⟨r, hr, hprevious⟩ : ∃ r, (empty.applyAll start).get? 1 = some r ∧
      r.previousPrice = .float Double.one := ⟨_, rfl, rfl⟩
  have hkept : ∀ c ∈ changes, c ≠ .remove 1 := by simp [changes, first, between]
  obtain ⟨r', h'⟩ := priceHistory_applyAll_empty start hr (List.forall_mem_append.mp hkept).1
  obtain ⟨r'', h''⟩ := priceHistory_applyAll_empty start hr hkept
  have hnull : (((empty.applyAll start).applyAll first).get? 1).map Stock.previousPrice =
      some .null := rfl
  obtain ⟨hcurrent, hlast⟩ := h''.consecutive [] between now now (.int 3) (.int 4) .null .null
    rfl (by simp [between, Change.price?, volume])
  rw [h'.found] at hnull
  exact ⟨r, r', r'', hr, hkept, h', h'', hprevious, Option.some.inj hnull, hcurrent, hlast,
    h''.volume⟩

end Store

end StockRegister
