import StockRegister.Proofs.RawIds

/-!
# Updates of a record

An update writes what a request gives for some fields (`StockDetails.given?`) over those of a record
(`Stock.value?`), and the moment of the update (`Stock.value?_revised`). A request is determined by
what it gives (`StockDetails.eq_of_given?`), and two of them make one, which takes what the second
one gives and otherwise what the first one does (`StockDetails.overlaidBy`).

So updates of one record are put together as requests are (`Stock.revised_revised`), and in a store
one update after the other is one update (`Store.Ordered.apply_update_update`). Stores are compared
without the moments of updates (`Store.unstamped`). `Store.UpdatesCompose` has the laws that follow,
for a store and an id, and `updatesCompose_applyAll_empty` proves them of every store that any
changes lead to.
-/

namespace StockRegister

open Schema

/-! ## Values and null -/

namespace Value

/-- A value, unless it is null. -/
def known? : Value → Option Value
  | null => none
  | v => some v

theorem known?_ofText? (o : Option Text) : (ofText? o).known? = o.map text := by
  cases o <;> rfl

theorem known?_ofDouble? (o : Option Double) : (ofDouble? o).known? = o.map float := by
  cases o <;> rfl

theorem known?_ofInt? (o : Option Int) : (ofInt? o).known? = o.map int := by
  cases o <;> rfl

theorem ofText?_or (o o' : Option Text) :
    ofText? (o.or o') = (o.map text).getD (ofText? o') := by
  cases o <;> rfl

theorem ofDouble?_or (o o' : Option Double) :
    ofDouble? (o.or o') = (o.map float).getD (ofDouble? o') := by
  cases o <;> rfl

end Value

/-! ## Fields by their names -/

/-- What is written under a name. -/
def valueAt? : List (Field × Value) → String → Option Value
  | [], _ => none
  | (f, v) :: rest, name => if name = f.name then some v else valueAt? rest name

/-- A value that is changed by its name is found as changed. -/
theorem valueAt?_map (change : String → Value → Value) (entries : List (Field × Value))
    (name : String) :
    valueAt? (entries.map fun e => (e.1, change e.1.name e.2)) name =
      (valueAt? entries name).map (change name) := by
  induction entries with
  | nil => rfl
  | cons e entries ih =>
    simp only [List.map_cons, valueAt?, ih]
    split_ifs with hname
    · rw [hname]
      rfl
    · rfl

namespace StockDetails

/-- What a request gives for the field of a name; null gives nothing. -/
def given? (d : StockDetails) (name : String) : Option Value :=
  (valueAt? d.entries name).bind Value.known?

theorem given?_eq (d : StockDetails) (name : String) :
    d.given? name =
      if name = "symbol" then d.symbol.map .text
      else if name = "company_name" then d.companyName.map .text
      else if name = "current_price" then d.currentPrice.map .float
      else if name = "previous_price" then d.previousPrice.map .float
      else if name = "volume" then d.volume.map .int
      else if name = "market_cap" then d.marketCap.map .float
      else if name = "sector" then d.sector.map .text
      else none := by
  simp only [← Value.known?_ofText?, ← Value.known?_ofDouble?, ← Value.known?_ofInt?]
  simp only [given?, entries, valueAt?, Stock.symbolField, Stock.companyNameField,
    Stock.currentPriceField, Stock.previousPriceField, Stock.volumeField, Stock.marketCapField,
    Stock.sectorField, Field.plain, Field.spelled]
  split_ifs <;> rfl

/-- Requests that give the same for every field are the same. -/
theorem eq_of_given? {a b : StockDetails} (h : ∀ name, a.given? name = b.given? name) : a = b := by
  have htext : Function.Injective (Option.map Value.text) :=
    Option.map_injective fun _ _ => Value.text.inj
  have hfloat : Function.Injective (Option.map Value.float) :=
    Option.map_injective fun _ _ => Value.float.inj
  have hint : Function.Injective (Option.map Value.int) :=
    Option.map_injective fun _ _ => Value.int.inj
  obtain ⟨symbol, companyName, current, previous, volume, cap, sector⟩ := a
  rw [mk.injEq]
  refine ⟨htext ?_, htext ?_, hfloat ?_, hfloat ?_, hint ?_, hfloat ?_, htext ?_⟩
  · simpa only [given?_eq, String.reduceEq, if_true, if_false] using h "symbol"
  · simpa only [given?_eq, String.reduceEq, if_true, if_false] using h "company_name"
  · simpa only [given?_eq, String.reduceEq, if_true, if_false] using h "current_price"
  · simpa only [given?_eq, String.reduceEq, if_true, if_false] using h "previous_price"
  · simpa only [given?_eq, String.reduceEq, if_true, if_false] using h "volume"
  · simpa only [given?_eq, String.reduceEq, if_true, if_false] using h "market_cap"
  · simpa only [given?_eq, String.reduceEq, if_true, if_false] using h "sector"

/-- The request that takes what the second one gives, and for all other fields what the first one
does. -/
def overlaidBy (a b : StockDetails) : StockDetails where
  symbol := b.symbol.or a.symbol
  companyName := b.companyName.or a.companyName
  currentPrice := b.currentPrice.or a.currentPrice
  previousPrice := b.previousPrice.or a.previousPrice
  volume := b.volume.or a.volume
  marketCap := b.marketCap.or a.marketCap
  sector := b.sector.or a.sector

theorem given?_overlaidBy (a b : StockDetails) (name : String) :
    (a.overlaidBy b).given? name = (b.given? name).or (a.given? name) := by
  simp only [given?_eq]
  split_ifs <;> simp [overlaidBy, Option.map_or]

theorem overlaidBy_self (a : StockDetails) : a.overlaidBy a = a :=
  eq_of_given? fun name => by rw [given?_overlaidBy, Option.or_self]

/-- For no field do two requests give different values. -/
def Agrees (a b : StockDetails) : Prop :=
  ∀ name v w, a.given? name = some v → b.given? name = some w → v = w

theorem Agrees.overlaidBy_comm {a b : StockDetails} (h : a.Agrees b) :
    a.overlaidBy b = b.overlaidBy a := by
  refine eq_of_given? fun name => ?_
  rw [given?_overlaidBy, given?_overlaidBy]
  cases ha : a.given? name with
  | none => rw [Option.or_none, Option.none_or]
  | some v =>
    cases hb : b.given? name with
    | none => rfl
    | some w => rw [h name v w ha hb]

end StockDetails

/-! ## Records -/

namespace Stock

/-- The value of the field of a name. -/
def value? (r : Stock) (name : String) : Option Value := valueAt? r.entries name

/-- An update writes the moment of it and what the request gives over the fields of a record. -/
theorem entries_revised (r : Stock) (now : Moment) (d : StockDetails) :
    (r.revised now d).entries = r.entries.map fun e =>
      (e.1, if e.1.name = "updated_at" then .moment now else (d.given? e.1.name).getD e.2) := by
  simp only [entries, revised, List.map_cons, List.map_nil, StockDetails.given?_eq]
  simp [idField, symbolField, companyNameField, currentPriceField, previousPriceField,
    volumeField, marketCapField, sectorField, createdAtField, updatedAtField, Field.plain,
    Field.spelled, Value.ofDouble?_or, Value.ofText?_or, momentValue]

/-- An update gives each field that the request names its value, and sets the moment of the update.
All other fields keep theirs. -/
theorem value?_revised (r : Stock) (now : Moment) (d : StockDetails) (name : String) :
    (r.revised now d).value? name = (r.value? name).map fun v =>
      if name = "updated_at" then .moment now else (d.given? name).getD v := by
  rw [value?, entries_revised]
  exact valueAt?_map (fun name v => if name = "updated_at" then .moment now
    else (d.given? name).getD v) r.entries name

/-- Two updates of a record are one by what both requests give. -/
theorem revised_revised (r : Stock) (now now' : Moment) (a b : StockDetails) :
    (r.revised now a).revised now' b = r.revised now' (a.overlaidBy b) := by
  simp only [revised, StockDetails.overlaidBy, Option.map_or, Option.getD_or, Option.or_assoc]

/-- If two requests give values for a field that are related, then the field has related values
after both updates, whichever is the last. -/
theorem rel_value?_revised {R : Value → Value → Prop} {a b : StockDetails} {name : String}
    (r : Stock) (now : Moment) (hrefl : ∀ v, R v v)
    (h : ∀ v w, a.given? name = some v → b.given? name = some w → R w v) :
    Option.Rel R ((r.revised now (a.overlaidBy b)).value? name)
      ((r.revised now (b.overlaidBy a)).value? name) := by
  rw [value?_revised, value?_revised, StockDetails.given?_overlaidBy,
    StockDetails.given?_overlaidBy]
  cases r.value? name with
  | none => exact .none
  | some u =>
    refine .some ?_
    split_ifs
    · exact hrefl _
    · cases ha : a.given? name with
      | none => rw [Option.or_none, Option.none_or]; exact hrefl _
      | some v =>
        cases hb : b.given? name with
        | none => exact hrefl _
        | some w => exact h v w ha hb

/-- A record without the moment of its last update. -/
def unstamped (r : Stock) : Stock := { r with updatedAt := none }

end Stock

/-! ## Stores -/

namespace Store

/-- A store with all records taken without the moment of their last update. -/
def unstamped (s : Store) : Store := s.mapStocks Stock.unstamped

variable {s : Store} {i : Int}

/-- What is left twice in the place of a record. -/
theorem leave_leave (left left' : Stock → Option Stock) :
    (s.leave i left).leave i left' = s.leave i fun r => (left r).bind left' := by
  unfold leave
  simp only [List.filterMap_filterMap]
  congr 2
  funext e
  by_cases hi : e.1 = i
  · cases left e.2 <;> simp [hi]
  · simp only [if_neg hi, Option.bind_some]

/-- Where there is no record under an id, nothing is left otherwise. -/
theorem leave_of_get?_eq_none (hget : s.get? i = none) (left : Stock → Option Stock) :
    s.leave i left = s := by
  have hkeys : ∀ e ∈ s.entries, e.1 ≠ i := fun e he => by
    have hne : i ≠ e.1 := by simpa using List.lookup_eq_none_iff.mp hget e he
    exact hne.symm
  have hentries : s.entries.filterMap (fun e => if e.1 = i then (left e.2).map (e.1, ·) else some e)
      = s.entries := by
    rw [List.filterMap_congr fun e he => if_neg (hkeys e he), List.filterMap_some]
  rw [leave, hentries]

namespace Ordered

/-- An update leaves the revised record in the place of the old one, if there is one. -/
theorem apply_update (h : s.Ordered) (now : Moment) (i : Int) (d : StockDetails) :
    s.apply (.update now i d) = s.leave i fun r => some (r.revised now d) := by
  unfold Store.apply update
  dsimp only
  rw [h.modify_eq_leave]
  cases hget : s.get? i with
  | none => exact (leave_of_get?_eq_none hget _).symm
  | some r => rfl

/-- Two updates under an id are one by what both requests give. -/
theorem apply_update_update (h : s.Ordered) (now now' : Moment) (i : Int) (a b : StockDetails) :
    (s.apply (.update now i a)).apply (.update now' i b) =
      s.apply (.update now' i (a.overlaidBy b)) := by
  rw [(h.apply _).apply_update, h.apply_update, h.apply_update, leave_leave]
  simp only [Option.bind_some, Stock.revised_revised]

/-- Without the moments of updates, it does not matter when an update is made. -/
theorem unstamped_apply_update (h : s.Ordered) (now now' : Moment) (i : Int) (d : StockDetails) :
    (s.apply (.update now i d)).unstamped = (s.apply (.update now' i d)).unstamped := by
  rw [h.apply_update, h.apply_update]
  exact mapStocks_leave_congr fun r => rfl

/-- The record under an id after an update. -/
theorem get?_apply_update (h : s.Ordered) (now : Moment) (i : Int) (d : StockDetails) :
    (s.apply (.update now i d)).get? i = (s.get? i).map fun r => r.revised now d := by
  rw [h.apply_update, get?_leave_self h]
  cases s.get? i <;> rfl

end Ordered

/-- The laws of updates under an id. -/
structure UpdatesCompose (s : Store) (i : Int) : Prop where
  unknown : s.get? i = none → ∀ now d, s.update now i d = none ∧ s.apply (.update now i d) = s
  /-- The fields that are given and the moment of the update are set. All else of the record is as
  it was, and so are all other records, their order and the next id. -/
  stored : ∀ r, s.get? i = some r → ∀ now d, ∃ r' s', s.update now i d = some (r', s') ∧
    s.apply (.update now i d) = s' ∧
    (∀ name, r'.value? name = (r.value? name).map fun v =>
      if name = "updated_at" then .moment now else (d.given? name).getD v) ∧
    s'.toList = (s.toList.map fun x => if x.id = i then r' else x) ∧ s'.nextId = s.nextId
  composed : ∀ a b : StockDetails, ∃ c : StockDetails,
    (∀ name, c.given? name = (b.given? name).or (a.given? name)) ∧ ∀ now now' later,
      ((s.apply (.update now i a)).apply (.update now' i b)).unstamped =
        (s.apply (.update later i c)).unstamped
  idempotent : ∀ a now now',
    ((s.apply (.update now i a)).apply (.update now' i a)).unstamped =
      (s.apply (.update now i a)).unstamped
  commute : ∀ a b : StockDetails, a.Agrees b → ∀ now now' later later',
    ((s.apply (.update now i a)).apply (.update now' i b)).unstamped =
      ((s.apply (.update later i b)).apply (.update later' i a)).unstamped
  /-- Where two requests give values that only count as the same, the records do as well. -/
  alike : ∀ (R : Value → Value → Prop) (a b : StockDetails), (∀ v, R v v) →
    (∀ name v w, a.given? name = some v → b.given? name = some w → R w v) → ∀ now now' x y,
      ((s.apply (.update now i a)).apply (.update now' i b)).get? i = some x →
        ((s.apply (.update now i b)).apply (.update now' i a)).get? i = some y →
          ∀ name, Option.Rel R (x.value? name) (y.value? name)

theorem Ordered.updatesCompose (h : s.Ordered) (i : Int) : s.UpdatesCompose i where
  unknown hget now d := by
    refine ⟨modify_eq_none_iff.mpr hget, ?_⟩
    rw [h.apply_update, leave_of_get?_eq_none hget]
  stored r hr now d := by
    have hm : s.update now i d =
        some (r.revised now d, s.leave i fun r => some (r.revised now d)) := by
      rw [update, h.modify_eq_leave, hr]
      rfl
    exact ⟨_, _, hm, h.apply_update .., r.value?_revised now d, h.toList_of_modify hm, rfl⟩
  composed a b := by
    refine ⟨a.overlaidBy b, a.given?_overlaidBy b, fun now now' later => ?_⟩
    rw [h.apply_update_update, h.unstamped_apply_update]
  idempotent a now now' := by
    rw [h.apply_update_update, a.overlaidBy_self, h.unstamped_apply_update]
  commute a b hab now now' later later' := by
    rw [h.apply_update_update, h.apply_update_update, hab.overlaidBy_comm, h.unstamped_apply_update]
  alike R a b hrefl hab now now' x y hx hy name := by
    rw [h.apply_update_update, h.get?_apply_update] at hx hy
    obtain ⟨r, hr, rfl⟩ := Option.map_eq_some_iff.mp hx
    obtain ⟨r', hr', rfl⟩ := Option.map_eq_some_iff.mp hy
    obtain rfl := Option.some.inj (hr.symm.trans hr')
    exact r.rel_value?_revised now' hrefl (hab name)

/-- The laws of updates hold in every store that any changes lead to, for every id : an update sets
what it gives and nothing else, two of them are one by what both give, so they may be repeated, and
they may be exchanged unless they give different values for a field. -/
theorem updatesCompose_applyAll_empty (changes : List Change) (i : Int) :
    (empty.applyAll changes).UpdatesCompose i :=
  (ordered_applyAll_empty changes).1.updatesCompose i

end Store

end StockRegister
