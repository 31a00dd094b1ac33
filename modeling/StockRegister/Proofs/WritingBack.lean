import StockRegister.Proofs.Revisions
import StockRegister.Proofs.Service
import StockRegister.Proofs.Spellings
import StockRegister.Web.Response

/-!
# Writing a record back

What is read of an object that shows a record in the fields of a request (`Stock.ShownBy`) are
details that copy the record (`StockDetails.Copies`), since a sound record keeps the bounds of
requests. So an update with them writes over each field what is there, and a new record that is made
of them has the same symbol, company name, prices, volume, market capitalisation and sector.

A response shows a record without the figures that are infinite (`Stock.keeping`). In an update
these are null, which leaves them as they are, but a new record is made without them.
`Desk.takesBack_of_seed` says both of all records that a desk comes to have, and
`Desk.not_takesBack_of_unboundedHistory` that a record with an infinite figure is not made anew as
it was.
-/

namespace StockRegister

open Schema Web

/-! ## Leaving out numbers -/

namespace Value

/-- A value, with null in the place of a number that is not kept. -/
def keeping (keep : Double → Bool) : Value → Value
  | float x => if keep x then float x else null
  | v => v

variable {keep : Double → Bool} {v : Value}

theorem IsPrice.keeping (h : v.IsPrice) (keep : Double → Bool) : (v.keeping keep).IsPrice := by
  cases v with
  | float x =>
    rw [Value.keeping]
    split_ifs
    · exact h
    · trivial
  | null => trivial
  | _ => cases h

theorem keeping_eq_self (h : ∀ x, v = float x → keep x) : v.keeping keep = v := by
  cases v with
  | float x => exact if_pos (h x rfl)
  | _ => rfl

/-- What is left of a value, written over it, leaves it as it is. -/
theorem getD_of_keeping {o : Option Double} (h : ofDouble? o = v.keeping keep) :
    (o.map float).getD v = v := by
  cases o with
  | none => rfl
  | some x =>
    cases v with
    | float y =>
      rw [Value.keeping] at h
      split_ifs at h
      · exact h
      · cases h
    | _ => exact h

theorem jsonNumber_eq_keeping (v : Value) : jsonNumber v = v.keeping Double.isFinite := by
  cases v <;> rfl

end Value

namespace Stock

/-- A record, with null in the place of prices and of a market capitalisation that are not kept. -/
def keeping (keep : Double → Bool) (x : Stock) : Stock :=
  { x with
    currentPrice := x.currentPrice.keeping keep
    previousPrice := x.previousPrice.keeping keep
    marketCap := x.marketCap.filter keep }

variable {keep : Double → Bool} {x : Stock}

theorem ofDouble?_filter (o : Option Double) :
    Value.ofDouble? (o.filter keep) = (Value.ofDouble? o).keeping keep := by
  cases o with
  | none => rfl
  | some y => cases hy : keep y <;> simp [Value.ofDouble?, Value.keeping, Option.filter, hy]

protected theorem IsSound.keeping (hx : x.IsSound) (keep : Double → Bool) :
    (x.keeping keep).IsSound where
  one_le_id := hx.one_le_id
  currentPrice := hx.currentPrice.keeping keep
  previousPrice := hx.previousPrice.keeping keep
  volume := hx.volume
  marketCap := by
    rw [keeping, ofDouble?_filter]
    exact hx.marketCap.keeping keep

theorem keeping_eq_self (h : ∀ y, x.currentPrice = .float y ∨ x.previousPrice = .float y ∨
    x.marketCap = some y → keep y) : x.keeping keep = x := by
  have hcap : x.marketCap.filter keep = x.marketCap := by
    cases hm : x.marketCap with
    | none => rfl
    | some y => simp [Option.filter, h y (.inr (.inr hm))]
  rw [keeping, hcap, Value.keeping_eq_self fun y hy => h y (.inl hy),
    Value.keeping_eq_self fun y hy => h y (.inr (.inl hy))]

/-- A response shows a sound record without the figures that are infinite. -/
theorem IsSound.stockBody_eq (hx : x.IsSound) :
    stockBody x = (Record.stock (x.keeping Double.isFinite)).write .preferred := by
  obtain ⟨volume, hvolume⟩ := hx.volume.exists_int
  have hvolume' : x.volume.keeping Double.isFinite = x.volume := by
    rw [hvolume]
    cases volume <;> rfl
  have hmoment (o : Option Moment) :
      (momentValue o).keeping Double.isFinite = momentValue o := by cases o <;> rfl
  have htext (o : Option Text) :
      (Value.ofText? o).keeping Double.isFinite = Value.ofText? o := by cases o <;> rfl
  rw [stockBody, Record.write, Record.entries]
  congr 1
  simp only [entries, List.map_cons, List.map_nil, Value.jsonNumber_eq_keeping, hvolume', hmoment,
    htext, keeping, ofDouble?_filter]
  rfl

end Stock

/-! ## Requests that copy a record -/

/-- The details of a request are those of a record. -/
structure StockDetails.Copies (d : StockDetails) (x : Stock) : Prop where
  symbol : d.symbol = some x.symbol
  companyName : d.companyName = some x.companyName
  currentPrice : .ofDouble? d.currentPrice = x.currentPrice
  previousPrice : .ofDouble? d.previousPrice = x.previousPrice
  volume : .ofInt? d.volume = x.volume
  marketCap : d.marketCap = x.marketCap
  sector : d.sector = x.sector

namespace Stock

variable {x : Stock} {o : Fields}

/-- The fields of a record that a request may give. -/
def payload (x : Stock) : List (Field × Value) := (x.entries.drop 1).take 7

/-- An object gives what a record has in the fields of a request. -/
def ShownBy (x : Stock) (o : Fields) : Prop := ∀ e ∈ x.payload, e.1.given o = e.2

theorem shownBy_labelled (x : Stock) (naming : Naming) : x.ShownBy (labelled naming x.entries) := by
  intro e he
  have hmem : e ∈ x.entries := List.mem_of_mem_drop (List.mem_of_mem_take he)
  rw [Field.given, Field.value?, x.legible_entries.find_labelled hmem]
  rfl

/-- A record that keeps the bounds of requests is copied by what is read of every object that shows
it. -/
theorem IsSound.exists_copies (hx : x.IsSound) :
    ∃ d : StockDetails, d.Copies x ∧ ∀ o, x.ShownBy o → StockDetails.readFields o = .ok d := by
  obtain ⟨current, hcurrent⟩ := hx.currentPrice.exists_double
  obtain ⟨previous, hprevious⟩ := hx.previousPrice.exists_double
  obtain ⟨volume, hvolume⟩ := hx.volume.exists_int
  refine ⟨⟨some x.symbol, some x.companyName, current, previous, volume, x.marketCap, x.sector⟩,
    ⟨rfl, rfl, hcurrent.symm, hprevious.symm, hvolume.symm, rfl, rfl⟩, fun o ho => ?_⟩
  have hgiven {f : Field} {v : Value} {i : Nat} (he : x.payload[i]? = some (f, v)) :
      f.given o = v := ho (f, v) (List.mem_of_getElem? he)
  refine StockDetails.readFields_eq_ok.mpr ⟨?_, ?_, ?_, ?_, ?_, ?_, ?_⟩
  · rw [hgiven (i := 0) rfl]
    rfl
  · rw [hgiven (i := 1) rfl]
    rfl
  · rw [hgiven (i := 2) rfl, hcurrent]
    exact readOptional_ofDouble? (hcurrent ▸ hx.currentPrice)
  · rw [hgiven (i := 3) rfl, hprevious]
    exact readOptional_ofDouble? (hprevious ▸ hx.previousPrice)
  · rw [hgiven (i := 4) rfl, hvolume]
    exact readOptional_ofInt? (hvolume ▸ hx.volume)
  · rw [hgiven (i := 5) rfl]
    exact readOptional_ofDouble? hx.marketCap
  · rw [hgiven (i := 6) rfl]
    exact readOptional_ofText? x.sector

/-- The record of an id and a time of creation with the payload of another. -/
def renewed (x : Stock) (id : Int) (now : Moment) : Stock :=
  { x with
    id := id
    createdAt := now
    updatedAt := none }

end Stock

namespace StockDetails.Copies

variable {d : StockDetails} {x : Stock} {keep : Double → Bool}

/-- Of details that copy a record, a record with the same payload is made. -/
theorem made_eq (h : d.Copies x) (id : Int) (now : Moment) :
    Stock.made id now d x.symbol x.companyName = x.renewed id now := by
  rw [Stock.made, Stock.renewed, h.currentPrice, h.previousPrice, h.volume, h.marketCap, h.sector]

/-- Details that copy a record, or leave out some of its figures, change nothing but the time of the
last change. -/
theorem revised_eq (h : d.Copies (x.keeping keep)) (now : Moment) :
    x.revised now d = { x with updatedAt := some now } := by
  have hvolume : (d.volume.map Value.int).getD x.volume = x.volume := by
    rw [← show Value.ofInt? d.volume = x.volume from h.volume]
    cases d.volume <;> rfl
  have hcap : d.marketCap.or x.marketCap = x.marketCap := by
    rw [h.marketCap, Stock.keeping]
    cases x.marketCap with
    | none => rfl
    | some y => cases hy : keep y <;> simp [Option.filter, hy]
  have hsector : d.sector.or x.sector = x.sector := by
    rw [h.sector]
    exact Option.or_self
  rw [Stock.revised, h.symbol, h.companyName, Value.getD_of_keeping h.currentPrice,
    Value.getD_of_keeping h.previousPrice, hvolume, hcap, hsector]
  rfl

end StockDetails.Copies

/-! ## Stores -/

namespace Store

/-- A store takes back a record of its own that is shown by an object: as an update of the record,
this changes nothing but the time of its last change, and as a new record, it has the payload of the
given one. -/
structure TakesBack (s : Store) (x : Stock) (shown : Value) (copy : Stock) : Prop where
  updated : ∃ d, Model.updateRequest.read shown = .ok (.updateRequest d) ∧ ∀ now, ∃ s',
    s.update now x.id d = some ({ x with updatedAt := some now }, s') ∧
    s'.toList =
      (s.toList.map fun y => if y.id = x.id then { x with updatedAt := some now } else y) ∧
    s'.nextId = s.nextId
  added : ∃ d, Model.createRequest.read shown = .ok (.createRequest d) ∧ ∀ now, ∃ s',
    s.add now d = .ok (copy.renewed s.nextId now, s') ∧
    s'.toList = s.toList ++ [copy.renewed s.nextId now] ∧ s'.nextId = s.nextId + 1

variable {s : Store} {x : Stock}

theorem Ordered.takesBack (hs : s.Ordered) (hx : x ∈ s.toList) (hsound : x.IsSound)
    (keep : Double → Bool) {o : Fields} (ho : (x.keeping keep).ShownBy o) :
    s.TakesBack x (.object o) (x.keeping keep) := by
  obtain ⟨d, hcopies, hread⟩ := (hsound.keeping keep).exists_copies
  have hfields := hread o ho
  refine ⟨⟨d, ?_, fun now => ?_⟩, ⟨d, ?_, fun now => ?_⟩⟩
  · show Record.updateRequest <$> StockDetails.readFields o = _
    rw [hfields]
    rfl
  · have hget : s.get? x.id = some x := hs.get?_eq_some_iff.mpr ⟨hx, rfl⟩
    have hupdate : s.update now x.id d = some ({ x with updatedAt := some now }, _) :=
      modify_eq_some_iff.mpr ⟨x, hget, (hcopies.revised_eq now).symm, rfl⟩
    exact ⟨_, hupdate, hs.toList_of_modify hupdate, rfl⟩
  · show Record.createRequest <$> StockDetails.readFields o = _
    rw [hfields]
    rfl
  · have hadd : s.add now d = .ok ((x.keeping keep).renewed s.nextId now, _) :=
      add_eq_ok_iff.mpr ⟨_, _, hcopies.symbol, hcopies.companyName,
        (hcopies.made_eq s.nextId now).symm, rfl⟩
    exact ⟨_, hadd, hs.toList_of_add hadd, nextId_of_add hadd⟩

end Store

namespace Desk

/-- From a desk that starts with records, if all requests were read by their models, whatever was
asked of it : its store takes back every record as it is written, and as it is shown by a response,
or by any object that gives the same in the fields of a request, without the figures that are
infinite. If there are none, this is the record itself. -/
theorem takesBack_of_seed {records : List SeedRecord} (hr : ∀ r ∈ records, r.IsChecked)
    (now : Moment) (assessor : Assessor) (trail : Trail) (topCount : Int)
    {errands : List (Clock × Errand)} (he : ∀ e ∈ errands, e.2.IsChecked) :
    let d : Desk := ⟨(Store.seed now records .empty).1, assessor, trail, topCount⟩
    let s : Store := (d.after errands).store
    ∀ x ∈ s.toList,
      s.TakesBack x ((Record.stock x).write .preferred) x ∧
      s.TakesBack x (stockBody x) (x.keeping Double.isFinite) ∧
      (∀ o, (x.keeping Double.isFinite).ShownBy o →
        s.TakesBack x (.object o) (x.keeping Double.isFinite)) ∧
      ((∀ y, x.currentPrice = .float y ∨ x.previousPrice = .float y ∨ x.marketCap = some y →
        y.isFinite) → x.keeping Double.isFinite = x) := by
  intro d s x hx
  have hstart : d.store.Ordered := Store.ordered_empty.seed now records
  have hordered : s.Ordered := ordered_after errands hstart
  have hsound : x.IsSound :=
    isSound_after hstart (fun y hy => (new_of_seed hr y hy).1) he x hx
  have hall : x.keeping (fun _ => true) = x := Stock.keeping_eq_self fun _ _ => rfl
  refine ⟨?_, ?_, fun o ho => hordered.takesBack hx hsound _ ho, Stock.keeping_eq_self⟩
  · have hwritten := hordered.takesBack hx hsound (fun _ => true)
      (hall.symm ▸ x.shownBy_labelled .preferred)
    rwa [hall] at hwritten
  · rw [hsound.stockBody_eq]
    exact hordered.takesBack hx hsound _ (Stock.shownBy_labelled _ .preferred)

/-- A request for a record with an infinite market capitalisation. -/
def unboundedDetails : StockDetails :=
  ⟨some "A", some "B", none, none, none, some (Double.infinity false), none⟩

/-- A history that has only the creation of this record. -/
def unboundedHistory : List (Clock × Errand) :=
  [(⟨⟨⟨2024, 2, 29⟩, 0, 0, 0, 0, none⟩, Double.zero⟩, .createStock (some unboundedDetails))]

/-- The record that is created. -/
def unboundedStock : Stock := .made 1 ⟨⟨2024, 2, 29⟩, 0, 0, 0, 0, none⟩ unboundedDetails "A" "B"

theorem isChecked_unboundedHistory : ∀ e ∈ unboundedHistory, e.2.IsChecked := by
  intro e he
  obtain rfl := List.mem_singleton.mp he
  exact ⟨.object [("symbol", .text "A"), ("companyName", .text "B"),
    ("marketCap", .float (Double.infinity false))], rfl⟩

/-- The record is taken back, but made anew without its market capitalisation. -/
theorem takesBack_of_unboundedHistory :
    (∀ r ∈ ([] : List SeedRecord), r.IsChecked) ∧ (∀ e ∈ unboundedHistory, e.2.IsChecked) ∧
      ∃ a, Assessor.ofSettings {} (.cycle Double.zero []) = .ok a ∧
        let s : Store := (Desk.after ⟨.empty, a, {}, 10⟩ unboundedHistory).store
        unboundedStock ∈ s.toList ∧
          s.TakesBack unboundedStock (stockBody unboundedStock)
            { unboundedStock with marketCap := none } := by
  have hr : ∀ r ∈ ([] : List SeedRecord), r.IsChecked := fun r hr => nomatch hr
  refine ⟨hr, isChecked_unboundedHistory, _, rfl, ?_⟩
  intro s
  have hmem : unboundedStock ∈ s.toList := List.mem_singleton_self unboundedStock
  obtain ⟨-, hshown, -⟩ := takesBack_of_seed hr unboundedStock.createdAt _ {} 10
    isChecked_unboundedHistory unboundedStock hmem
  exact ⟨hmem, hshown⟩

/-- The record is not made anew, as it was, of what a response shows of it. -/
theorem not_takesBack_of_unboundedHistory :
    (∀ e ∈ unboundedHistory, e.2.IsChecked) ∧
      ∃ a, Assessor.ofSettings {} (.cycle Double.zero []) = .ok a ∧
        let s : Store := (Desk.after ⟨.empty, a, {}, 10⟩ unboundedHistory).store
        unboundedStock ∈ s.toList ∧
          ¬s.TakesBack unboundedStock (stockBody unboundedStock) unboundedStock := by
  refine ⟨isChecked_unboundedHistory, _, rfl, List.mem_singleton_self unboundedStock, fun h => ?_⟩
  obtain ⟨d, hread, hadds⟩ := h.added
  obtain ⟨s', hadd, -⟩ := hadds unboundedStock.createdAt
  have hshown : Model.createRequest.read (stockBody unboundedStock) =
      .ok (.createRequest { unboundedDetails with marketCap := none }) := rfl
  obtain rfl := Record.createRequest.inj (Checked.ok.inj (hread.symm.trans hshown))
  obtain ⟨_, _, -, -, hmade, -⟩ := Store.add_eq_ok_iff.mp hadd
  cases congrArg Stock.marketCap hmade

end Desk

end StockRegister
