import StockRegister.Model
import StockRegister.Proofs.Fields
import StockRegister.Proofs.Record

/-!
# Sound requests and records

A model bounds its figures : a price is null or a number that is not below zero
(`Value.IsPrice`), and a volume is null or an integer that is not (`Value.IsVolume`). Details, price
updates and records are sound (`IsSound`) if all their figures are, and the id of a record is
at least 1.

Everything that a model reads is sound (`Model.isSound_of_read`), and `Stock.isSound_iff_read` is
the converse for records : a sound record is read back from its written form as it is. The two
ways in which a record changes check nothing, but they keep a record sound if the request is
(`Stock.IsSound.revised`, `Stock.IsSound.repriced`).

A new record is made without a check of its figures. `Stock.read_newEntries` says that the model of
records, asked to read it from its id, the details of a sound request and the time, would
have come to the same.
-/

namespace StockRegister

open Schema

/-! ## Figures -/

namespace Value

/-- A price is null or a number that is not below zero. -/
def IsPrice : Value → Prop
  | null => True
  | float x => Double.zero.le x
  | _ => False

/-- A volume is null or an integer that is not below zero. -/
def IsVolume : Value → Prop
  | null => True
  | int n => 0 ≤ n
  | _ => False

theorem isPrice_ofDouble? {o : Option Double} :
    (ofDouble? o).IsPrice ↔ ∀ x ∈ o, Double.zero.le x := by
  cases o <;> simp [ofDouble?, IsPrice]

theorem isVolume_ofInt? {o : Option Int} : (ofInt? o).IsVolume ↔ ∀ n ∈ o, 0 ≤ n := by
  cases o <;> simp [ofInt?, IsVolume]

/-- A price is the written form of an optional number. -/
theorem IsPrice.exists_double {v : Value} (h : v.IsPrice) : ∃ o, v = ofDouble? o := by
  cases v with
  | null => exact ⟨none, rfl⟩
  | float x => exact ⟨some x, rfl⟩
  | _ => cases h

/-- A volume is the written form of an optional integer. -/
theorem IsVolume.exists_int {v : Value} (h : v.IsVolume) : ∃ o, v = ofInt? o := by
  cases v with
  | null => exact ⟨none, rfl⟩
  | int n => exact ⟨some n, rfl⟩
  | _ => cases h

theorem IsPrice.or {o p : Option Double} (ho : (ofDouble? o).IsPrice)
    (hp : (ofDouble? p).IsPrice) : (ofDouble? (o.or p)).IsPrice := by
  cases o with
  | none => exact hp
  | some x => exact ho

theorem IsPrice.getD {o : Option Double} {v : Value} (ho : (ofDouble? o).IsPrice)
    (hv : v.IsPrice) : ((o.map float).getD v).IsPrice := by
  cases o with
  | none => exact hv
  | some x => exact ho

theorem IsVolume.getD {o : Option Int} {v : Value} (ho : (ofInt? o).IsVolume)
    (hv : v.IsVolume) : ((o.map int).getD v).IsVolume := by
  cases o with
  | none => exact hv
  | some n => exact ho

theorem isPrice_float_of_lt {x : Double} (h : Double.zero.lt x) : (float x).IsPrice := by
  simp only [Double.lt, Double.le, IsPrice, Bool.and_eq_true, decide_eq_true_eq] at h ⊢
  exact ⟨h.1, Int.le_of_lt h.2⟩

end Value

/-! ## Reading figures -/

namespace Schema

open Checked

/-- A check of an optional price lets only prices through. -/
theorem ensures_isPrice (f : Field) (fields : Fields) :
    (f.orElse none (readOptional readPrice) fields).Ensures
      fun o => (Value.ofDouble? o).IsPrice := by
  intro o ho
  have hprice : ∀ v, (readOptional readPrice v).Ensures fun o => ∀ x ∈ o, Double.zero.le x :=
    Ensures.readOptional ensures_readPrice
  exact Value.isPrice_ofDouble?.mpr (Ensures.orElse (by simp) hprice f fields o ho)

/-- A check of an optional volume lets only volumes through. -/
theorem ensures_isVolume (f : Field) (fields : Fields) :
    (f.orElse none (readOptional (readIntFrom 0)) fields).Ensures
      fun o => (Value.ofInt? o).IsVolume := by
  intro o ho
  have hvolume : ∀ v, (readOptional (readIntFrom 0) v).Ensures fun o => ∀ n ∈ o, 0 ≤ n :=
    Ensures.readOptional (ensures_readIntFrom 0)
  exact Value.isVolume_ofInt?.mpr (Ensures.orElse (by simp) hvolume f fields o ho)

theorem readOptional_ofDouble? {o : Option Double} (h : (Value.ofDouble? o).IsPrice) :
    readOptional readPrice (.ofDouble? o) = ok o := by
  cases o with
  | none => rfl
  | some x =>
    have hx : readPrice (.float x) = ok x := if_pos h
    simp only [Value.ofDouble?, readOptional, hx, map_ok]

theorem readOptional_ofInt? {o : Option Int} (h : (Value.ofInt? o).IsVolume) :
    readOptional (readIntFrom 0) (.ofInt? o) = ok o := by
  cases o with
  | none => rfl
  | some n =>
    have hn : readIntFrom 0 (.int n) = ok n := if_pos h
    simp only [Value.ofInt?, readOptional, hn, map_ok]

theorem readOptional_ofText? (o : Option Text) : readOptional readText (.ofText? o) = ok o := by
  cases o <;> rfl

theorem readOptional_momentValue (o : Option Moment) :
    readOptional readMoment (Stock.momentValue o) = ok o := by
  cases o <;> rfl

end Schema

/-! ## Sound requests -/

/-- The prices and the volume of details are prices and a volume. -/
structure StockDetails.IsSound (d : StockDetails) : Prop where
  currentPrice : (Value.ofDouble? d.currentPrice).IsPrice
  previousPrice : (Value.ofDouble? d.previousPrice).IsPrice
  volume : (Value.ofInt? d.volume).IsVolume
  marketCap : (Value.ofDouble? d.marketCap).IsPrice

/-- The price of a price update is above zero, and the volume is a volume. -/
structure PriceUpdate.IsSound (p : PriceUpdate) : Prop where
  newPrice : Double.zero.lt p.newPrice
  volume : (Value.ofInt? p.volume).IsVolume

/-- Details that are read are sound. -/
theorem StockDetails.isSound_of_readFields {fields : Fields} {d : StockDetails}
    (h : StockDetails.readFields fields = .ok d) : d.IsSound := by
  unfold readFields at h
  simp only [Checked.seq_eq_ok, Checked.map_eq_ok] at h
  obtain ⟨_, _, ⟨_, cap, ⟨_, volume, ⟨_, previous, ⟨_, current, ⟨_, _, ⟨_, -, rfl⟩, -, rfl⟩,
    hcurrent, rfl⟩, hprevious, rfl⟩, hvolume, rfl⟩, hcap, rfl⟩, -, rfl⟩ := h
  exact ⟨ensures_isPrice _ _ _ hcurrent, ensures_isPrice _ _ _ hprevious,
    ensures_isVolume _ _ _ hvolume, ensures_isPrice _ _ _ hcap⟩

/-- A price update that is read is sound. -/
theorem PriceUpdate.isSound_of_readFields {fields : Fields} {p : PriceUpdate}
    (h : PriceUpdate.readFields fields = .ok p) : p.IsSound := by
  unfold readFields at h
  obtain ⟨f, volume, hf, hvolume, rfl⟩ := Checked.seq_eq_ok.mp h
  obtain ⟨price, hprice, rfl⟩ := Checked.map_eq_ok.mp hf
  have habove : ∀ v, ((readNumber v).bind (numberAbove 0)).Ensures fun x => Double.zero.lt x :=
    fun v => Checked.Ensures.bind ensures_numberAbove _
  exact ⟨Checked.Ensures.required habove _ _ _ hprice, ensures_isVolume _ _ _ hvolume⟩

/-! ## Sound records -/

namespace Stock

/-- The bounds that the model of records puts on a record. -/
structure IsSound (s : Stock) : Prop where
  one_le_id : 1 ≤ s.id
  currentPrice : s.currentPrice.IsPrice
  previousPrice : s.previousPrice.IsPrice
  volume : s.volume.IsVolume
  marketCap : (Value.ofDouble? s.marketCap).IsPrice

/-- A record that is read is sound. -/
theorem isSound_of_readFields {fields : Fields} {s : Stock}
    (h : Stock.readFields fields = .ok s) : s.IsSound := by
  unfold readFields at h
  simp only [Checked.seq_eq_ok, Checked.map_eq_ok] at h
  obtain ⟨_, _, ⟨_, _, ⟨_, _, ⟨_, cap, ⟨_, _, ⟨_, _, ⟨_, _, ⟨_, _, ⟨_, _, ⟨id, hid, rfl⟩, -, rfl⟩,
    -, rfl⟩, ⟨current, hcurrent, rfl⟩, rfl⟩, ⟨previous, hprevious, rfl⟩, rfl⟩,
    ⟨volume, hvolume, rfl⟩, rfl⟩, hcap, rfl⟩, -, rfl⟩, -, rfl⟩, -, rfl⟩ := h
  exact ⟨Checked.Ensures.required (ensures_readIntFrom 1) _ _ _ hid,
    ensures_isPrice _ _ _ hcurrent, ensures_isPrice _ _ _ hprevious,
    ensures_isVolume _ _ _ hvolume, ensures_isPrice _ _ _ hcap⟩

theorem legible_entries (s : Stock) : Legible s.entries :=
  .of_map_fst
    [idField, symbolField, companyNameField, currentPriceField, previousPriceField,
      volumeField, marketCapField, sectorField, createdAtField, updatedAtField]
    rfl (by decide) (by decide)

/-- A sound record is read back from its written form. -/
theorem readFields_entries {s : Stock} (hs : s.IsSound) (naming : Naming) :
    readFields (labelled naming s.entries) = .ok s := by
  obtain ⟨current, hcurrent⟩ := hs.currentPrice.exists_double
  obtain ⟨previous, hprevious⟩ := hs.previousPrice.exists_double
  obtain ⟨volume, hvolume⟩ := hs.volume.exists_int
  have hid : readIntFrom 1 (.int s.id) = .ok s.id := if_pos hs.one_le_id
  have htext (t : Text) : readText (.text t) = .ok t := rfl
  have hmoment (m : Moment) : readMoment (.moment m) = .ok m := rfl
  have hlegible := s.legible_entries
  unfold readFields
  rw [hlegible.required_labelled (i := 0) rfl, hlegible.required_labelled (i := 1) rfl,
    hlegible.required_labelled (i := 2) rfl, hlegible.orElse_labelled (i := 3) rfl,
    hlegible.orElse_labelled (i := 4) rfl, hlegible.orElse_labelled (i := 5) rfl,
    hlegible.orElse_labelled (i := 6) rfl, hlegible.orElse_labelled (i := 7) rfl,
    hlegible.required_labelled (i := 8) rfl, hlegible.orElse_labelled (i := 9) rfl]
  rw [hcurrent, readOptional_ofDouble? (hcurrent ▸ hs.currentPrice), hprevious,
    readOptional_ofDouble? (hprevious ▸ hs.previousPrice), hvolume,
    readOptional_ofInt? (hvolume ▸ hs.volume), readOptional_ofDouble? hs.marketCap,
    readOptional_ofText?, readOptional_momentValue, hid, htext, htext, hmoment]
  simp only [Checked.under_ok, Checked.map_ok, Checked.seq_ok_ok, ← hcurrent, ← hprevious,
    ← hvolume]

/-- A record is sound exactly if its model reads it back from its written form. -/
theorem isSound_iff_read (s : Stock) (naming : Naming) :
    s.IsSound ↔ Model.stock.read ((Record.stock s).write naming) = .ok (.stock s) := by
  have hread : Model.stock.read ((Record.stock s).write naming) =
      Record.stock <$> readFields (labelled naming s.entries) := rfl
  rw [hread]
  constructor
  · intro hs
    rw [readFields_entries hs, Checked.map_ok]
  · intro h
    obtain ⟨s', hs', heq⟩ := Checked.map_eq_ok.mp h
    cases heq
    exact isSound_of_readFields hs'

end Stock

/-- The records of models that bound their figures are sound. -/
def Record.IsSound : Record → Prop
  | stock s => s.IsSound
  | createRequest d => d.IsSound
  | updateRequest d => d.IsSound
  | priceUpdate p => p.IsSound
  | _ => True

/-- Everything that a model reads is sound. -/
theorem Model.isSound_of_read {m : Model} {v : Value} {r : Record} (h : m.read v = .ok r) :
    r.IsSound := by
  obtain ⟨fields, -, hread⟩ := readModel_eq_ok.mp h
  cases m with
  | stock =>
    obtain ⟨s, hs, rfl⟩ := Checked.map_eq_ok.mp hread
    exact Stock.isSound_of_readFields hs
  | createRequest =>
    obtain ⟨d, hd, rfl⟩ := Checked.map_eq_ok.mp hread
    exact StockDetails.isSound_of_readFields hd
  | updateRequest =>
    obtain ⟨d, hd, rfl⟩ := Checked.map_eq_ok.mp hread
    exact StockDetails.isSound_of_readFields hd
  | priceUpdate =>
    obtain ⟨p, hp, rfl⟩ := Checked.map_eq_ok.mp hread
    exact PriceUpdate.isSound_of_readFields hp
  | proceed =>
    cases hread
    trivial
  | _ =>
    obtain ⟨_, -, rfl⟩ := Checked.map_eq_ok.mp hread
    trivial

namespace Stock

/-! ## Keeping records sound -/

/-- The fields from which a new record is made. -/
def newEntries (id : Int) (now : Moment) (d : StockDetails) : List (Field × Value) :=
  (idField, .int id) :: d.entries ++ [(createdAtField, .moment now)]

theorem legible_newEntries (id : Int) (now : Moment) (d : StockDetails) :
    Legible (newEntries id now d) :=
  .of_map_fst
    [idField, symbolField, companyNameField, currentPriceField, previousPriceField,
      volumeField, marketCapField, sectorField, createdAtField]
    rfl (by decide) (by decide)

/-- The model of records reads a new record from sound details exactly as it is made of them. -/
theorem read_newEntries {id : Int} (hid : 1 ≤ id) (now : Moment) {d : StockDetails}
    (hd : d.IsSound) :
    Model.stock.read (writeModel .plain (newEntries id now d)) =
      Record.stock <$> ofDetails id now d := by
  have hid' : readIntFrom 1 (.int id) = .ok id := if_pos hid
  have hmoment : readMoment (.moment now) = .ok now := rfl
  have hupdated : updatedAtField.find (labelled .plain (newEntries id now d)) = none := by
    simp only [Field.find, get?_labelled]
    rfl
  have hlegible := legible_newEntries id now d
  have hread : Model.stock.read (writeModel .plain (newEntries id now d)) =
      Record.stock <$> readFields (labelled .plain (newEntries id now d)) := rfl
  rw [hread]
  unfold readFields
  rw [hlegible.required_labelled (i := 0) rfl, hlegible.required_labelled (i := 1) rfl,
    hlegible.required_labelled (i := 2) rfl, hlegible.orElse_labelled (i := 3) rfl,
    hlegible.orElse_labelled (i := 4) rfl, hlegible.orElse_labelled (i := 5) rfl,
    hlegible.orElse_labelled (i := 6) rfl, hlegible.orElse_labelled (i := 7) rfl,
    hlegible.required_labelled (i := 8) rfl]
  rw [readOptional_ofDouble? hd.currentPrice, readOptional_ofDouble? hd.previousPrice,
    readOptional_ofInt? hd.volume, readOptional_ofDouble? hd.marketCap, readOptional_ofText?, hid',
    hmoment]
  simp only [Field.orElse, hupdated, Checked.under_ok, Checked.map_ok]
  rfl

theorem isSound_made {id : Int} (hid : 1 ≤ id) (now : Moment) {d : StockDetails} (hd : d.IsSound)
    (symbol companyName : Text) : (made id now d symbol companyName).IsSound :=
  ⟨hid, hd.currentPrice, hd.previousPrice, hd.volume, hd.marketCap⟩

namespace IsSound

variable {s : Stock}

protected theorem revised (hs : s.IsSound) (now : Moment) {d : StockDetails} (hd : d.IsSound) :
    (s.revised now d).IsSound where
  one_le_id := hs.one_le_id
  currentPrice := hd.currentPrice.getD hs.currentPrice
  previousPrice := hd.previousPrice.getD hs.previousPrice
  volume := hd.volume.getD hs.volume
  marketCap := hd.marketCap.or hs.marketCap

protected theorem repriced (hs : s.IsSound) (now : Moment) {p : PriceUpdate} (hp : p.IsSound) :
    (s.repriced now (.float p.newPrice) (.ofInt? p.volume)).IsSound where
  one_le_id := hs.one_le_id
  currentPrice := Value.isPrice_float_of_lt hp.newPrice
  previousPrice := hs.currentPrice
  volume := by
    obtain ⟨price, volume⟩ := p
    cases volume with
    | none => exact hs.volume
    | some n => exact hp.volume
  marketCap := hs.marketCap

end IsSound

end Stock

end StockRegister
