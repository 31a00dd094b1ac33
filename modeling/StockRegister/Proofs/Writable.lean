import StockRegister.Proofs.Integers
import StockRegister.Proofs.Lifetime
import StockRegister.Web.Response

/-!
# Records that can be written

A text is whole if each of its code points is a character (`Text.IsWhole`), which every string is.
The body of a sound record can be written exactly if its texts are whole
(`Stock.isWritable_stockBody_iff`) : a price that is not finite is written as null, and the rest is
numbers and times. The volume of a record is short if it can be written (`Stock.HasShortVolume`).

Details that are read from an object have whole texts if the object has (`StockDetails.IsWhole`),
and a short volume if its integers are short, and a record that is made or changed by them keeps
both.
-/

namespace StockRegister

open Schema Web

/-! ## Whole texts -/

/-- Every code point of a text is a character. -/
def Text.IsWhole (t : Text) : Prop := t.toString?.isSome = true

theorem Text.isWhole_ofString (s : String) : (Text.ofString s).IsWhole := by
  rw [IsWhole, toString?_ofString]
  rfl

theorem isWritable_ofText? (o : Option Text) :
    (Value.ofText? o).isWritable = true ↔ ∀ t ∈ o, t.IsWhole := by
  cases o <;> simp [Value.ofText?, Value.isWritable, Text.IsWhole]

theorem areWritable_iff (items : List Value) :
    Value.areWritable items = true ↔ ∀ v ∈ items, v.isWritable = true := by
  induction items with
  | nil => simp [Value.areWritable]
  | cons v vs ih => simp [Value.areWritable, ih]

theorem fieldsAreWritable_iff (fields : Fields) :
    Value.fieldsAreWritable fields = true ↔ ∀ f ∈ fields, f.2.isWritable = true := by
  induction fields with
  | nil => simp [Value.fieldsAreWritable]
  | cons f fields ih => simp [Value.fieldsAreWritable, ih]

theorem isWritable_writeModel (naming : Naming) (entries : List (Field × Value)) :
    (writeModel naming entries).isWritable = true ↔ ∀ e ∈ entries, e.2.isWritable = true := by
  rw [writeModel, Value.isWritable, fieldsAreWritable_iff, List.forall_mem_map]

/-! ## Records -/

/-- The texts of a record are whole. -/
structure Stock.IsWhole (s : Stock) : Prop where
  symbol : s.symbol.IsWhole
  companyName : s.companyName.IsWhole
  sector : ∀ t ∈ s.sector, t.IsWhole

/-- The volume of a record can be written. -/
def Stock.HasShortVolume (s : Stock) : Prop := s.volume.hasShortIntegers = true

/-- A number is written as itself or as null. -/
theorem isWritable_jsonNumber (v : Value) :
    (jsonNumber v).isWritable = v.isWritable := by
  cases v with
  | float x =>
    simp only [jsonNumber]
    split_ifs <;> rfl
  | _ => rfl

/-- The body of a sound record can be written exactly if its texts are whole. -/
theorem Stock.isWritable_stockBody_iff {s : Stock} (hs : s.IsSound) :
    (stockBody s).isWritable = true ↔ s.IsWhole := by
  obtain ⟨current, hcurrent⟩ := hs.currentPrice.exists_double
  obtain ⟨previous, hprevious⟩ := hs.previousPrice.exists_double
  obtain ⟨volume, hvolume⟩ := hs.volume.exists_int
  have hfigure (o : Option Double) : (Value.ofDouble? o).isWritable = true := by cases o <;> rfl
  have hinteger (o : Option Int) : (Value.ofInt? o).isWritable = true := by cases o <;> rfl
  have hmoment (o : Option Moment) : (momentValue o).isWritable = true := by cases o <;> rfl
  rw [stockBody, isWritable_writeModel, List.forall_mem_map]
  simp only [isWritable_jsonNumber, entries, List.forall_mem_cons, hcurrent, hprevious, hvolume,
    hfigure, hinteger, hmoment, isWritable_ofText?]
  constructor
  · rintro ⟨-, hsymbol, hcompany, -, -, -, -, hsector, -⟩
    exact ⟨hsymbol, hcompany, hsector⟩
  · rintro ⟨hsymbol, hcompany, hsector⟩
    exact ⟨rfl, hsymbol, hcompany, trivial, trivial, trivial, trivial, hsector, rfl, trivial,
      List.forall_mem_nil _⟩

/-! ## Requests -/

/-- The texts of details are whole. -/
structure StockDetails.IsWhole (d : StockDetails) : Prop where
  symbol : ∀ t ∈ d.symbol, t.IsWhole
  companyName : ∀ t ∈ d.companyName, t.IsWhole
  sector : ∀ t ∈ d.sector, t.IsWhole

/-- The volume of details can be written. -/
def StockDetails.HasShortVolume (d : StockDetails) : Prop :=
  (Value.ofInt? d.volume).hasShortIntegers = true

/-- The volume of a price update can be written. -/
def PriceUpdate.HasShortVolume (p : PriceUpdate) : Prop :=
  (Value.ofInt? p.volume).hasShortIntegers = true

namespace Schema

open Checked

/-- What a field takes from an object is its default, or was read from one of the values. -/
theorem ensures_orElse_of_mem {α : Type} {P : α → Prop} {fields : Fields} {default : α}
    (hdefault : P default) {read : Value → Checked α}
    (hread : ∀ f ∈ fields, (read f.2).Ensures P) (f : Field) :
    (f.orElse default read fields).Ensures P := by
  intro a ha
  unfold Field.orElse at ha
  split at ha
  · rename_i k v hfind
    obtain ⟨key, -, hkey⟩ := List.exists_of_findSome?_eq_some hfind
    obtain ⟨w, hw, heq⟩ := Option.map_eq_some_iff.mp hkey
    obtain ⟨g, hg, rfl⟩ := Option.map_eq_some_iff.mp hw
    cases heq
    exact hread g (List.mem_of_find?_eq_some hg) a (under_eq_ok.mp ha)
  · cases ha
    exact hdefault

/-- What is optional is null, or was read. -/
theorem exists_of_readOptional {α : Type} {read : Value → Checked α} {v : Value} {o : Option α}
    (h : readOptional read v = ok o) : o = none ∨ ∃ a, o = some a ∧ read v = ok a := by
  unfold readOptional at h
  split at h
  · cases h
    exact Or.inl rfl
  · obtain ⟨a, ha, rfl⟩ := map_eq_ok.mp h
    exact Or.inr ⟨a, rfl, ha⟩

theorem isWhole_of_readText {v : Value} (hv : v.isWritable = true) {t : Text}
    (h : readText v = ok t) : t.IsWhole := by
  unfold readText at h
  split at h
  · cases h
    exact hv
  · split at h
    · cases h
      exact Text.isWhole_ofString _
    · cases h
  · cases h

/-- An optional text that a field takes from an object is whole if the texts of the object are. -/
theorem ensures_isWhole {fields : Fields} (h : Value.fieldsAreWritable fields = true) (f : Field) :
    (f.orElse none (readOptional readText) fields).Ensures fun o => ∀ t ∈ o, t.IsWhole := by
  refine ensures_orElse_of_mem (P := fun o => ∀ t ∈ o, Text.IsWhole t) (by simp)
    (fun g hg o ho t ht => ?_) f
  have hwritable := (fieldsAreWritable_iff fields).mp h g hg
  rcases exists_of_readOptional ho with rfl | ⟨t', rfl, ht'⟩
  · cases ht
  · obtain rfl := Option.some.inj ht
    exact isWhole_of_readText hwritable ht'

/-- A volume that a field takes from an object can be written if the integers of the object can. -/
theorem ensures_hasShortIntegers {fields : Fields}
    (h : Value.fieldsHaveShortIntegers fields = true) (f : Field) :
    (f.orElse none (readOptional (readIntFrom 0)) fields).Ensures
      fun o => (Value.ofInt? o).hasShortIntegers = true := by
  refine ensures_orElse_of_mem (P := fun o => (Value.ofInt? o).hasShortIntegers = true) rfl
    (fun g hg o ho => ?_) f
  have hshort := (Value.fieldsHaveShortIntegers_iff fields).mp h g hg
  rcases exists_of_readOptional ho with rfl | ⟨n, rfl, hn⟩
  · rfl
  · obtain ⟨m, hm, hleast⟩ := bind_eq_ok.mp hn
    obtain ⟨-, rfl⟩ := atLeast_eq_ok.mp hleast
    exact ensures_readInt hshort m hm

end Schema

/-- Details from an object with whole texts have whole texts. -/
theorem StockDetails.isWhole_of_readFields {fields : Fields} {d : StockDetails}
    (h : StockDetails.readFields fields = .ok d) (hfields : Value.fieldsAreWritable fields = true) :
    d.IsWhole := by
  unfold readFields at h
  simp only [Checked.seq_eq_ok, Checked.map_eq_ok] at h
  obtain ⟨_, _, ⟨_, _, ⟨_, _, ⟨_, _, ⟨_, _, ⟨_, company, ⟨symbol, hsymbol, rfl⟩, hcompany, rfl⟩, -,
    rfl⟩, -, rfl⟩, -, rfl⟩, -, rfl⟩, hsector, rfl⟩ := h
  exact ⟨ensures_isWhole hfields _ _ hsymbol, ensures_isWhole hfields _ _ hcompany,
    ensures_isWhole hfields _ _ hsector⟩

/-- The volume of details from an object with short integers can be written. -/
theorem StockDetails.hasShortVolume_of_readFields {fields : Fields} {d : StockDetails}
    (h : StockDetails.readFields fields = .ok d)
    (hfields : Value.fieldsHaveShortIntegers fields = true) : d.HasShortVolume := by
  unfold readFields at h
  simp only [Checked.seq_eq_ok, Checked.map_eq_ok] at h
  obtain ⟨_, _, ⟨_, _, ⟨_, volume, ⟨_, _, ⟨_, _, ⟨_, _, ⟨_, -, rfl⟩, -, rfl⟩, -, rfl⟩, -, rfl⟩,
    hvolume, rfl⟩, -, rfl⟩, -, rfl⟩ := h
  exact ensures_hasShortIntegers hfields _ _ hvolume

/-- The volume of a price update from an object with short integers can be written. -/
theorem PriceUpdate.hasShortVolume_of_readFields {fields : Fields} {p : PriceUpdate}
    (h : PriceUpdate.readFields fields = .ok p)
    (hfields : Value.fieldsHaveShortIntegers fields = true) : p.HasShortVolume := by
  unfold readFields at h
  obtain ⟨f, volume, hf, hvolume, rfl⟩ := Checked.seq_eq_ok.mp h
  obtain ⟨price, -, rfl⟩ := Checked.map_eq_ok.mp hf
  exact ensures_hasShortIntegers hfields _ _ hvolume

/-! ## Changes -/

namespace Stock

theorem isWhole_made (id : Int) (now : Moment) {d : StockDetails} (hd : d.IsWhole)
    {symbol companyName : Text} (hsymbol : d.symbol = some symbol)
    (hcompany : d.companyName = some companyName) : (made id now d symbol companyName).IsWhole :=
  ⟨hd.symbol symbol hsymbol, hd.companyName companyName hcompany, hd.sector⟩

theorem IsWhole.revised {s : Stock} (hs : s.IsWhole) (now : Moment) {d : StockDetails}
    (hd : d.IsWhole) : (s.revised now d).IsWhole := by
  have hgetD : ∀ {o : Option Text} {t : Text}, (∀ u ∈ o, u.IsWhole) → t.IsWhole →
      (o.getD t).IsWhole := by
    intro o t ho ht
    cases o with
    | none => exact ht
    | some u => exact ho u rfl
  refine ⟨hgetD hd.symbol hs.symbol, hgetD hd.companyName hs.companyName, ?_⟩
  intro t ht
  rcases Option.or_eq_some_iff.mp ht with h | ⟨-, h⟩
  · exact hd.sector t h
  · exact hs.sector t h

theorem IsWhole.repriced {s : Stock} (hs : s.IsWhole) (now : Moment) (price volume : Value) :
    (s.repriced now price volume).IsWhole :=
  ⟨hs.symbol, hs.companyName, hs.sector⟩

theorem HasShortVolume.revised {s : Stock} (hs : s.HasShortVolume) (now : Moment)
    {d : StockDetails} (hd : d.HasShortVolume) : (s.revised now d).HasShortVolume := by
  unfold HasShortVolume Stock.revised
  unfold StockDetails.HasShortVolume at hd
  cases hvolume : d.volume with
  | none => exact hs
  | some n =>
    rw [hvolume] at hd
    exact hd

theorem HasShortVolume.repriced {s : Stock} (hs : s.HasShortVolume) (now : Moment)
    {p : PriceUpdate} (hp : p.HasShortVolume) :
    (s.repriced now (.float p.newPrice) (.ofInt? p.volume)).HasShortVolume := by
  obtain ⟨price, volume⟩ := p
  cases volume with
  | none => exact hs
  | some n => exact hp

end Stock

end StockRegister
