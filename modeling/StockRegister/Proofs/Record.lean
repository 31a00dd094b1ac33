import StockRegister.Store

/-!
# Making and changing records

A record is made of the details of a request exactly if they name a symbol and a company
(`ofDetails_eq_ok_iff`), and what is made is `Stock.made`. The two ways in which a record changes
keep its id. `SeedRecord.IsComplete` says of a record to start with that it can be made.
-/

namespace StockRegister

namespace Stock

/-- The record made under an id of details that name a symbol and a company. -/
def made (id : Int) (now : Moment) (d : StockDetails) (symbol companyName : Text) : Stock where
  id := id
  symbol := symbol
  companyName := companyName
  currentPrice := .ofDouble? d.currentPrice
  previousPrice := .ofDouble? d.previousPrice
  volume := .ofInt? d.volume
  marketCap := d.marketCap
  sector := d.sector
  createdAt := now
  updatedAt := none

/-- A record can be made of details exactly if they name a symbol and a company. -/
theorem ofDetails_eq_ok_iff {id : Int} {now : Moment} {d : StockDetails} {stock : Stock} :
    ofDetails id now d = .ok stock ↔
      ∃ symbol companyName, d.symbol = some symbol ∧ d.companyName = some companyName ∧
        stock = made id now d symbol companyName := by
  constructor
  · intro h
    cases hs : d.symbol with
    | none => cases hc : d.companyName <;> rw [ofDetails, hs, hc] at h <;> cases h
    | some symbol =>
      cases hc : d.companyName with
      | none => rw [ofDetails, hs, hc] at h; cases h
      | some companyName =>
        rw [ofDetails, hs, hc] at h
        cases h
        exact ⟨symbol, companyName, rfl, rfl, rfl⟩
  · rintro ⟨symbol, companyName, hs, hc, rfl⟩
    rw [ofDetails, hs, hc]
    rfl

@[simp] theorem revised_id (s : Stock) (now : Moment) (d : StockDetails) :
    (s.revised now d).id = s.id :=
  rfl

@[simp] theorem repriced_id (s : Stock) (now : Moment) (price volume : Value) :
    (s.repriced now price volume).id = s.id :=
  rfl

end Stock

/-- Details that name a symbol and a company. -/
def StockDetails.IsComplete (d : StockDetails) : Prop :=
  d.symbol.isSome ∧ d.companyName.isSome

/-- A record to start with that can be read and then be made. -/
def SeedRecord.IsComplete (r : SeedRecord) : Prop := ∃ d, r.read = .ok d ∧ d.IsComplete

end StockRegister
