import StockRegister.Proofs.Lifetime
import StockRegister.Proofs.RunEvents
import StockRegister.Proofs.Acts
import StockRegister.Proofs.Ranking
import StockRegister.Startup

/-!
# Desks in service

A desk is in service (`Desk.InService`) if its assessor follows some settings, its store is in order
and its records are sound. Every desk that opens is (`inService_of_start`), and it stays in service
whatever is asked, if all requests were read by their models (`InService.handle`).

At a desk in service every figure can be computed (`Stock.exists_changeRate`), so that the records
can be ranked by it (`Store.exists_topGainers`).
-/

namespace StockRegister

open Schema

/-! ## Figures of sound records -/

/-- Of prices that are null or floating-point numbers the change can be computed. -/
theorem Stock.exists_changeRate_of_doubles {x : Stock} {current previous : Option Double}
    (hcurrent : x.currentPrice = .ofDouble? current)
    (hprevious : x.previousPrice = .ofDouble? previous) : ∃ rate, x.changeRate = .ok rate := by
  unfold changeRate
  rw [hcurrent, hprevious]
  cases current with
  | none => exact ⟨none, rfl⟩
  | some current =>
    cases previous with
    | none => exact ⟨none, rfl⟩
    | some previous =>
      by_cases hzero : (Value.float previous).isEmpty
      · exact ⟨none, if_pos hzero⟩
      · exact ⟨_, (if_neg hzero).trans rfl⟩

theorem Stock.exists_changeRate {x : Stock} (hx : x.IsSound) : ∃ rate, x.changeRate = .ok rate := by
  obtain ⟨current, hcurrent⟩ := hx.currentPrice.exists_double
  obtain ⟨previous, hprevious⟩ := hx.previousPrice.exists_double
  exact exists_changeRate_of_doubles hcurrent hprevious

/-- The change of a price, as far as it can be computed. -/
def Stock.rate? (x : Stock) : Option Double := x.changeRate.toOption.join

theorem Stock.changeRate_eq_rate? {x : Stock} (hx : ∃ rate, x.changeRate = .ok rate) :
    x.changeRate = .ok x.rate? := by
  obtain ⟨rate, hrate⟩ := hx
  rw [rate?, hrate]
  rfl

/-- Records whose changes can be computed are ranked by them. -/
theorem Store.topGainers_eq_ok {s : Store}
    (hs : ∀ x ∈ s.toList, ∃ rate, x.changeRate = .ok rate) (limit : Int) :
    s.topGainers limit = .ok (upTo limit (rankBy Stock.rate? s.toList)) := by
  rw [topGainers, rankByFigure_eq_ok fun x hx => Stock.changeRate_eq_rate? (hs x hx)]
  rfl

theorem Store.exists_topGainers {s : Store} (hs : ∀ x ∈ s.toList, x.IsSound) (limit : Int) :
    ∃ stocks, s.topGainers limit = .ok stocks :=
  ⟨_, topGainers_eq_ok (fun x hx => x.exists_changeRate (hs x hx)) limit⟩

/-! ## Being in service -/

namespace Desk

/-- A desk assesses as settings describe it, and keeps sound records in order. -/
structure InService (d : Desk) (s : AssessmentSettings) : Prop where
  follows : d.assessor.Follows s
  ordered : d.store.Ordered
  sound : ∀ x ∈ d.store.toList, x.IsSound

theorem InService.of_eq {d d' : Desk} {s : AssessmentSettings} (h : d.InService s)
    (hassessor : d'.assessor = d.assessor) (hstore : d'.store = d.store) : d'.InService s :=
  ⟨hassessor ▸ h.follows, hstore ▸ h.ordered, hstore ▸ h.sound⟩

/-- Errands whose requests were read keep a desk in service. -/
theorem InService.handle {d : Desk} {s : AssessmentSettings} (h : d.InService s) (clock : Clock)
    {r : Errand} (hr : r.IsChecked) : (d.handle clock r).1.InService s := by
  have heffect := d.effect_handle clock r
  exact ⟨follows_handle h.follows clock r, heffect.ordered h.ordered,
    fun x hx => (heffect.provenance h.ordered hx).isSound h.ordered hr h.sound⟩

theorem inService_of_seed {a : Assessor} {s : AssessmentSettings} (ha : a.Follows s)
    (now : Moment) (records : List Value) (trail : Trail) (topCount : Int) :
    InService ⟨(Store.seed now (records.map .raw) .empty).1, a, trail, topCount⟩ s := by
  refine ⟨ha, Store.ordered_empty.seed now _, fun x hx => (new_of_seed ?_ x hx).1⟩
  intro r hr
  obtain ⟨v, -, rfl⟩ := List.mem_map.mp hr
  trivial

theorem eq_of_addSeeds {d d' : Desk} {now : Moment} {records : List Value}
    (h : d.addSeeds now records = .ok d') :
    d' = { d with store := (Store.seed now (records.map .raw) d.store).1 } := by
  unfold addSeeds at h
  split at h
  · rename_i hseed
    rw [hseed]
    exact (Except.ok.inj h).symm
  · cases h

/-- Every desk that opens is in service, with the settings that it was opened with. -/
theorem inService_of_start {s : Settings} {fs : Files} {draws : Option RandomSource}
    {clock : Clock} {d : Desk} (h : start s fs draws clock = .ok d) :
    d.InService s.assessment := by
  unfold start at h
  cases ha : Assessor.ofSettings s.assessment (s.assessment.source draws) with
  | error e =>
    rw [ha] at h
    cases h
  | ok a =>
    have hfollows := Assessor.follows_ofSettings ha
    rw [ha] at h
    dsimp only at h
    split at h
    · cases h
      exact inService_of_seed hfollows clock.now [] _ _
    · unfold addSeedFile at h
      split at h
      · cases h
      · rename_i records hload
        split at h
        · cases h
        · rename_i seeded hseeds
          obtain rfl := eq_of_addSeeds hseeds
          cases h
          exact inService_of_seed hfollows clock.now records _ _

end Desk

end StockRegister
