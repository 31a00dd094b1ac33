import StockRegister.Desk
import StockRegister.Settings.Loading

/-!
# Startup

`Desk.start` opens a desk as settings describe it: the stages and the injector of random
failures, a trail that prints from the level of the log up, and a store with the records of
the seed file, if one is named. The number of these records is logged.
-/

namespace StockRegister

/-- Why a desk does not open. -/
inductive StartError where
  | probability (e : InjectorError)
  | seedFile (e : LoadError)
  | seedRecord (e : ModelError)

/-- The trail that settings describe. -/
def Settings.trail (s : Settings) : Trail := { threshold := s.log.level.severity }

namespace Desk

/-- Put records into the store, up to the first that cannot be added. -/
def addSeeds (d : Desk) (now : Moment) (records : List Value) : Except ModelError Desk :=
  match Store.seed now (records.map .raw) d.store with
  | (store, .ok _) => .ok { d with store := store }
  | (_, .error e) => .error e

/-- Put the records of a file into the store and log their number. -/
def addSeedFile (d : Desk) (clock : Clock) (fs : Files) (path : Text) :
    Except StartError Desk :=
  match loadRecords fs .here path with
  | .error e => .error (.seedFile e)
  | .ok records =>
    match d.addSeeds clock.now records with
    | .error e => .error (.seedRecord e)
    | .ok d =>
      .ok { d with
        trail := d.trail.tell clock .info (.text "storage_seeded")
          [("records", .int records.length)] }

/-- The desk that settings describe, with the draws of the given source if there is one. -/
def start (s : Settings) (fs : Files) (draws : Option RandomSource) (clock : Clock) :
    Except StartError Desk :=
  match Assessor.ofSettings s.assessment (s.assessment.source draws) with
  | .error e => .error (.probability e)
  | .ok assessor =>
    let d : Desk := ⟨Store.empty, assessor, s.trail, s.web.topCount⟩
    match SettingsSource.given s.storage.seedFile with
    | none => .ok d
    | some path => d.addSeedFile clock fs path

end Desk

end StockRegister
