import Mathlib.Data.List.Forall2
import StockRegister.Proofs.Lifetime

/-!
# Records to start with

A record to start with is refused if it is not read as details, or if its details lack a symbol or
a company (`SeedRecord.refusal?`). Neither depends on the store, the time or the other records.

Records that are not refused are stored one after the other (`Store.StoresAll`) : behind the records
that are there, each as it was read, under consecutive ids from the next one on
(`Store.exists_storesAll`). The first one that is refused ends this with its own error, takes no id,
and hides all that come after it. `Store.Seeds` puts this together, and `seeds_applyAll_empty`
proves it of every store that any changes lead to.
-/

namespace StockRegister

open Schema

/-! ## Refusals -/

/-- What is wrong with details as those of a record : a text that is null. -/
def StockDetails.lacks (d : StockDetails) : List Problem :=
  (if d.symbol = none then [⟨.notText, [.name "symbol"]⟩] else []) ++
    if d.companyName = none then [⟨.notText, [.name "company_name"]⟩] else []

/-- Why a record to start with cannot be stored, if it cannot. -/
def SeedRecord.refusal? (r : SeedRecord) : Option ModelError :=
  match r.read with
  | .error e => some e
  | .ok d => if d.lacks = [] then none else some ⟨"Stock", d.lacks⟩

theorem StockDetails.lacks_eq_nil_iff (d : StockDetails) : d.lacks = [] ↔ d.IsComplete := by
  unfold lacks IsComplete
  cases d.symbol <;> cases d.companyName <;> simp

/-- Details of which no record can be made lack something. -/
theorem Stock.ofDetails_of_lacks {d : StockDetails} (h : d.lacks ≠ []) (id : Int) (now : Moment) :
    ofDetails id now d = .bad d.lacks := by
  obtain ⟨symbol, companyName, current, previous, volume, cap, sector⟩ := d
  cases symbol with
  | none => cases companyName <;> rfl
  | some symbol =>
    cases companyName with
    | none => rfl
    | some companyName => exact absurd rfl h

namespace SeedRecord

theorem refusal?_eq_none_iff (r : SeedRecord) : r.refusal? = none ↔ r.IsComplete := by
  unfold refusal? IsComplete
  cases r.read with
  | error e => simp
  | ok d =>
    dsimp only
    split_ifs with h
    · simpa using d.lacks_eq_nil_iff.mp h
    · simpa using fun hd => h (d.lacks_eq_nil_iff.mpr hd)

/-- A stored record is what a record to start with was read as. -/
def Makes (now : Moment) (r : SeedRecord) (x : Stock) : Prop :=
  ∃ d symbol companyName, r.read = .ok d ∧ d.symbol = some symbol ∧
    d.companyName = some companyName ∧ x = .made x.id now d symbol companyName

end SeedRecord

namespace Store

/-! ## Records one after the other -/

variable {s s₁ s' : Store} {now : Moment} {r : SeedRecord} {records : List SeedRecord}
  {x : Stock} {stocks : List Stock}

/-- Records to start with are in a store behind all that were there, in order, under consecutive
ids from the next one on. -/
structure StoresAll (s : Store) (now : Moment) (records : List SeedRecord) (stocks : List Stock)
    (s' : Store) : Prop where
  made : List.Forall₂ (SeedRecord.Makes now) records stocks
  ids : stocks.map Stock.id = (List.range records.length).map fun (i : Nat) => s.nextId + i
  entries : s'.entries = s.entries ++ stocks.map fun x => (x.id, x)
  nextId : s'.nextId = s.nextId + records.length

theorem StoresAll.nil (s : Store) (now : Moment) : s.StoresAll now [] [] s where
  made := .nil
  ids := rfl
  entries := (List.append_nil _).symm
  nextId := (Int.add_zero _).symm

theorem StoresAll.cons (hs : s.Ordered) {d : StockDetails} (hread : r.read = .ok d)
    (ha : s.add now d = .ok (x, s₁)) (h : s₁.StoresAll now records stocks s') :
    s.StoresAll now (r :: records) (x :: stocks) s' where
  made := by
    obtain ⟨symbol, companyName, hsymbol, hcompany, rfl, -⟩ := add_eq_ok_iff.mp ha
    exact .cons ⟨d, symbol, companyName, hread, hsymbol, hcompany, rfl⟩ h.made
  ids := by
    have hshift : ∀ i : Nat, s.nextId + 1 + (i : Int) = s.nextId + (i + 1 : Nat) := by
      intro i
      omega
    rw [List.map_cons, h.ids, id_of_add ha, nextId_of_add ha, List.length_cons,
      List.range_succ_eq_map, List.map_cons, List.map_map]
    simp only [hshift]
    simp [Function.comp_def]
  entries := by
    rw [h.entries, hs.entries_of_add ha, List.append_assoc]
    rfl
  nextId := by
    rw [h.nextId, nextId_of_add ha, List.length_cons]
    omega

theorem StoresAll.toList (h : s.StoresAll now records stocks s') :
    s'.toList = s.toList ++ stocks := by
  rw [Store.toList, h.entries, List.map_append, List.map_map, Store.toList]
  simp [Function.comp_def]

/-- Records that are not refused are all stored, and those behind them come next. -/
theorem exists_storesAll (hs : s.Ordered) (now : Moment)
    (hrecords : ∀ r ∈ records, r.refusal? = none) :
    ∃ stocks s', s.StoresAll now records stocks s' ∧ ∀ rest,
      seed now (records ++ rest) s =
        ((seed now rest s').1, (seed now rest s').2.map (stocks ++ ·)) := by
  induction records generalizing s with
  | nil =>
    refine ⟨[], s, .nil s now, fun rest => ?_⟩
    cases hrest : seed now rest s with
    | mk s' result => cases result <;> simp [hrest, Except.map]
  | cons r records ih =>
    obtain ⟨hr, hrecords⟩ := List.forall_mem_cons.mp hrecords
    obtain ⟨d, hread, hd⟩ := r.refusal?_eq_none_iff.mp hr
    obtain ⟨x, s₁, ha⟩ := exists_add_of_isComplete now hd s
    obtain ⟨stocks, s', hall, hrest⟩ := ih (hs.add ha) hrecords
    refine ⟨x :: stocks, s', .cons hs hread ha hall, fun rest => ?_⟩
    rw [List.cons_append, seed_cons_of_add hread ha, hrest rest]
    cases (seed now rest s').2 <;> rfl

/-- A record that is refused ends the adding, whatever comes after it. -/
theorem seed_of_refusal {e : ModelError} (hr : r.refusal? = some e) (s : Store) (now : Moment)
    (after : List SeedRecord) : seed now (r :: after) s = (s, .error e) := by
  rw [seed_cons]
  unfold SeedRecord.refusal? at hr
  cases hread : r.read with
  | error e' =>
    rw [hread] at hr
    rw [Option.some.inj hr]
  | ok d =>
    rw [hread] at hr
    dsimp only at hr
    split_ifs at hr with hlacks
    have ha : s.add now d = .error e := by
      unfold add
      rw [Stock.ofDetails_of_lacks hlacks, ← Option.some.inj hr]
    simp only [ha]

/-! ## Seeding -/

/-- What becomes of records that a store is to start with. The first one that is refused gives its
error, and exactly those before it are stored; if none is refused, all are. -/
structure Seeds (s : Store) (now : Moment) : Prop where
  stopped : ∀ before r e, (∀ b ∈ before, b.refusal? = none) → r.refusal? = some e →
    ∃ stocks s', s.StoresAll now before stocks s' ∧
      ∀ after, seed now (before ++ r :: after) s = (s', .error e)
  all : ∀ records, (∀ r ∈ records, r.refusal? = none) →
    ∃ stocks s', s.StoresAll now records stocks s' ∧ seed now records s = (s', .ok stocks) ∧
      s'.toList = s.toList ++ stocks
  /-- A record that cannot be added leaves the store as it is. -/
  failed : ∀ d e, s.add now d = .error e → d.lacks ≠ [] ∧ e = ⟨"Stock", d.lacks⟩ ∧
    s.apply (.add now d) = s
  /-- Of details that were read by their model, adding refuses what the model of records refuses,
  for the same problems. -/
  checked : ∀ r : SeedRecord, r.IsChecked → ∀ d, r.read = .ok d →
    (Model.stock.read (writeModel .plain (Stock.newEntries s.nextId now d))).toExcept =
      ((s.add now d).mapError ModelError.problems).map fun made => .stock made.1

theorem Ordered.seeds (hs : s.Ordered) (now : Moment) : s.Seeds now where
  stopped before r e hbefore hr := by
    obtain ⟨stocks, s', hall, hrest⟩ := exists_storesAll hs now hbefore
    refine ⟨stocks, s', hall, fun after => ?_⟩
    rw [hrest, seed_of_refusal hr]
    rfl
  all records hrecords := by
    obtain ⟨stocks, s', hall, hrest⟩ := exists_storesAll hs now hrecords
    refine ⟨stocks, s', hall, ?_, hall.toList⟩
    have hend := hrest []
    rw [List.append_nil] at hend
    rw [hend]
    show (s', Except.ok (stocks ++ [])) = _
    rw [List.append_nil]
  failed d e ha := by
    have hlacks : d.lacks ≠ [] := by
      intro h
      obtain ⟨x, s', hok⟩ := exists_add_of_isComplete now (d.lacks_eq_nil_iff.mp h) s
      rw [hok] at ha
      cases ha
    refine ⟨hlacks, ?_, ?_⟩
    · unfold add at ha
      rw [Stock.ofDetails_of_lacks hlacks] at ha
      exact (Except.error.inj ha).symm
    · unfold Store.apply
      dsimp only
      rw [ha]
  checked r hr d hread := by
    rw [Stock.read_newEntries hs.one_le_nextId now (hr.isSound hread)]
    unfold add
    cases Stock.ofDetails s.nextId now d <;> rfl

/-- In every store that any changes lead to, records to start with are stored in order under
consecutive ids up to the first that is refused. That one gives its own error, takes no id, and
leaves what is stored as it is; if there is none, the answer is what all records end with. -/
theorem seeds_applyAll_empty (changes : List Change) (now : Moment) :
    (empty.applyAll changes).Seeds now :=
  (ordered_applyAll_empty changes).1.seeds now

/-- Behind a record that was read and one that is still to be, the third one lacks its company, and
the fourth one is not looked at. -/
example (now : Moment) :
    let acme : StockDetails := ⟨some "ACME", some "Acme", none, none, none, none, none⟩
    let beta : StockDetails := ⟨some "BETA", some "Beta", none, none, none, none, none⟩
    seed now
      [.details acme, .raw (.object [("symbol", .text "BETA"), ("company_name", .text "Beta")]),
        .raw (.object [("symbol", .text "GAMMA"), ("companyName", .null)]), .raw .null] .empty =
      (⟨[(1, .made 1 now acme "ACME" "Acme"), (2, .made 2 now beta "BETA" "Beta")], 3⟩,
        .error ⟨"Stock", [⟨.notText, [.name "company_name"]⟩]⟩) :=
  rfl

end Store

end StockRegister
