import StockRegister.Proofs.FreshIds
import StockRegister.Proofs.Soundness

/-!
# The life of a record

Every record of the store after an errand was there before, untouched by the errand, or the errand
made it : it was created, revised or repriced (`Desk.Provenance`, `Effect.provenance`). What
holds of a record all its life is read off these four cases, an errand at a time from the end
of the history.

A record is sound as long as all requests were read by their models (`isSound_after`), although
changes check nothing. The time of its creation never changes (`createdAt_of_after`), and the
time of its last change is null exactly as long as no errand changed it
(`updatedAt_eq_none_iff`). The latter needs that an id is not changed before it is given out
(`lt_nextId_of_changed`). `sound_of_seed` puts this together for a desk that starts with records.
-/

namespace StockRegister

open Schema

/-! ## Requests that were read -/

/-- The details of a record to start with were read by their model, or are still to be. -/
def SeedRecord.IsChecked : SeedRecord → Prop
  | raw _ => True
  | details d => ∃ v, Model.createRequest.read v = .ok (.createRequest d)

theorem SeedRecord.IsChecked.isSound {r : SeedRecord} (hr : r.IsChecked) {d : StockDetails}
    (hd : r.read = .ok d) : d.IsSound := by
  cases r with
  | raw v =>
    unfold read at hd
    dsimp only at hd
    split at hd
    · rename_i hread
      cases hd
      obtain ⟨fields, -, hfields⟩ := readModel_eq_ok.mp hread
      exact StockDetails.isSound_of_readFields hfields
    · cases hd
  | details d' =>
    obtain ⟨v, hv⟩ := hr
    cases hd
    exact Model.isSound_of_read hv

/-- Records that are started with have every property that new records of their details have. -/
theorem Store.forall_mem_seed {P : Stock → Prop} {now : Moment} {records : List SeedRecord}
    (hnew : ∀ r ∈ records, ∀ d id symbol companyName, r.read = .ok d → 1 ≤ id →
      P (.made id now d symbol companyName)) {s : Store} (hs : s.Ordered)
    (hold : ∀ x ∈ s.toList, P x) : ∀ x ∈ (seed now records s).1.toList, P x := by
  induction records generalizing s with
  | nil => exact hold
  | cons r records ih =>
    rcases seed_cons_cases s now r records with ⟨e, heq⟩ | ⟨d, stock, s', hread, ha⟩
    · rw [heq]
      exact hold
    · rw [seed_cons_of_add hread ha]
      refine ih (fun r hr => hnew r (List.mem_cons_of_mem _ hr)) (hs.add ha) fun x hx => ?_
      rw [hs.toList_of_add ha, List.mem_append, List.mem_singleton] at hx
      rcases hx with hx | rfl
      · exact hold x hx
      · obtain ⟨symbol, companyName, -, -, rfl, -⟩ := add_eq_ok_iff.mp ha
        exact hnew r List.mem_cons_self d _ symbol companyName hread hs.one_le_nextId

namespace Desk

/-- The request of an errand was read by its model, if there is one. -/
def Errand.IsChecked : Errand → Prop
  | createStock (some d) => ∃ v, Model.createRequest.read v = .ok (.createRequest d)
  | updateStock _ d => ∃ v, Model.updateRequest.read v = .ok (.updateRequest d)
  | updateStockPrice _ p => ∃ v, Model.priceUpdate.read v = .ok (.priceUpdate p)
  | _ => True

/-! ## Where records come from -/

/-- The id of the record that an errand changed. -/
def changedId? : Errand × Except DeskError Answer → Option Int
  | (.updateStock v _, .ok _) => v.numericInt?
  | (.updateStockPrice v _, .ok _) => v.numericInt?
  | _ => none

theorem changedId?_error (r : Errand) (e : DeskError) : changedId? (r, .error e) = none := by
  cases r <;> rfl

theorem changedId?_of_isRead {r : Errand} (hr : r.isRead = true) (a : Answer) :
    changedId? (r, .ok a) = none := by
  cases r <;> first
    | rfl
    | cases hr

/-- Where a record of the store after an errand comes from. -/
inductive Provenance (s : Store) (now : Moment) :
    Errand × Except DeskError Answer → Stock → Prop
  | kept {e : Errand × Except DeskError Answer} {x : Stock} :
      x ∈ s.toList → changedId? e ≠ some x.id → Provenance s now e x
  | created {d : StockDetails} {symbol companyName : Text} {x : Stock} :
      d.symbol = some symbol → d.companyName = some companyName →
        x = .made s.nextId now d symbol companyName →
          Provenance s now (.createStock (some d), .ok (.record x)) x
  | revised {v : Value} {d : StockDetails} {x : Stock} :
      x ∈ s.toList → v.numericInt? = some x.id →
        Provenance s now (.updateStock v d, .ok (.record (x.revised now d))) (x.revised now d)
  | repriced {v : Value} {p : PriceUpdate} {x y : Stock} :
      x ∈ s.toList → v.numericInt? = some x.id →
        y = x.repriced now (.float p.newPrice) (.ofInt? p.volume) →
          Provenance s now (.updateStockPrice v p, .ok (.record y)) y

section Step

variable {s s' : Store} {now : Moment} {r : Errand} {result : Except DeskError Answer}

/-- A record after a change under an id is the changed one, or one of another id. -/
theorem mem_of_modify (hs : s.Ordered) {key : Int} {f : Stock → Stock} {stock : Stock}
    (hm : s.modify key f = some (stock, s')) {x : Stock} (hx : x ∈ s'.toList) :
    (x ∈ s.toList ∧ x.id ≠ key) ∨ ∃ old ∈ s.toList, old.id = key ∧ stock = f old ∧ x = stock := by
  rw [hs.toList_of_modify hm, List.mem_map] at hx
  obtain ⟨y, hy, rfl⟩ := hx
  split_ifs with hkey
  · obtain ⟨old, hold, hstock, -⟩ := Store.modify_eq_some_iff.mp hm
    obtain ⟨hmem, hid⟩ := hs.get?_eq_some_iff.mp hold
    exact Or.inr ⟨old, hmem, hid, hstock, rfl⟩
  · exact Or.inl ⟨hy, hkey⟩

/-- Every record after an errand was there before or was made by the errand. -/
theorem Effect.provenance (h : Effect s now r result s') (hs : s.Ordered) {x : Stock}
    (hx : x ∈ s'.toList) : Provenance s now (r, result) x := by
  cases h with
  | fail r e => exact .kept hx (by simp [changedId?_error])
  | read a hr => exact .kept hx (by simp [changedId?_of_isRead hr])
  | create hadd =>
    rw [hs.toList_of_add hadd, List.mem_append, List.mem_singleton] at hx
    rcases hx with hx | rfl
    · exact .kept hx (by simp [changedId?])
    · obtain ⟨symbol, companyName, hsymbol, hcompany, hmade, -⟩ := Store.add_eq_ok_iff.mp hadd
      exact .created hsymbol hcompany hmade
  | update hkey hm =>
    rcases mem_of_modify hs hm hx with ⟨hmem, hne⟩ | ⟨old, hmem, rfl, hstock, rfl⟩
    · exact .kept hmem (by simp [changedId?, hkey, hne.symm])
    · rw [hstock]
      exact .revised hmem hkey
  | updatePrice hkey hm =>
    rcases mem_of_modify hs hm hx with ⟨hmem, hne⟩ | ⟨old, hmem, rfl, hstock, rfl⟩
    · exact .kept hmem (by simp [changedId?, hkey, hne.symm])
    · exact .repriced hmem hkey hstock
  | delete _ hm =>
    rw [hs.toList_of_remove hm] at hx
    exact .kept (List.mem_of_mem_filter hx) (by simp [changedId?])

/-- An errand changes only a record that is there. -/
theorem Effect.lt_nextId_of_changed (h : Effect s now r result s') (hs : s.Ordered) {i : Int}
    (hi : changedId? (r, result) = some i) : i < s.nextId := by
  have hfound {key : Int} {f : Stock → Stock} {stock : Stock} (hkey : key = i)
      (hm : s.modify key f = some (stock, s')) : i < s.nextId := by
    obtain ⟨old, hold, -⟩ := Store.modify_eq_some_iff.mp hm
    obtain ⟨hmem, hid⟩ := hs.get?_eq_some_iff.mp hold
    have hlt := hs.lt_nextId old hmem
    omega
  cases h with
  | fail => simp [changedId?_error] at hi
  | read a hr => simp [changedId?_of_isRead hr] at hi
  | create | delete => cases hi
  | update hkey hm => exact hfound (Option.some.inj (hkey.symm.trans hi)) hm
  | updatePrice hkey hm => exact hfound (Option.some.inj (hkey.symm.trans hi)) hm

namespace Provenance

variable {e : Errand × Except DeskError Answer} {x : Stock}

theorem isSound (h : Provenance s now e x) (hs : s.Ordered) (hr : e.1.IsChecked)
    (hsound : ∀ y ∈ s.toList, y.IsSound) : x.IsSound := by
  cases h with
  | kept hx => exact hsound x hx
  | created _ _ hmade =>
    obtain ⟨v, hv⟩ := hr
    rw [hmade]
    exact Stock.isSound_made hs.one_le_nextId now (Model.isSound_of_read hv) _ _
  | revised hx =>
    obtain ⟨v, hv⟩ := hr
    exact (hsound _ hx).revised now (Model.isSound_of_read hv)
  | repriced hx _ hy =>
    obtain ⟨v, hv⟩ := hr
    rw [hy]
    exact (hsound _ hx).repriced now (Model.isSound_of_read hv)

/-- A record is new, or has the time of creation of the one that had its id. -/
theorem createdAt (h : Provenance s now e x) :
    x.id = s.nextId ∨ ∃ y ∈ s.toList, y.id = x.id ∧ x.createdAt = y.createdAt := by
  cases h with
  | kept hx => exact Or.inr ⟨x, hx, rfl, rfl⟩
  | created _ _ hmade =>
    rw [hmade]
    exact Or.inl rfl
  | revised hx => exact Or.inr ⟨_, hx, rfl, rfl⟩
  | repriced hx _ hmade =>
    rw [hmade]
    exact Or.inr ⟨_, hx, rfl, rfl⟩

/-- A record was changed by the errand, or it is new, or the errand left it as it was. -/
theorem updatedAt (h : Provenance s now e x) :
    (changedId? e = some x.id ∧ x.updatedAt ≠ none) ∨ changedId? e ≠ some x.id ∧
      (x ∈ s.toList ∨ x.id = s.nextId ∧ x.updatedAt = none) := by
  cases h with
  | kept hx hne => exact Or.inr ⟨hne, Or.inl hx⟩
  | created _ _ hmade =>
    rw [hmade]
    exact Or.inr ⟨by simp [changedId?], Or.inr ⟨rfl, rfl⟩⟩
  | revised _ hid => exact Or.inl ⟨hid, by simp [Stock.revised]⟩
  | repriced _ hid hmade =>
    rw [hmade]
    exact Or.inl ⟨hid, by simp [Stock.repriced]⟩

end Provenance

end Step

/-! ## Histories from their end -/

section Histories

variable (d : Desk)

theorem after_append (earlier later : List (Clock × Errand)) :
    d.after (earlier ++ later) = (d.after earlier).after later := by
  induction earlier generalizing d with
  | nil => rfl
  | cons e earlier ih => exact ih (d.handle e.1 e.2).1

theorem history_append (earlier later : List (Clock × Errand)) :
    d.history (earlier ++ later) = d.history earlier ++ (d.after earlier).history later := by
  induction earlier generalizing d with
  | nil => rfl
  | cons e earlier ih => exact congrArg _ (ih (d.handle e.1 e.2).1)

theorem history_append_singleton (errands : List (Clock × Errand)) (e : Clock × Errand) :
    d.history (errands ++ [e]) =
      d.history errands ++ [(e.2, ((d.after errands).handle e.1 e.2).2)] :=
  d.history_append errands [e]

variable {d}

/-- What the last errand came to. -/
theorem effect_after (errands : List (Clock × Errand)) (e : Clock × Errand) :
    Effect (d.after errands).store e.1.now e.2 ((d.after errands).handle e.1 e.2).2
      (d.after (errands ++ [e])).store := by
  rw [after_append]
  exact (d.after errands).effect_handle e.1 e.2

theorem nextId_le_after (errands : List (Clock × Errand)) :
    d.store.nextId ≤ (d.after errands).store.nextId := by
  rw [nextId_after]
  omega

theorem isSound_after (hd : d.store.Ordered) (hsound : ∀ x ∈ d.store.toList, x.IsSound)
    {errands : List (Clock × Errand)} (he : ∀ e ∈ errands, e.2.IsChecked) :
    ∀ x ∈ (d.after errands).store.toList, x.IsSound := by
  induction errands using List.reverseRecOn with
  | nil => exact hsound
  | append_singleton errands e ih =>
    intro x hx
    have hbefore := ih fun e' he' => he e' (List.mem_append_left _ he')
    have hordered := ordered_after errands hd
    exact ((effect_after errands e).provenance hordered hx).isSound hordered
      (he e (List.mem_append_right _ (List.mem_singleton_self e))) hbefore

/-- The time at which a record was created never changes. -/
theorem createdAt_of_after (hd : d.store.Ordered) {errands : List (Clock × Errand)} {x y : Stock}
    (hx : x ∈ d.store.toList) (hy : y ∈ (d.after errands).store.toList) (hid : x.id = y.id) :
    y.createdAt = x.createdAt := by
  induction errands using List.reverseRecOn generalizing y with
  | nil => rw [hd.eq_of_id_eq hx hy hid]
  | append_singleton errands e ih =>
    have hprov := (effect_after errands e).provenance (ordered_after errands hd) hy
    rcases hprov.createdAt with hnew | ⟨z, hz, hzid, hcreated⟩
    · -- A new record has an id that no record had before.
      have hlt := hd.lt_nextId x hx
      have hle := nextId_le_after (d := d) errands
      omega
    · rw [hcreated]
      exact ih hz (hid.trans hzid.symm)

theorem lt_nextId_of_changed (hd : d.store.Ordered) {errands : List (Clock × Errand)} {i : Int}
    (hi : ∃ e ∈ d.history errands, changedId? e = some i) :
    i < (d.after errands).store.nextId := by
  induction errands using List.reverseRecOn with
  | nil =>
    obtain ⟨e, he, -⟩ := hi
    cases he
  | append_singleton errands e ih =>
    have hle : (d.after errands).store.nextId ≤ (d.after (errands ++ [e])).store.nextId := by
      rw [after_append]
      exact nextId_le_after [e]
    obtain ⟨e', he', hchanged⟩ := hi
    rw [history_append, List.mem_append] at he'
    rcases he' with he' | he'
    · exact Int.lt_of_lt_of_le (ih ⟨e', he', hchanged⟩) hle
    · obtain rfl := List.mem_singleton.mp he'
      exact Int.lt_of_lt_of_le
        ((effect_after errands e).lt_nextId_of_changed (ordered_after errands hd) hchanged) hle

/-- The time of the last change is null exactly as long as no errand changed the record. -/
theorem updatedAt_eq_none_iff (hd : d.store.Ordered)
    (hnew : ∀ x ∈ d.store.toList, x.updatedAt = none) {errands : List (Clock × Errand)} {x : Stock}
    (hx : x ∈ (d.after errands).store.toList) :
    x.updatedAt = none ↔ ∀ e ∈ d.history errands, changedId? e ≠ some x.id := by
  induction errands using List.reverseRecOn generalizing x with
  | nil => simp [hnew x hx, history]
  | append_singleton errands e ih =>
    have hprov := (effect_after errands e).provenance (ordered_after errands hd) hx
    rw [history_append_singleton]
    simp only [List.forall_mem_append, List.forall_mem_singleton]
    rcases hprov.updatedAt with ⟨hchanged, hupdated⟩ | ⟨hne, hmem | ⟨hid, hupdated⟩⟩
    · exact ⟨fun h => absurd h hupdated, fun h => absurd hchanged h.2⟩
    · rw [ih hmem]
      exact ⟨fun h => ⟨h, hne⟩, And.left⟩
    · refine ⟨fun _ => ⟨fun e' he' hchanged => ?_, hne⟩, fun _ => hupdated⟩
      have hlt := lt_nextId_of_changed hd ⟨e', he', hchanged⟩
      omega

/-- The records that a desk starts with are sound if their details were read, and unchanged. -/
theorem new_of_seed {now : Moment} {records : List SeedRecord}
    (hr : ∀ r ∈ records, r.IsChecked) :
    ∀ x ∈ (Store.seed now records .empty).1.toList, x.IsSound ∧ x.updatedAt = none := by
  refine Store.forall_mem_seed ?_ Store.ordered_empty (by simp [Store.empty, Store.toList])
  intro r hmem d id symbol companyName hd hid
  exact ⟨Stock.isSound_made hid now ((hr r hmem).isSound hd) symbol companyName, rfl⟩

end Histories

/-- From a desk that starts with records, if all requests were read by their models, whatever
is asked of it : every record keeps the bounds of its model, so that the model reads it back as
it is, it keeps the time of its creation, and the time of its last change is null exactly as long
as no errand changed it. -/
theorem sound_of_seed {records : List SeedRecord} (hr : ∀ r ∈ records, r.IsChecked)
    (now : Moment) (assessor : Assessor) (trail : Trail) (topCount : Int)
    {errands : List (Clock × Errand)} (he : ∀ e ∈ errands, e.2.IsChecked) :
    let d : Desk := ⟨(Store.seed now records .empty).1, assessor, trail, topCount⟩
    ∀ x ∈ (d.after errands).store.toList,
      x.IsSound ∧
      (∀ naming, Model.stock.read ((Record.stock x).write naming) = .ok (.stock x)) ∧
      (∀ earlier later, errands = earlier ++ later →
        ∀ y ∈ (d.after earlier).store.toList, y.id = x.id → x.createdAt = y.createdAt) ∧
      (x.updatedAt = none ↔ ∀ e ∈ d.history errands, changedId? e ≠ some x.id) := by
  intro d x hx
  have hordered : d.store.Ordered := Store.ordered_empty.seed now records
  have hnew : ∀ y ∈ d.store.toList, y.IsSound ∧ y.updatedAt = none := new_of_seed hr
  have hsound : x.IsSound := isSound_after hordered (fun y hy => (hnew y hy).1) he x hx
  refine ⟨hsound, fun naming => (x.isSound_iff_read naming).mp hsound, ?_, ?_⟩
  · rintro earlier later rfl y hy hid
    rw [after_append] at hx
    exact createdAt_of_after (ordered_after earlier hordered) hy hx hid
  · exact updatedAt_eq_none_iff hordered (fun y hy => (hnew y hy).2) hx

/-- A price update for the id `true` changes the first record, and one that is created after it is
unchanged. -/
theorem sound_of_repriced_seed :
    let records := [SeedRecord.raw (.object [("symbol", .text "ACME"),
      ("companyName", .text "Acme"), ("current_price", .int 3)])]
    let details : StockDetails := ⟨some "BETA", some "Beta", none, none, some 0, none, none⟩
    let clock : Clock := ⟨⟨⟨2024, 2, 29⟩, 0, 0, 0, 0, none⟩, Double.zero⟩
    let errands := [(clock, Errand.updateStockPrice (.bool true) ⟨Double.one, none⟩),
      (clock, .createStock (some details))]
    (∀ r ∈ records, r.IsChecked) ∧ (∀ e ∈ errands, e.2.IsChecked) ∧
      ∃ a, Assessor.ofSettings {} (.cycle Double.zero []) = .ok a ∧
        let d : Desk := ⟨(Store.seed clock.now records .empty).1, a, {}, 10⟩
        (d.after errands).store.toList.map Stock.updatedAt = [some clock.now, none] ∧
          ∀ x ∈ (d.after errands).store.toList, x.IsSound ∧
            (x.updatedAt = none ↔ ∀ e ∈ d.history errands, changedId? e ≠ some x.id) := by
  intro records details clock errands
  have hr : ∀ r ∈ records, r.IsChecked := by
    intro r hr
    obtain rfl := List.mem_singleton.mp hr
    trivial
  have he : ∀ e ∈ errands, e.2.IsChecked := by
    intro e he
    rcases List.mem_pair.mp he with rfl | rfl
    · exact ⟨.object [("newPrice", .float Double.one)], rfl⟩
    · exact ⟨.object [("symbol", .text "BETA"), ("companyName", .text "Beta"), ("volume", .int 0)],
        rfl⟩
  refine ⟨hr, he, _, rfl, rfl, fun x hx => ?_⟩
  obtain ⟨hsound, -, -, hupdated⟩ := sound_of_seed hr clock.now _ {} 10 he x hx
  exact ⟨hsound, hupdated⟩

end Desk

end StockRegister
