import StockRegister.Proofs.Commuting

/-!
# Raw ids

An errand about one record is given a raw value for its id. The assessment reads the value as an
integer, and the store is looked into with the value itself, which finds a record only if the value
equals its id as a number. A value may be read as an integer without being equal to it, as a text
is, but not as one integer while it equals another (`key_of_readInt`). So an errand that did not
fail was assessed for the id that the value stands for (`exists_names_of_act`).

`Desk.ActsOn` says what such an errand has done : it was about one record, under the id that was
assessed, which is positive and not the sentinel of its purpose, and all else in the store is as it
was. `actsOn_of_handle` says that an errand does this if it does not fail, and `handle_of_names`
that it does not fail if there is such a record. `acts_on_one_record` is both for every desk that
starts with records, whatever was asked of it.
-/

namespace StockRegister

open Schema

/-! ## What is left of a store -/

namespace Store

variable {s : Store} {i : Int}

/-- What is found at an id is what was left of the record there. -/
theorem get?_leave_self (hs : s.Ordered) (left : Stock → Option Stock) :
    (s.leave i left).get? i = (s.get? i).bind left := by
  have hkeys := hs.nodup_keys
  unfold get? leave
  dsimp only
  generalize s.entries = entries at hkeys ⊢
  induction entries with
  | nil => rfl
  | cons e entries ih =>
    obtain ⟨k, r⟩ := e
    rw [List.map_cons, List.nodup_cons] at hkeys
    rw [List.filterMap_cons]
    by_cases hk : k = i
    · subst hk
      cases hleft : left r with
      | some r' => simp [hleft]
      | none =>
        -- No other entry has the key.
        simp only [if_pos, hleft, Option.map_none, List.lookup_cons_self, Option.bind_some]
        rw [List.lookup_eq_none_iff]
        intro e' he'
        obtain ⟨e, he, heq⟩ := List.mem_filterMap.mp he'
        have hne : e.1 ≠ k := fun h => hkeys.1 (List.mem_map.mpr ⟨e, he, h⟩)
        rw [if_neg hne, Option.some.injEq] at heq
        simpa [← heq] using hne.symm
    · have hki : (i == k) = false := beq_eq_false_iff_ne.mpr (Ne.symm hk)
      simp only [if_neg hk, List.lookup_cons, hki]
      exact ih hkeys.2

/-- The records of other ids are as they were, and in the same order. -/
theorem others_of_leave (hs : s.Ordered) {left : Stock → Option Stock}
    (hleft : ∀ r r', left r = some r' → r'.id = r.id) :
    (s.leave i left).toList.filter (·.id ≠ i) = s.toList.filter (·.id ≠ i) := by
  have hkeyed := hs.keyed
  unfold toList leave
  dsimp only
  generalize s.entries = entries at hkeyed ⊢
  induction entries with
  | nil => rfl
  | cons e entries ih =>
    obtain ⟨k, r⟩ := e
    obtain rfl : k = r.id := hkeyed _ List.mem_cons_self
    have hrest := ih fun e he => hkeyed e (List.mem_cons_of_mem _ he)
    rw [List.filterMap_cons]
    by_cases hk : r.id = i
    · cases hr : left r with
      | none => simpa [hk, hr] using hrest
      | some r' => simpa [hk, hr, hleft r r' hr] using hrest
    · simpa [hk] using hrest

end Store

namespace Desk

/-! ## Errands under a raw id -/

namespace Errand

/-- An errand under a raw id is about what its operation reads the value as, an id of one
purpose. -/
theorem exists_purpose_of_id? {x : Errand} {v : Value} (hx : x.id? = some v) :
    ∃ purpose, x.operation.operandShape = (.entity, some purpose) ∧
      x.operand = Operand.ofValue x.operation v := by
  cases x with
  | getStock | updateStock | updateStockPrice | deleteStock =>
    obtain rfl := Option.some.inj hx
    exact ⟨_, rfl, rfl⟩
  | _ => cases hx

/-- An errand acts only if its raw id equals an integer. -/
theorem exists_numericInt?_of_act {x : Errand} {v : Value} (hx : x.id? = some v) {now : Moment}
    {topCount : Int} {s : Store} {made : Answer × Store}
    (hact : x.act now topCount s = .ok made) : ∃ key, v.numericInt? = some key := by
  have hseek {α : Type} {find : Int → Option α} {f : α → Answer × Store}
      (h : (seek v find).map f = .ok made) : ∃ key, v.numericInt? = some key := by
    obtain ⟨a, ha, -⟩ := exists_of_map_eq_ok h
    obtain ⟨key, hkey, -⟩ := exists_key_of_seek ha
    exact ⟨key, hkey⟩
  cases x with
  | getStock | updateStock | updateStockPrice | deleteStock =>
    obtain rfl := Option.some.inj hx
    exact hseek hact
  | _ => cases hx

/-- What is answered and what is left of a record has the id of the record. -/
theorem id_of_meet (x : Errand) (now : Moment) (r : Stock) :
    (∀ r', (x.meet now r).1 = .record r' → r'.id = r.id) ∧
      ∀ r', (x.meet now r).2 = some r' → r'.id = r.id := by
  cases x with
  | updateStock v d =>
    constructor <;> rintro _ ⟨⟩ <;> exact r.revised_id now d
  | updateStockPrice v p =>
    constructor <;> rintro _ ⟨⟩ <;> exact r.repriced_id now (.float p.newPrice) (.ofInt? p.volume)
  | _ => constructor <;> rintro _ ⟨⟩ <;> rfl

end Errand

theorem ne_sentinel_of_proceed {s : AssessmentSettings} {draw : Double} {i : Int}
    {purpose : IdPurpose} (hi : 0 < i)
    (h : s.twoChecks draw (.entity (some i) purpose) = .proceed) :
    i ≠ s.sentinels.idFor purpose := by
  rintro rfl
  have hvalid : (Operand.entity (some (s.sentinels.idFor purpose)) purpose).IsValid := ⟨_, rfl, hi⟩
  rw [AssessmentSettings.twoChecks, if_pos hvalid] at h
  cases purpose <;> simp [AssessmentSettings.objection?, Sentinels.idFor] at h

/-- A valid id that acts on the store is the one that the raw value stands for. -/
theorem exists_names_of_act {x : Errand} {v : Value} (hx : x.id? = some v) {o : Operand}
    (ho : x.operand = .ok o) (hvalid : o.IsValid) {now : Moment} {topCount : Int} {s : Store}
    {made : Answer × Store} (hact : x.act now topCount s = .ok made) :
    ∃ i purpose, x.operation.operandShape = (.entity, some purpose) ∧
      o = .entity (some i) purpose ∧ v.Names i ∧ 0 < i := by
  obtain ⟨purpose, hshape, hoperand⟩ := Errand.exists_purpose_of_id? hx
  rw [hoperand] at ho
  obtain ⟨i, hread, hi⟩ := exists_readInt_of_ofValue hshape ho hvalid
  have hentity := Operand.ofValue_of_readInt hshape hread
  obtain ⟨key, hkey⟩ := Errand.exists_numericInt?_of_act hx hact
  have hnumber : v.numericInt? = some i :=
    (key_of_readInt hread).2.resolve_right (by simp [hkey])
  exact ⟨i, purpose, hshape, Checked.ok.inj (ho.symm.trans hentity), ⟨hread, hnumber⟩, hi⟩

/-- An errand under a raw id that was answered acted on one record : it stands under the id that was
assessed, and no other record differs afterwards. -/
structure ActsOn (s : AssessmentSettings) (d : Desk) (now : Moment) (x : Errand) (v : Value)
    (reply : Answer) (d' : Desk) (i : Int) (r : Stock) : Prop where
  /-- The id was assessed for the purpose of the errand, and is not the sentinel of that. -/
  assessed : ∃ purpose, x.operation.operandShape = (.entity, some purpose) ∧
    x.operand = .ok (.entity (some i) purpose) ∧ i ≠ s.sentinels.idFor purpose
  names : v.Names i
  positive : 0 < i
  found : r ∈ d.store.toList ∧ r.id = i
  answer : reply = (x.meet now r).1
  answer_id : ∀ r', reply = .record r' → r'.id = i
  left : d'.store.get? i = (x.meet now r).2
  left_id : ∀ r', (x.meet now r).2 = some r' → r'.id = i
  others : d'.store.toList.filter (·.id ≠ i) = d.store.toList.filter (·.id ≠ i)
  get?_others : ∀ j ≠ i, d'.store.get? j = d.store.get? j
  nextId : d'.store.nextId = d.store.nextId

section Handling

variable {d : Desk} {s : AssessmentSettings} (hd : d.assessor.Follows s) (hs : d.store.Ordered)
  (clock : Clock) {x : Errand} {v : Value} (hx : x.id? = some v)

include hd hs hx

/-- An errand under a raw id that does not fail acts on one record. -/
theorem actsOn_of_handle {d' : Desk} {answer : Answer}
    (h : d.handle clock x = (d', .ok answer)) :
    ∃ i r, ActsOn s d clock.now x v answer d' i r := by
  obtain ⟨o, ho, hvalid, hact⟩ := act_of_handle clock hd h
  have hproceed : s.twoChecks d.assessor.nextDraw o = .proceed := by
    rcases handle_cases clock hd ho with ⟨_, -, hfail, -⟩ | ⟨hproceed, -⟩
    · rw [h] at hfail
      cases hfail
    · exact hproceed
  obtain ⟨i, purpose, hshape, rfl, hnames, hi⟩ := exists_names_of_act hx ho hvalid hact
  rw [Errand.act_eq_leave hs hx hnames] at hact
  cases hget : d.store.get? i with
  | none =>
    rw [hget] at hact
    cases hact
  | some r =>
    obtain ⟨hmem, hid⟩ := hs.get?_eq_some_iff.mp hget
    obtain ⟨rfl, hstore⟩ : (x.meet clock.now r).1 = answer ∧
        (d.store.leave i fun r => (x.meet clock.now r).2) = d'.store := by
      simpa [hget] using hact
    have hmeet := x.id_of_meet clock.now
    refine ⟨i, r, ⟨purpose, hshape, ho, ne_sentinel_of_proceed hi hproceed⟩, hnames, hi,
      ⟨hmem, hid⟩, rfl, fun r' hr' => ((hmeet r).1 r' hr').trans hid, ?_,
      fun r' hr' => ((hmeet r).2 r' hr').trans hid, ?_, fun j hj => ?_, ?_⟩
    · rw [← hstore, Store.get?_leave_self hs, hget, Option.bind_some]
    · rw [← hstore]
      exact Store.others_of_leave hs fun r => (hmeet r).2
    · rw [← hstore]
      exact Store.get?_leave_of_ne hj _
    · rw [← hstore]
      exact Store.nextId_leave _

/-- An errand is answered from the record of the id that its raw value stands for, unless that is
the sentinel. -/
theorem handle_of_names {i : Int} (hnames : v.Names i) (hi : 0 < i) {purpose : IdPurpose}
    (hshape : x.operation.operandShape = (.entity, some purpose))
    (hne : i ≠ s.sentinels.idFor purpose) {r : Stock} (hr : r ∈ d.store.toList) (hid : r.id = i) :
    (d.handle clock x).2 = .ok (x.meet clock.now r).1 := by
  obtain ⟨purpose', hshape', hoperand⟩ := Errand.exists_purpose_of_id? hx
  have ho := hoperand.trans (Operand.ofValue_of_readInt hshape hnames.read)
  have hproceed := AssessmentSettings.twoChecks_entity_of_ne hi hne d.assessor.nextDraw
  have hact := Errand.act_eq_leave hs hx hnames clock.now d.topCount
  rw [hs.get?_eq_some_iff.mpr ⟨hr, hid⟩, Option.elim_some] at hact
  rcases handle_cases clock hd ho with
    ⟨_, hrejected, -⟩ | ⟨-, ⟨_, hfail, -⟩ | ⟨_, _, hok, hanswer, -⟩⟩
  · rw [hproceed] at hrejected
    cases hrejected
  · rw [hact] at hfail
    cases hfail
  · rw [hact] at hok
    cases hok
    exact hanswer

end Handling

/-- At every desk that starts with records, whatever was asked of it : an errand under any raw id
that fails leaves the store as it is. One that does not fail reads, changes or removes the record of
the id that was assessed, which is positive and not the sentinel, and no other record differs
afterwards. A raw value that stands for such an id of a record is always answered. -/
theorem acts_on_one_record {s : AssessmentSettings} {source : RandomSource} {a : Assessor}
    (ha : a.Reached s source) (records : List SeedRecord) (now : Moment) (trail : Trail)
    (topCount : Int) (errands : List (Clock × Errand)) (clock : Clock) {x : Errand} {v : Value}
    (hx : x.id? = some v) :
    let d := (⟨(Store.seed now records .empty).1, a, trail, topCount⟩ : Desk).after errands
    (∀ e, (d.handle clock x).2 = .error e → (d.handle clock x).1.store = d.store) ∧
      (∀ answer, (d.handle clock x).2 = .ok answer →
        ∃ i r, ActsOn s d clock.now x v answer (d.handle clock x).1 i r) ∧
      ∀ i purpose, v.Names i → 0 < i → x.operation.operandShape = (.entity, some purpose) →
        i ≠ s.sentinels.idFor purpose → ∀ r ∈ d.store.toList, r.id = i →
          (d.handle clock x).2 = .ok (x.meet clock.now r).1 := by
  intro d
  have hd : d.assessor.Follows s := follows_after ha.follows errands
  have hs : d.store.Ordered := ordered_after errands (Store.ordered_empty.seed now records)
  refine ⟨(d.store_handle_of_failed_or_read clock x).1, fun answer h => ?_,
    fun i purpose hnames hi hshape hne r hr hid =>
      handle_of_names hd hs clock hx hnames hi hshape hne hr hid⟩
  exact actsOn_of_handle hd hs clock hx (Prod.ext rfl h)

/-- The truth value `true` is the id of the first record, which is deleted under it; the second one
is not touched. -/
theorem acts_on_first_record :
    let record (symbol : String) : SeedRecord := .raw (.object [("symbol", .text symbol),
      ("companyName", .text "Acme")])
    let clock : Clock := ⟨⟨⟨2024, 2, 29⟩, 0, 0, 0, 0, none⟩, Double.zero⟩
    let x := Errand.deleteStock (.bool true)
    ∃ a, Assessor.ofSettings {} (.cycle Double.zero []) = .ok a ∧ x.id? = some (.bool true) ∧
      let d : Desk := ⟨(Store.seed clock.now [record "ACME", record "BETA"] .empty).1, a, {}, 10⟩
      d.store.toList.map (·.symbol) = [("ACME" : Text), "BETA"] ∧
        (d.handle clock x).2 = .ok .done ∧
        (d.handle clock x).1.store.toList.map (·.symbol) = [("BETA" : Text)] ∧
        ∃ i r, ActsOn {} d clock.now x (.bool true) .done (d.handle clock x).1 i r := by
  intro record clock x
  obtain ⟨a, ha⟩ : ∃ a, Assessor.ofSettings {} (.cycle Double.zero []) = .ok a := ⟨_, rfl⟩
  have hx : x.id? = some (.bool true) := rfl
  obtain ⟨-, hacts, -⟩ := acts_on_one_record (.start ha) [record "ACME", record "BETA"] clock.now {}
    10 [] clock hx
  cases ha
  exact ⟨_, rfl, hx, rfl, rfl, rfl, hacts .done rfl⟩

end Desk

end StockRegister
