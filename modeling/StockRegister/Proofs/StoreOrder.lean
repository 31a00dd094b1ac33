import Mathlib.Data.List.Nodup
import StockRegister.Proofs.Record

/-!
# The order of the store

A store is ordered (`Store.Ordered`) if every record stands under its own id, all ids lie
between 1 and the next id, and the ids of the records strictly increase. The empty store is
ordered, and adding, starting records, changing and removing keep that (`Ordered.add`,
`Ordered.seed`, `Ordered.modify`, `Ordered.remove`), so every sequence of changes does
(`Ordered.applyAll`).

Each of the writes is one function of the list of records : a new record goes to the end, a
changed one stays in its place, and a removal keeps the order of the rest. In an ordered store
all reads agree with that list (`Store.ViewsAgree`). `ordered_applyAll_empty` puts this together
for every store that comes of the empty one.
-/

namespace StockRegister

namespace Store

theorem size_eq_length (s : Store) : s.size = s.toList.length := (List.length_map _).symm

/-! ## Entries under their keys -/

section Entries

variable {entries : List (Int × Stock)} {id : Int} {stock : Stock}

/-- A record under a new id goes to the end. -/
theorem putEntry_of_new (h : ∀ e ∈ entries, e.1 ≠ id) :
    putEntry id stock entries = entries ++ [(id, stock)] := by
  induction entries with
  | nil => rfl
  | cons e entries ih =>
    obtain ⟨k, old⟩ := e
    have hk : k ≠ id := h (k, old) List.mem_cons_self
    rw [putEntry, if_neg hk, ih fun e he => h e (List.mem_cons_of_mem _ he), List.cons_append]

/-- A record under an id that is there takes the place of the old one. -/
theorem putEntry_of_mem (hn : (entries.map Prod.fst).Nodup) (h : id ∈ entries.map Prod.fst) :
    putEntry id stock entries = entries.map fun e => if e.1 = id then (id, stock) else e := by
  induction entries with
  | nil => simp at h
  | cons e entries ih =>
    obtain ⟨k, old⟩ := e
    rw [List.map_cons, List.nodup_cons] at hn
    rw [putEntry, List.map_cons]
    dsimp only
    split_ifs with hk
    · -- No later entry has the key, so the map leaves the rest as it is.
      have hrest : ∀ e ∈ entries, e.1 ≠ id := fun e he heq =>
        hn.1 (hk.trans heq.symm ▸ List.mem_map.mpr ⟨e, he, rfl⟩)
      rw [List.map_congr_left fun e he => if_neg (hrest e he), List.map_id', hk]
    · have hmem : id ∈ entries.map Prod.fst := by simpa [Ne.symm hk] using h
      rw [ih hn.2 hmem]

theorem lookup_eq_some_iff_mem (hn : (entries.map Prod.fst).Nodup) :
    entries.lookup id = some stock ↔ (id, stock) ∈ entries := by
  induction entries with
  | nil => simp
  | cons e entries ih =>
    obtain ⟨k, old⟩ := e
    rw [List.map_cons, List.nodup_cons] at hn
    by_cases hk : id = k
    · subst hk
      have hrest : (id, stock) ∉ entries := fun h => hn.1 (List.mem_map.mpr ⟨_, h, rfl⟩)
      simp [hrest, eq_comm]
    · simp [List.lookup_cons, hk, ih hn.2, beq_eq_false_iff_ne.mpr hk]

end Entries

/-! ## The invariant -/

/-- Every record stands under its own id, all ids lie between 1 and the next id, and the ids of
the records strictly increase. -/
structure Ordered (s : Store) : Prop where
  keyed : ∀ e ∈ s.entries, e.1 = e.2.id
  one_le : ∀ r ∈ s.toList, 1 ≤ r.id
  lt_nextId : ∀ r ∈ s.toList, r.id < s.nextId
  increasing : (s.toList.map Stock.id).Pairwise (· < ·)
  one_le_nextId : 1 ≤ s.nextId

theorem ordered_empty : empty.Ordered where
  keyed := by simp [empty]
  one_le := by simp [empty, toList]
  lt_nextId := by simp [empty, toList]
  increasing := by simp [empty, toList]
  one_le_nextId := Int.le_refl 1

namespace Ordered

variable {s s' : Store} {id : Int} {stock : Stock}

theorem keys_eq (h : s.Ordered) : s.entries.map Prod.fst = s.toList.map Stock.id := by
  rw [toList, List.map_map]
  exact List.map_congr_left h.keyed

theorem nodup_keys (h : s.Ordered) : (s.entries.map Prod.fst).Nodup := by
  rw [h.keys_eq]
  exact h.increasing.imp Int.ne_of_lt

theorem mem_entries_iff (h : s.Ordered) :
    (id, stock) ∈ s.entries ↔ stock ∈ s.toList ∧ stock.id = id := by
  constructor
  · intro he
    exact ⟨List.mem_map_of_mem (f := Prod.snd) he, (h.keyed _ he).symm⟩
  · rintro ⟨hr, rfl⟩
    obtain ⟨⟨k, r⟩, he, rfl⟩ := List.mem_map.mp hr
    have hk : k = r.id := h.keyed _ he
    exact hk ▸ he

/-- The record under an id is the record of the list that has the id. -/
theorem get?_eq_some_iff (h : s.Ordered) :
    s.get? id = some stock ↔ stock ∈ s.toList ∧ stock.id = id := by
  rw [get?, lookup_eq_some_iff_mem h.nodup_keys, h.mem_entries_iff]

theorem get?_eq_none_iff (h : s.Ordered) : s.get? id = none ↔ ∀ r ∈ s.toList, r.id ≠ id := by
  rw [Option.eq_none_iff_forall_ne_some]
  constructor
  · intro hnone r hr hid
    exact hnone r (h.get?_eq_some_iff.mpr ⟨hr, hid⟩)
  · intro hne r hr
    obtain ⟨hmem, hid⟩ := h.get?_eq_some_iff.mp hr
    exact hne r hmem hid

theorem eq_of_id_eq (h : s.Ordered) {r r' : Stock} (hr : r ∈ s.toList) (hr' : r' ∈ s.toList)
    (hid : r.id = r'.id) : r = r' := by
  have hget := h.get?_eq_some_iff.mpr ⟨hr, hid⟩
  rw [h.get?_eq_some_iff.mpr ⟨hr', rfl⟩] at hget
  exact (Option.some.inj hget).symm

/-- A record is the only one with its id. -/
theorem filter_id_eq (h : s.Ordered) (hmem : stock ∈ s.toList) :
    s.toList.filter (·.id = stock.id) = [stock] := by
  obtain ⟨before, after, heq⟩ := List.append_of_mem hmem
  have hnodup : (s.toList.map Stock.id).Nodup := h.increasing.imp Int.ne_of_lt
  rw [heq, List.map_append, List.map_cons, List.nodup_middle, ← List.map_append,
    List.nodup_cons] at hnodup
  have hne : ∀ r ∈ before ++ after, r.id ≠ stock.id := fun r hr hid =>
    hnodup.1 (List.mem_map.mpr ⟨r, hr, hid⟩)
  have hbefore : before.filter (·.id = stock.id) = [] := List.filter_eq_nil_iff.mpr fun r hr => by
    simpa using hne r (List.mem_append_left _ hr)
  have hafter : after.filter (·.id = stock.id) = [] := List.filter_eq_nil_iff.mpr fun r hr => by
    simpa using hne r (List.mem_append_right _ hr)
  rw [heq, List.filter_append, hbefore, List.filter_cons_of_pos (by simp), hafter,
    List.nil_append]

end Ordered

/-! ## Adding -/

/-- A record is added exactly if it can be made, under the next id. -/
theorem add_eq_ok_iff {s s' : Store} {now : Moment} {d : StockDetails} {stock : Stock} :
    s.add now d = .ok (stock, s') ↔
      ∃ symbol companyName, d.symbol = some symbol ∧ d.companyName = some companyName ∧
        stock = .made s.nextId now d symbol companyName ∧
        s' = ⟨putEntry s.nextId stock s.entries, s.nextId + 1⟩ := by
  constructor
  · intro h
    unfold add at h
    split at h
    · rename_i made hmade
      obtain ⟨rfl, rfl⟩ := Prod.mk.inj (Except.ok.inj h)
      obtain ⟨symbol, companyName, hs, hc, rfl⟩ := Stock.ofDetails_eq_ok_iff.mp hmade
      exact ⟨symbol, companyName, hs, hc, rfl, rfl⟩
    · cases h
  · rintro ⟨symbol, companyName, hs, hc, rfl, rfl⟩
    unfold add
    rw [Stock.ofDetails_eq_ok_iff.mpr ⟨symbol, companyName, hs, hc, rfl⟩]
    rfl

/-- Complete details can be added. -/
theorem exists_add_of_isComplete (now : Moment) {d : StockDetails} (hd : d.IsComplete)
    (s : Store) : ∃ stock s', s.add now d = .ok (stock, s') := by
  obtain ⟨symbol, hs⟩ := Option.isSome_iff_exists.mp hd.1
  obtain ⟨companyName, hc⟩ := Option.isSome_iff_exists.mp hd.2
  exact ⟨_, _, add_eq_ok_iff.mpr ⟨symbol, companyName, hs, hc, rfl, rfl⟩⟩

theorem id_of_add {s s' : Store} {now : Moment} {d : StockDetails} {stock : Stock}
    (ha : s.add now d = .ok (stock, s')) : stock.id = s.nextId := by
  obtain ⟨symbol, companyName, -, -, rfl, -⟩ := add_eq_ok_iff.mp ha
  rfl

theorem nextId_of_add {s s' : Store} {now : Moment} {d : StockDetails} {stock : Stock}
    (ha : s.add now d = .ok (stock, s')) : s'.nextId = s.nextId + 1 := by
  obtain ⟨symbol, companyName, -, -, -, rfl⟩ := add_eq_ok_iff.mp ha
  rfl

namespace Ordered

variable {s s' : Store} {now : Moment} {id : Int} {stock : Stock}

theorem entries_of_add {d : StockDetails} (h : s.Ordered) (ha : s.add now d = .ok (stock, s')) :
    s'.entries = s.entries ++ [(stock.id, stock)] := by
  obtain ⟨symbol, companyName, -, -, rfl, rfl⟩ := add_eq_ok_iff.mp ha
  refine putEntry_of_new fun e he heq => ?_
  have hlt := h.lt_nextId e.2 (List.mem_map.mpr ⟨e, he, rfl⟩)
  have hkey := h.keyed e he
  omega

/-- A new record goes to the end of the list. -/
theorem toList_of_add {d : StockDetails} (h : s.Ordered) (ha : s.add now d = .ok (stock, s')) :
    s'.toList = s.toList ++ [stock] := by
  rw [toList, h.entries_of_add ha, List.map_append]
  rfl

theorem size_of_add {d : StockDetails} (h : s.Ordered) (ha : s.add now d = .ok (stock, s')) :
    s'.size = s.size + 1 := by
  rw [size, h.entries_of_add ha, List.length_append]
  rfl

protected theorem add {d : StockDetails} (h : s.Ordered) (ha : s.add now d = .ok (stock, s')) :
    s'.Ordered := by
  have hid := id_of_add ha
  have hnext := nextId_of_add ha
  have hlist := h.toList_of_add ha
  have hpos := h.one_le_nextId
  refine ⟨?_, ?_, ?_, ?_, by omega⟩
  · intro e he
    rw [h.entries_of_add ha, List.mem_append, List.mem_singleton] at he
    rcases he with he | rfl
    · exact h.keyed e he
    · rfl
  · intro r hr
    rw [hlist, List.mem_append, List.mem_singleton] at hr
    rcases hr with hr | rfl
    · exact h.one_le r hr
    · omega
  · intro r hr
    rw [hlist, List.mem_append, List.mem_singleton] at hr
    rcases hr with hr | rfl
    · have := h.lt_nextId r hr
      omega
    · omega
  · rw [hlist, List.map_append, List.pairwise_append]
    refine ⟨h.increasing, List.pairwise_singleton _ _, ?_⟩
    intro i hi j hj
    obtain ⟨r, hr, rfl⟩ := List.mem_map.mp hi
    obtain rfl : j = stock.id := by simpa using hj
    have := h.lt_nextId r hr
    omega

end Ordered

/-! ## Starting records -/

theorem seed_cons (s : Store) (now : Moment) (r : SeedRecord) (records : List SeedRecord) :
    seed now (r :: records) s =
      match r.read with
      | .error e => (s, .error e)
      | .ok d =>
        match s.add now d with
        | .error e => (s, .error e)
        | .ok (stock, s') =>
          ((seed now records s').1, (seed now records s').2.map (stock :: ·)) := by
  conv_lhs => unfold seed
  cases r.read with
  | error e => rfl
  | ok d =>
    dsimp only
    cases s.add now d with
    | error e => rfl
    | ok result =>
      dsimp only
      obtain ⟨rest, stocks⟩ := seed now records result.2
      cases stocks <;> rfl

theorem seed_cons_of_add {s s' : Store} {now : Moment} {r : SeedRecord} {d : StockDetails}
    {stock : Stock} (hread : r.read = .ok d) (ha : s.add now d = .ok (stock, s'))
    (records : List SeedRecord) :
    seed now (r :: records) s =
      ((seed now records s').1, (seed now records s').2.map (stock :: ·)) := by
  simp only [seed_cons, hread, ha]

/-- The first record ends the adding, or it is added and the others follow. -/
theorem seed_cons_cases (s : Store) (now : Moment) (r : SeedRecord) (records : List SeedRecord) :
    (∃ e, seed now (r :: records) s = (s, .error e)) ∨
      ∃ d stock s', r.read = .ok d ∧ s.add now d = .ok (stock, s') := by
  cases hread : r.read with
  | error e => exact Or.inl ⟨e, by simp only [seed_cons, hread]⟩
  | ok d =>
    cases ha : s.add now d with
    | error e => exact Or.inl ⟨e, by simp only [seed_cons, hread, ha]⟩
    | ok result => exact Or.inr ⟨d, result.1, result.2, rfl, ha⟩

/-- Adding records up to the first that cannot be added keeps the order, and the records that
are there stay in front. -/
theorem Ordered.seed_and_prefix (now : Moment) (records : List SeedRecord) {s : Store}
    (h : s.Ordered) :
    (Store.seed now records s).1.Ordered ∧ s.toList <+: (Store.seed now records s).1.toList := by
  induction records generalizing s with
  | nil => exact ⟨h, List.prefix_rfl⟩
  | cons r records ih =>
    rcases seed_cons_cases s now r records with ⟨e, heq⟩ | ⟨d, stock, s', hread, ha⟩
    · rw [heq]
      exact ⟨h, List.prefix_rfl⟩
    · obtain ⟨hordered, hprefix⟩ := ih (h.add ha)
      rw [h.toList_of_add ha] at hprefix
      rw [seed_cons_of_add hread ha]
      exact ⟨hordered, (List.prefix_append s.toList [stock]).trans hprefix⟩

protected theorem Ordered.seed (now : Moment) (records : List SeedRecord) {s : Store}
    (h : s.Ordered) : (Store.seed now records s).1.Ordered :=
  (h.seed_and_prefix now records).1

/-- Records that are complete are all added, under consecutive ids. -/
theorem seed_of_isComplete (now : Moment) {records : List SeedRecord}
    (hr : ∀ r ∈ records, r.IsComplete) {s : Store} (h : s.Ordered) :
    ∃ stocks, (seed now records s).2 = .ok stocks ∧
      (seed now records s).1.nextId = s.nextId + records.length ∧
      (seed now records s).1.size = s.size + records.length := by
  induction records generalizing s with
  | nil => exact ⟨[], rfl, (Int.add_zero _).symm, rfl⟩
  | cons r records ih =>
    obtain ⟨d, hread, hd⟩ := hr r List.mem_cons_self
    obtain ⟨stock, s', ha⟩ := exists_add_of_isComplete now hd s
    obtain ⟨stocks, hstocks, hnext, hsize⟩ :=
      ih (fun r hr' => hr r (List.mem_cons_of_mem _ hr')) (h.add ha)
    rw [nextId_of_add ha] at hnext
    rw [h.size_of_add ha] at hsize
    rw [seed_cons_of_add hread ha, hstocks, List.length_cons]
    exact ⟨stock :: stocks, rfl, by dsimp only; omega, by dsimp only; omega⟩

/-! ## Changing and removing -/

theorem modify_eq_some_iff {s s' : Store} {id : Int} {f : Stock → Stock} {stock : Stock} :
    s.modify id f = some (stock, s') ↔
      ∃ old, s.get? id = some old ∧ stock = f old ∧
        s' = { s with entries := putEntry id stock s.entries } := by
  unfold modify
  rw [Option.map_eq_some_iff]
  constructor
  · rintro ⟨old, hold, h⟩
    obtain ⟨rfl, rfl⟩ := Prod.mk.inj h
    exact ⟨old, hold, rfl, rfl⟩
  · rintro ⟨old, hold, rfl, rfl⟩
    exact ⟨old, hold, rfl⟩

theorem remove_eq_some_iff {s s' : Store} {id : Int} :
    s.remove id = some s' ↔
      (∃ old, s.get? id = some old) ∧
        s' = { s with entries := s.entries.filter (·.1 != id) } := by
  unfold remove
  rw [Option.map_eq_some_iff]
  constructor
  · rintro ⟨old, hold, rfl⟩
    exact ⟨⟨old, hold⟩, rfl⟩
  · rintro ⟨⟨old, hold⟩, rfl⟩
    exact ⟨old, hold, rfl⟩

theorem modify_eq_none_iff {s : Store} {id : Int} {f : Stock → Stock} :
    s.modify id f = none ↔ s.get? id = none :=
  Option.map_eq_none_iff

theorem remove_eq_none_iff {s : Store} {id : Int} : s.remove id = none ↔ s.get? id = none :=
  Option.map_eq_none_iff

theorem nextId_of_modify {s s' : Store} {id : Int} {f : Stock → Stock} {stock : Stock}
    (hm : s.modify id f = some (stock, s')) : s'.nextId = s.nextId := by
  obtain ⟨old, -, -, rfl⟩ := modify_eq_some_iff.mp hm
  rfl

theorem nextId_of_remove {s s' : Store} {id : Int} (hm : s.remove id = some s') :
    s'.nextId = s.nextId := by
  obtain ⟨-, rfl⟩ := remove_eq_some_iff.mp hm
  rfl

namespace Ordered

variable {s s' : Store} {id : Int} {stock : Stock} {f : Stock → Stock}

theorem entries_of_modify (h : s.Ordered) (hm : s.modify id f = some (stock, s')) :
    s'.entries = s.entries.map fun e => if e.1 = id then (id, stock) else e := by
  obtain ⟨old, hold, rfl, rfl⟩ := modify_eq_some_iff.mp hm
  have hmem := h.mem_entries_iff.mpr (h.get?_eq_some_iff.mp hold)
  exact putEntry_of_mem h.nodup_keys (List.mem_map.mpr ⟨_, hmem, rfl⟩)

/-- A changed record stays in its place, and every other record stays as it is. -/
theorem toList_of_modify (h : s.Ordered) (hm : s.modify id f = some (stock, s')) :
    s'.toList = s.toList.map fun r => if r.id = id then stock else r := by
  rw [toList, h.entries_of_modify hm, toList, List.map_map, List.map_map]
  refine List.map_congr_left fun e he => ?_
  simp only [Function.comp_apply, h.keyed e he]
  split_ifs <;> rfl

theorem size_of_modify (h : s.Ordered) (hm : s.modify id f = some (stock, s')) :
    s'.size = s.size := by
  rw [size, h.entries_of_modify hm, List.length_map]
  rfl

theorem map_id_of_modify (hf : ∀ r, (f r).id = r.id) (h : s.Ordered)
    (hm : s.modify id f = some (stock, s')) :
    s'.toList.map Stock.id = s.toList.map Stock.id := by
  obtain ⟨old, hold, rfl, -⟩ := modify_eq_some_iff.mp hm
  rw [h.toList_of_modify hm, List.map_map]
  refine List.map_congr_left fun r _ => ?_
  simp only [Function.comp_apply]
  split_ifs with hr
  · rw [hf, (h.get?_eq_some_iff.mp hold).2, hr]
  · rfl

protected theorem modify (hf : ∀ r, (f r).id = r.id) (h : s.Ordered)
    (hm : s.modify id f = some (stock, s')) : s'.Ordered := by
  have hids := h.map_id_of_modify hf hm
  have hmem : ∀ r ∈ s'.toList, ∃ r' ∈ s.toList, r'.id = r.id := fun r hr => by
    have hin : r.id ∈ s'.toList.map Stock.id := List.mem_map.mpr ⟨r, hr, rfl⟩
    rw [hids] at hin
    exact List.mem_map.mp hin
  obtain ⟨old, hold, hstock, -⟩ := modify_eq_some_iff.mp hm
  have hnext := nextId_of_modify hm
  refine ⟨?_, ?_, ?_, by rw [hids]; exact h.increasing, by rw [hnext]; exact h.one_le_nextId⟩
  · intro e he
    rw [h.entries_of_modify hm] at he
    obtain ⟨e', he', rfl⟩ := List.mem_map.mp he
    split_ifs with hk
    · rw [hstock, hf, (h.get?_eq_some_iff.mp hold).2]
    · exact h.keyed e' he'
  · intro r hr
    obtain ⟨r', hr', hid⟩ := hmem r hr
    rw [← hid]
    exact h.one_le r' hr'
  · intro r hr
    obtain ⟨r', hr', hid⟩ := hmem r hr
    rw [← hid, hnext]
    exact h.lt_nextId r' hr'

/-- A removal takes out the records of the id and keeps the order of the rest. -/
theorem toList_of_remove (h : s.Ordered) (hm : s.remove id = some s') :
    s'.toList = s.toList.filter (·.id ≠ id) := by
  obtain ⟨-, rfl⟩ := remove_eq_some_iff.mp hm
  rw [toList, toList, List.filter_map]
  congr 1
  refine List.filter_congr fun e he => ?_
  rw [Function.comp_apply, h.keyed e he, bne, decide_not]
  rfl

theorem size_of_remove (h : s.Ordered) (hm : s.remove id = some s') :
    s'.size + 1 = s.size := by
  obtain ⟨⟨old, hold⟩, -⟩ := remove_eq_some_iff.mp hm
  obtain ⟨hmem, rfl⟩ := h.get?_eq_some_iff.mp hold
  have hsplit := List.length_eq_length_filter_add (l := s.toList) (·.id = old.id)
  rw [h.filter_id_eq hmem, List.length_singleton] at hsplit
  have hrest : s'.toList.length = (s.toList.filter fun r => !decide (r.id = old.id)).length := by
    rw [h.toList_of_remove hm]
    simp only [ne_eq, decide_not]
  rw [s.size_eq_length, s'.size_eq_length]
  omega

protected theorem remove (h : s.Ordered) (hm : s.remove id = some s') : s'.Ordered := by
  have hsub : s'.toList.Sublist s.toList := h.toList_of_remove hm ▸ List.filter_sublist
  obtain ⟨-, rfl⟩ := remove_eq_some_iff.mp hm
  refine ⟨?_, ?_, ?_, ?_, h.one_le_nextId⟩
  · intro e he
    exact h.keyed e (List.mem_of_mem_filter he)
  · intro r hr
    exact h.one_le r (hsub.subset hr)
  · intro r hr
    exact h.lt_nextId r (hsub.subset hr)
  · exact h.increasing.sublist (hsub.map Stock.id)

end Ordered

/-! ## Sequences of changes -/

/-- A change of the store, with all that it is given. -/
inductive Change where
  | add (now : Moment) (d : StockDetails)
  | seed (now : Moment) (records : List SeedRecord)
  | update (now : Moment) (id : Int) (d : StockDetails)
  | updatePrice (now : Moment) (id : Int) (price volume : Value)
  | remove (id : Int)

/-- The store after a change; a change that fails leaves what it had done by then. -/
def apply (s : Store) : Change → Store
  | .add now d =>
    match s.add now d with
    | .ok (_, s') => s'
    | .error _ => s
  | .seed now records => (Store.seed now records s).1
  | .update now id d => ((s.update now id d).map Prod.snd).getD s
  | .updatePrice now id price volume => ((s.updatePrice now id price volume).map Prod.snd).getD s
  | .remove id => (s.remove id).getD s

/-- The store after a sequence of changes. -/
def applyAll (s : Store) (changes : List Change) : Store := changes.foldl apply s

namespace Ordered

variable {s : Store}

/-- What a modification that may find no record leaves. -/
private theorem modified_getD (id : Int) {f : Stock → Stock} (hf : ∀ r, (f r).id = r.id)
    (h : s.Ordered) : (((s.modify id f).map Prod.snd).getD s).Ordered := by
  cases hm : s.modify id f with
  | none => exact h
  | some result => exact h.modify hf hm

protected theorem apply (h : s.Ordered) (c : Change) : (s.apply c).Ordered := by
  cases c with
  | add now d =>
    unfold Store.apply
    dsimp only
    split
    · rename_i ha
      exact h.add ha
    · exact h
  | seed now records => exact h.seed now records
  | update now id d => exact h.modified_getD id fun r => r.revised_id now d
  | updatePrice now id price volume =>
    exact h.modified_getD id fun r => r.repriced_id now price volume
  | remove id =>
    unfold Store.apply
    dsimp only
    cases hm : s.remove id with
    | none => exact h
    | some s' => exact h.remove hm

protected theorem applyAll (h : s.Ordered) (changes : List Change) :
    (s.applyAll changes).Ordered := by
  induction changes generalizing s with
  | nil => exact h
  | cons c changes ih => exact ih (h.apply c)

end Ordered

/-! ## Places and views -/

/-- What a change does to the list of records : new ones go to the end, a changed one stays in
its place, and the rest of a removal keeps its order. A change of an id that is not there
changes nothing. -/
structure KeepsPlaces (s : Store) : Prop where
  add : ∀ now d, s.toList <+: (s.apply (.add now d)).toList
  seed : ∀ now records, s.toList <+: (s.apply (.seed now records)).toList
  update : ∀ now id d, (s.apply (.update now id d)).toList =
    s.toList.map fun r => if r.id = id then r.revised now d else r
  updatePrice : ∀ now id price volume, (s.apply (.updatePrice now id price volume)).toList =
    s.toList.map fun r => if r.id = id then r.repriced now price volume else r
  remove : ∀ id, (s.apply (.remove id)).toList = s.toList.filter (·.id ≠ id)

/-- Every read agrees with the list of all records. -/
structure ViewsAgree (s : Store) : Prop where
  get? : ∀ id, s.toList.filter (·.id = id) = (s.get? id).toList
  findBySymbol : ∀ symbol r, s.findBySymbol symbol = some r ↔
    r ∈ s.toList ∧ r.symbol = symbol ∧ ∀ r' ∈ s.toList, r'.symbol = symbol → r.id ≤ r'.id
  findBySymbol_none : ∀ symbol, s.findBySymbol symbol = none ↔ ∀ r ∈ s.toList, r.symbol ≠ symbol
  findBySector_sublist : ∀ sector, (s.findBySector sector).Sublist s.toList
  mem_findBySector : ∀ sector r, r ∈ s.findBySector sector ↔ r ∈ s.toList ∧ r.sector = sector
  size : s.size = s.toList.length

namespace Ordered

variable {s : Store}

/-- A modification that may find no record changes the records of the id in their places. -/
private theorem toList_modified_getD (id : Int) (f : Stock → Stock) (h : s.Ordered) :
    (((s.modify id f).map Prod.snd).getD s).toList =
      s.toList.map fun r => if r.id = id then f r else r := by
  cases hm : s.modify id f with
  | none =>
    have hne := h.get?_eq_none_iff.mp (modify_eq_none_iff.mp hm)
    rw [List.map_congr_left fun r hr => if_neg (hne r hr), List.map_id']
    rfl
  | some result =>
    obtain ⟨stock, s'⟩ := result
    obtain ⟨old, hold, rfl, -⟩ := modify_eq_some_iff.mp hm
    obtain ⟨hmem, hid⟩ := h.get?_eq_some_iff.mp hold
    refine (h.toList_of_modify hm).trans (List.map_congr_left fun r hr => ?_)
    split_ifs with hr'
    · rw [h.eq_of_id_eq hr hmem (hr'.trans hid.symm)]
    · rfl

theorem keepsPlaces (h : s.Ordered) : s.KeepsPlaces where
  add now d := by
    unfold Store.apply
    dsimp only
    split
    · rename_i stock s' ha
      rw [h.toList_of_add ha]
      exact List.prefix_append _ _
    · exact List.prefix_rfl
  seed now records := (h.seed_and_prefix now records).2
  update now id d := h.toList_modified_getD id (·.revised now d)
  updatePrice now id price volume := h.toList_modified_getD id (·.repriced now price volume)
  remove id := by
    unfold Store.apply
    dsimp only
    cases hm : s.remove id with
    | none =>
      refine (List.filter_eq_self.mpr fun r hr => ?_).symm
      simpa using h.get?_eq_none_iff.mp (remove_eq_none_iff.mp hm) r hr
    | some s' => exact h.toList_of_remove hm

theorem id_le_of_find? (h : s.Ordered) {p : Stock → Bool} {r r' : Stock}
    (hr : s.toList.find? p = some r) (hr' : r' ∈ s.toList) (hp : p r') : r.id ≤ r'.id := by
  obtain ⟨-, before, after, heq, hbefore⟩ := List.find?_eq_some_iff_append.mp hr
  have hinc := h.increasing
  rw [heq, List.map_append, List.map_cons] at hinc
  have hafter := (List.pairwise_cons.mp (List.pairwise_append.mp hinc).2.1).1
  rw [heq, List.mem_append, List.mem_cons] at hr'
  rcases hr' with hr' | rfl | hr'
  · exact absurd hp (by simpa using hbefore r' hr')
  · exact Int.le_refl _
  · exact Int.le_of_lt (hafter _ (List.mem_map.mpr ⟨r', hr', rfl⟩))

/-- The first record with a property is the one of lowest id. -/
theorem find?_eq_some_iff (h : s.Ordered) {p : Stock → Bool} {r : Stock} :
    s.toList.find? p = some r ↔
      r ∈ s.toList ∧ p r ∧ ∀ r' ∈ s.toList, p r' → r.id ≤ r'.id := by
  constructor
  · intro hr
    exact ⟨List.mem_of_find?_eq_some hr, List.find?_some hr, fun r' => h.id_le_of_find? hr⟩
  · rintro ⟨hr, hp, hle⟩
    cases hfind : s.toList.find? p with
    | none => exact absurd hp (List.find?_eq_none.mp hfind r hr)
    | some r' =>
      have hr' := List.mem_of_find?_eq_some hfind
      have hid : r'.id = r.id :=
        Int.le_antisymm (h.id_le_of_find? hfind hr hp) (hle r' hr' (List.find?_some hfind))
      rw [h.eq_of_id_eq hr' hr hid]

theorem viewsAgree (h : s.Ordered) : s.ViewsAgree where
  get? id := by
    cases hget : s.get? id with
    | none =>
      refine List.filter_eq_nil_iff.mpr fun r hr => ?_
      simpa using h.get?_eq_none_iff.mp hget r hr
    | some stock =>
      obtain ⟨hmem, rfl⟩ := h.get?_eq_some_iff.mp hget
      exact h.filter_id_eq hmem
  findBySymbol symbol r := by
    rw [Store.findBySymbol, h.find?_eq_some_iff]
    simp only [beq_iff_eq]
  findBySymbol_none symbol := by
    rw [Store.findBySymbol, List.find?_eq_none]
    simp only [beq_iff_eq, ne_eq]
  findBySector_sublist sector := List.filter_sublist
  mem_findBySector sector r := by
    rw [Store.findBySector, List.mem_filter, beq_iff_eq]
  size := s.size_eq_length

end Ordered

/-- In every store that comes of the empty one by any changes, every record stands under its own
id between 1 and the next id, in increasing order, every change keeps the places of the records,
and all reads agree with the list of them. -/
theorem ordered_applyAll_empty (changes : List Change) :
    (empty.applyAll changes).Ordered ∧ (empty.applyAll changes).KeepsPlaces ∧
      (empty.applyAll changes).ViewsAgree := by
  have h := ordered_empty.applyAll changes
  exact ⟨h, h.keepsPlaces, h.viewsAgree⟩

end Store

end StockRegister
