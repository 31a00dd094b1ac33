import StockRegister.Proofs.Merging
import StockRegister.Settings.Loading

/-!
# The laws of deep merging

A tree (`Value.isTree`) is a value that ends, in which the keys of every object are distinct. What
stands in it at a path of keys is `Value.at?`; a path is blocked (`Value.Blocks`) if on the way to
its end stands something that is no object.

Laying a tree over another is determined by two facts about each object : which keys it has, in
which order (`Fields.keys_overlay`), and what it has under each of them
(`Fields.get?_overlay_of_keys`). The second one, taken along a path, says what stands there
(`Value.at?_overlay`). Two objects with the same keys and the same values under them are equal
(`Fields.eq_of_keys_eq`), so each law of merging is an induction over what stands under the keys
(`Value.fieldsInduction`) : an object laid over itself, over another one twice, and three objects in
a row, if no path leads to an object in one and to something else in another (`Value.Agrees`).
`Fields.overlayLaws` has all of them.
-/

namespace StockRegister

namespace Value

/-! ## Trees -/

mutual

/-- Whether a value ends and the keys of its objects are distinct. -/
def isTree : Value → Bool
  | object fields => fieldsAreTrees fields
  | endless => false
  | _ => true

@[inherit_doc isTree] def fieldsAreTrees : List (Key × Value) → Bool
  | [] => true
  | (k, v) :: rest => rest.all (fun e => !k.same e.1) && isTree v && fieldsAreTrees rest

end

/-- Whether a value is an object. -/
def isObject : Value → Bool
  | object _ => true
  | _ => false

theorem not_object_of_isObject {v : Value} (h : v.isObject = false) (fields : Fields) :
    v ≠ .object fields := by
  rintro rfl
  cases h

theorem exists_fields_of_isObject {v : Value} (h : v.isObject = true) :
    ∃ fields : Fields, v = .object fields := by
  cases v with
  | object fields => exact ⟨fields, rfl⟩
  | _ => cases h

/-- The fields of a tree have distinct keys, and are trees. -/
theorem fieldsAreTrees_iff {fields : Fields} :
    fieldsAreTrees fields ↔
      (fields.map Prod.fst).Pairwise (fun k l => k.same l = false) ∧
        ∀ e ∈ fields, e.2.isTree := by
  induction fields with
  | nil => simp [fieldsAreTrees]
  | cons e fields ih =>
    obtain ⟨k, v⟩ := e
    simp only [fieldsAreTrees, Bool.and_eq_true, ih, List.map_cons, List.pairwise_cons,
      List.forall_mem_cons, List.forall_mem_map, List.all_eq_true, Bool.not_eq_true']
    exact and_and_and_comm

end Value

/-! ## Fields by their keys -/

namespace Fields

/-- A key that is not among those of the fields finds nothing. -/
theorem get?_eq_none_of_fresh {fields : Fields} {k l : Key} (hkl : k.same l)
    (h : ∀ k' ∈ fields.map Prod.fst, k.same k' = false) : fields.get? l = none := by
  rw [← get?_congr fields hkl, get?_eq_none_iff]
  intro e he
  rw [Key.same_comm]
  exact h _ (List.mem_map_of_mem he)

theorem exists_mem_of_get? {fields : Fields} {k : Key} {v : Value} (h : fields.get? k = some v) :
    ∃ l, (l, v) ∈ fields ∧ l.same k := by
  obtain ⟨⟨l, w⟩, hfind, rfl⟩ := Option.map_eq_some_iff.mp h
  have hsame := List.find?_some hfind
  exact ⟨l, List.mem_of_find?_eq_some hfind, hsame⟩

theorem sizeOf_lt_of_get? {fields : Fields} {k : Key} {v : Value} (h : fields.get? k = some v) :
    sizeOf v < sizeOf fields := by
  obtain ⟨l, hmem, -⟩ := exists_mem_of_get? h
  have hlt := List.sizeOf_lt_of_mem hmem
  simp only [Prod.mk.sizeOf_spec] at hlt
  omega

/-- The first field of a key is the only one if the keys are distinct. -/
theorem get?_of_mem {fields : Fields}
    (hkeys : (fields.map Prod.fst).Pairwise fun k l => k.same l = false) {k : Key} {v : Value}
    (h : (k, v) ∈ fields) : fields.get? k = some v := by
  induction fields with
  | nil => cases h
  | cons e fields ih =>
    obtain ⟨l, w⟩ := e
    rw [List.map_cons, List.pairwise_cons] at hkeys
    rw [get?_cons]
    rcases List.mem_cons.mp h with heq | h
    · obtain ⟨rfl, rfl⟩ := Prod.mk.inj heq
      rw [if_pos (Key.same_refl k)]
    · have hne := hkeys.1 k (List.mem_map_of_mem (f := Prod.fst) h)
      rw [if_neg (by simp [hne]), ih hkeys.2 h]

/-- Fields with the same distinct keys and the same values under them are the same. -/
theorem eq_of_keys_eq {fields fields' : Fields}
    (hkeys : (fields.map Prod.fst).Pairwise fun k l => k.same l = false)
    (hsame : fields.map Prod.fst = fields'.map Prod.fst)
    (hget : ∀ k, fields.get? k = fields'.get? k) : fields = fields' := by
  induction fields generalizing fields' with
  | nil => exact (List.map_eq_nil_iff.mp hsame.symm).symm
  | cons e fields ih =>
    cases fields' with
    | nil => cases hsame
    | cons e' fields' =>
      obtain ⟨k, v⟩ := e
      obtain ⟨k', v'⟩ := e'
      obtain ⟨rfl, hrest⟩ := List.cons.inj hsame
      have hvalue := hget k
      simp only [get?_cons, Key.same_refl, if_pos, Option.some.injEq] at hvalue
      rw [List.map_cons, List.pairwise_cons] at hkeys
      rw [hvalue, ih hkeys.2 hrest fun l => ?_]
      by_cases hl : k.same l
      · rw [get?_eq_none_of_fresh hl hkeys.1, get?_eq_none_of_fresh hl (hrest ▸ hkeys.1)]
      · simpa only [get?_cons, if_neg hl] using hget l

theorem isTree_of_get? {fields : Fields} (h : Value.fieldsAreTrees fields) {k : Key} {v : Value}
    (hget : fields.get? k = some v) : v.isTree := by
  obtain ⟨l, hmem, -⟩ := exists_mem_of_get? hget
  exact (Value.fieldsAreTrees_iff.mp h).2 _ hmem

/-! ## Laying fields over fields -/

theorem keys_put (fields : Fields) (k : Key) (v : Value) :
    (fields.put k v).map Prod.fst =
      if fields.has k then fields.map Prod.fst else fields.map Prod.fst ++ [k] := by
  induction fields with
  | nil => rfl
  | cons e fields ih =>
    obtain ⟨l, old⟩ := e
    rw [put, has, get?_cons]
    by_cases h : l.same k
    · simp [h]
    · rw [if_neg h, if_neg h, List.map_cons, ih, has]
      split_ifs <;> rfl

/-- The keys of the lower object come first, then the new ones of the upper one, each in order. -/
theorem keys_overlay {top : Fields}
    (hkeys : (top.map Prod.fst).Pairwise fun k l => k.same l = false) (base : Fields) :
    (base.overlay top).map Prod.fst =
      base.map Prod.fst ++ (top.map Prod.fst).filter fun k => !base.has k := by
  induction top generalizing base with
  | nil => simp [overlay, Value.overlayFields]
  | cons e top ih =>
    obtain ⟨k, v⟩ := e
    rw [List.map_cons, List.pairwise_cons] at hkeys
    unfold overlay at ih ⊢
    rw [Value.overlayFields, ih hkeys.2, keys_put, List.map_cons, List.filter_cons]
    have hrest : ((top.map Prod.fst).filter fun l => !(k.same l || base.has l)) =
        (top.map Prod.fst).filter fun l => !base.has l := by
      refine List.filter_congr fun l hl => ?_
      rw [hkeys.1 l hl, Bool.false_or]
    simp only [has_put, hrest]
    cases base.has k <;> simp

/-- Under any key, an object laid over another has what the two have, laid over each other. -/
theorem get?_overlay_of_keys {top : Fields}
    (hkeys : (top.map Prod.fst).Pairwise fun k l => k.same l = false) (base : Fields) (l : Key) :
    (base.overlay top).get? l = Value.overlay? (base.get? l) (top.get? l) := by
  refine get?_overlay_of_unique ((List.pairwise_map.mp hkeys).imp fun {e e'} hne he => ?_) base
  rwa [Key.same_congr he, Key.same_comm] at hne

theorem has_of_mem {fields : Fields} {k : Key} (h : k ∈ fields.map Prod.fst) : fields.has k := by
  obtain ⟨e, he, rfl⟩ := List.mem_map.mp h
  rw [has, Option.isSome_iff_ne_none, ne_eq, get?_eq_none_iff]
  exact fun hnone => by simpa [Key.same_refl] using hnone e he

theorem has_overlay {top : Fields}
    (hkeys : (top.map Prod.fst).Pairwise fun k l => k.same l = false) (base : Fields) (k : Key) :
    (base.overlay top).has k = (base.has k || top.has k) := by
  rw [has, get?_overlay_of_keys hkeys, has, has]
  cases base.get? k <;> cases top.get? k <;> rfl

/-- Fields whose keys are all there already add no keys. -/
theorem keys_overlay_of_has {base top : Fields}
    (hkeys : (top.map Prod.fst).Pairwise fun k l => k.same l = false)
    (h : ∀ k ∈ top.map Prod.fst, base.has k) :
    (base.overlay top).map Prod.fst = base.map Prod.fst := by
  have hnone : ((top.map Prod.fst).filter fun k => !base.has k) = [] := by
    rw [List.filter_eq_nil_iff]
    intro k hk
    simp [h k hk]
  rw [keys_overlay hkeys, hnone, List.append_nil]

end Fields

namespace Value

/-- A property of all values follows if every object has it whose fields have it. -/
theorem fieldsInduction {P : Value → Prop}
    (object : ∀ fields : Fields, (∀ k v, fields.get? k = some v → P v) → P (.object fields))
    (leaf : ∀ v : Value, v.isObject = false → P v) (v : Value) : P v := by
  induction hsize : sizeOf v using Nat.strongRecOn generalizing v with
  | ind n ih =>
    cases hv : v.isObject with
    | false => exact leaf v hv
    | true =>
      obtain ⟨fields, rfl⟩ := exists_fields_of_isObject hv
      refine object fields fun k w hw => ih _ ?_ w rfl
      have hlt := Fields.sizeOf_lt_of_get? hw
      rw [Value.object.sizeOf_spec] at hsize
      omega

/-! ## Trees laid over trees -/

theorem keys_of_isTree {fields : Fields} (h : (object fields).isTree) :
    (fields.map Prod.fst).Pairwise fun k l => k.same l = false :=
  (fieldsAreTrees_iff.mp h).1

theorem overlay_object (base top : Fields) :
    overlay (.object base) (.object top) = .object (base.overlay top) :=
  rfl

/-- An object stands as it is when it is laid over something else. -/
theorem overlay_of_not_object_left {base : Value} (h : base.isObject = false) (top : Value) :
    overlay base top = top := by
  cases base with
  | object => cases h
  | _ => cases top <;> rfl

/-- What an object laid over another has is what one of the two has, or laid over what the other
has. -/
theorem overlay?_eq_some {x y : Option Value} {v : Value} (h : overlay? x y = some v) :
    x = some v ∨ y = some v ∨ ∃ base top, x = some base ∧ y = some top ∧ v = overlay base top := by
  cases x with
  | none => exact Or.inr (Or.inl (by simpa using h))
  | some base =>
    cases y with
    | none => exact Or.inl (by simpa using h)
    | some top => exact Or.inr (Or.inr ⟨base, top, rfl, rfl, (Option.some.inj h).symm⟩)

theorem overlay?_of_not_object {top : Value} (h : top.isObject = false) (base : Option Value) :
    overlay? base (some top) = some top := by
  cases base with
  | none => rfl
  | some base => exact congrArg some (overlay_of_not_object (not_object_of_isObject h) base)

/-- A tree laid over another one is a tree. -/
theorem isTree_overlay {base top : Value} (hbase : base.isTree) (htop : top.isTree) :
    (overlay base top).isTree := by
  induction top using fieldsInduction generalizing base with
  | leaf top hleaf =>
    rwa [overlay_of_not_object (not_object_of_isObject hleaf)]
  | object top ih =>
    cases hobject : base.isObject with
    | false =>
      rwa [overlay_of_not_object_left hobject]
    | true =>
      obtain ⟨base, rfl⟩ := exists_fields_of_isObject hobject
      have hkeys : ((base.overlay top).map Prod.fst).Pairwise fun k l => k.same l = false := by
        rw [Fields.keys_overlay (keys_of_isTree htop), List.pairwise_append]
        refine ⟨keys_of_isTree hbase, (keys_of_isTree htop).filter _, fun k hk l hl => ?_⟩
        obtain ⟨e, he, rfl⟩ := List.mem_map.mp hk
        have hnew : base.get? l = none := by simpa [Fields.has] using (List.mem_filter.mp hl).2
        exact Fields.get?_eq_none_iff.mp hnew e he
      rw [overlay_object]
      refine fieldsAreTrees_iff.mpr ⟨hkeys, fun e he => ?_⟩
      have hget := Fields.get?_of_mem hkeys he
      rw [Fields.get?_overlay_of_keys (keys_of_isTree htop)] at hget
      rcases overlay?_eq_some hget with hb | ht | ⟨v, w, hb, ht, heq⟩
      · exact Fields.isTree_of_get? hbase hb
      · exact Fields.isTree_of_get? htop ht
      · rw [heq]
        exact ih _ w ht (Fields.isTree_of_get? hbase hb) (Fields.isTree_of_get? htop ht)

theorem overlaysAreEndless_eq_false {base top : Fields}
    (h : ∀ e ∈ top, ∀ old, base.get? e.1 = some old → overlayIsEndless old e.2 = false) :
    overlaysAreEndless base top = false := by
  induction top with
  | nil => rw [overlaysAreEndless]
  | cons e top ih =>
    rw [overlaysAreEndless, ih fun e he => h e (List.mem_cons_of_mem _ he), Bool.or_false]
    cases hold : base.get? e.1 with
    | none => rfl
    | some old => exact h e List.mem_cons_self old hold

/-- Trees can be laid over each other, since they end. -/
theorem overlayIsEndless_of_isTree {base top : Value} (hbase : base.isTree) (htop : top.isTree) :
    overlayIsEndless base top = false := by
  induction top using fieldsInduction generalizing base with
  | leaf top hleaf =>
    cases top with
    | object => cases hleaf
    | endless => cases htop
    | _ => cases base <;> first
        | rfl
        | cases hbase
  | object top ih =>
    cases base with
    | object base =>
      rw [overlayIsEndless]
      refine overlaysAreEndless_eq_false fun e he old hold => ?_
      exact ih e.1 e.2 (Fields.get?_of_mem (keys_of_isTree htop) he)
        (Fields.isTree_of_get? hbase hold) ((fieldsAreTrees_iff.mp htop).2 e he)
    | endless => cases hbase
    | _ => rfl

/-! ## Paths -/

/-- What stands in a value at a path of keys. -/
def at? : Value → List Key → Option Value
  | v, [] => some v
  | object fields, k :: path => (Fields.get? fields k).bind fun v => v.at? path
  | _, _ :: _ => none

/-- On the way along a path, before its end, stands something that is no object. -/
def Blocks (v : Value) (path : List Key) : Prop :=
  ∃ before x, before <+: path ∧ before ≠ path ∧ v.at? before = some x ∧ x.isObject = false

/-- No path leads to an object in one value and to something else in the other. -/
def Agrees (v w : Value) : Prop :=
  ∀ path x y, v.at? path = some x → w.at? path = some y → x.isObject = y.isObject

theorem at?_cons_of_not_object {v : Value} (h : v.isObject = false) (k : Key) (path : List Key) :
    v.at? (k :: path) = none := by
  cases v with
  | object => cases h
  | _ => rfl

theorem at?_cons (fields : Fields) (k : Key) (path : List Key) :
    (object fields).at? (k :: path) = (fields.get? k).bind fun v => v.at? path :=
  rfl

theorem isTree_of_at? {v w : Value} {path : List Key} (hv : v.isTree) (h : v.at? path = some w) :
    w.isTree := by
  induction path generalizing v with
  | nil => exact Option.some.inj h ▸ hv
  | cons k path ih =>
    cases v with
    | object fields =>
      obtain ⟨v, hget, h⟩ := Option.bind_eq_some_iff.mp h
      exact ih (Fields.isTree_of_get? hv hget) h
    | _ => cases h

theorem not_blocks_nil (v : Value) : ¬v.Blocks [] := by
  rintro ⟨before, x, hprefix, hne, -⟩
  exact hne (List.prefix_nil.mp hprefix)

theorem blocks_cons_of_not_object {v : Value} (h : v.isObject = false) (k : Key)
    (path : List Key) : v.Blocks (k :: path) :=
  ⟨[], v, List.nil_prefix, List.cons_ne_nil k path ∘ Eq.symm, rfl, h⟩

theorem blocks_cons_iff {fields : Fields} {k : Key} {path : List Key} :
    (object fields).Blocks (k :: path) ↔ ∃ v, fields.get? k = some v ∧ v.Blocks path := by
  constructor
  · rintro ⟨before, x, hprefix, hne, hx, hleaf⟩
    cases before with
    | nil =>
      obtain rfl := Option.some.inj hx
      cases hleaf
    | cons l before =>
      obtain ⟨rfl, hrest⟩ := List.cons_prefix_cons.mp hprefix
      obtain ⟨v, hv, hx⟩ := Option.bind_eq_some_iff.mp hx
      exact ⟨v, hv, before, x, hrest, fun h => hne (congrArg _ h), hx, hleaf⟩
  · rintro ⟨v, hv, before, x, hprefix, hne, hx, hleaf⟩
    refine ⟨k :: before, x, List.cons_prefix_cons.mpr ⟨rfl, hprefix⟩,
      fun h => hne (List.cons.inj h).2, ?_, hleaf⟩
    rw [at?_cons, hv]
    exact hx

/-- Nothing stands at the end of a path that is blocked. -/
theorem at?_eq_none_of_blocks {v : Value} {path : List Key} (h : v.Blocks path) :
    v.at? path = none := by
  induction path generalizing v with
  | nil => exact absurd h v.not_blocks_nil
  | cons k path ih =>
    cases hv : v.isObject with
    | false => exact at?_cons_of_not_object hv k path
    | true =>
      obtain ⟨fields, rfl⟩ := exists_fields_of_isObject hv
      obtain ⟨w, hw, hblocks⟩ := blocks_cons_iff.mp h
      rw [at?_cons, hw]
      exact ih hblocks

/-- At a path that the upper tree does not block, what stands there in the two is laid over each
other; at one that it blocks stands nothing. -/
theorem at?_overlay (base : Value) {top : Value} (htop : top.isTree) (path : List Key) :
    (¬top.Blocks path →
      (overlay base top).at? path = overlay? (base.at? path) (top.at? path)) ∧
      (top.Blocks path → (overlay base top).at? path = none) := by
  induction path generalizing base top with
  | nil => exact ⟨fun _ => rfl, fun h => absurd h top.not_blocks_nil⟩
  | cons k path ih =>
    cases htopObject : top.isObject with
    | false =>
      rw [overlay_of_not_object (not_object_of_isObject htopObject)]
      exact ⟨fun h => absurd (blocks_cons_of_not_object htopObject k path) h,
        at?_eq_none_of_blocks⟩
    | true =>
      obtain ⟨top, rfl⟩ := exists_fields_of_isObject htopObject
      cases hbaseObject : base.isObject with
      | false =>
        rw [overlay_of_not_object_left hbaseObject, at?_cons_of_not_object hbaseObject,
          none_overlay?]
        exact ⟨fun _ => rfl, at?_eq_none_of_blocks⟩
      | true =>
        obtain ⟨base, rfl⟩ := exists_fields_of_isObject hbaseObject
        rw [overlay_object, at?_cons, at?_cons, at?_cons,
          Fields.get?_overlay_of_keys (keys_of_isTree htop), blocks_cons_iff]
        cases ht : top.get? k with
        | none => simp
        | some w =>
          simp only [Option.some.injEq, exists_eq_left', Option.bind_some]
          cases hb : base.get? k with
          | none =>
            simp only [none_overlay?, Option.bind_some, Option.bind_none, implies_true, true_and]
            exact at?_eq_none_of_blocks
          | some v => exact ih v (Fields.isTree_of_get? htop ht)

/-! ## Laws -/

/-- A tree laid over itself is as it was. -/
theorem overlay_self {v : Value} (hv : v.isTree) : overlay v v = v := by
  induction v using fieldsInduction with
  | leaf v hleaf => exact overlay_of_not_object (not_object_of_isObject hleaf) v
  | object fields ih =>
    have hkeys := keys_of_isTree hv
    have hsame := Fields.keys_overlay_of_has hkeys fun k hk => Fields.has_of_mem hk
    rw [overlay_object]
    congr 1
    refine (Fields.eq_of_keys_eq hkeys hsame.symm fun k => ?_).symm
    rw [Fields.get?_overlay_of_keys hkeys]
    cases hk : fields.get? k with
    | none => rfl
    | some v => exact congrArg some (ih k v hk (Fields.isTree_of_get? hv hk)).symm

/-- To lay a tree over another one twice is to do it once. -/
theorem overlay_overlay_self {base top : Value} (hbase : base.isTree) (htop : top.isTree) :
    overlay (overlay base top) top = overlay base top := by
  induction top using fieldsInduction generalizing base with
  | leaf top hleaf => simp only [overlay_of_not_object (not_object_of_isObject hleaf)]
  | object top ih =>
    cases hobject : base.isObject with
    | false => rw [overlay_of_not_object_left hobject, overlay_self htop]
    | true =>
      obtain ⟨base, rfl⟩ := exists_fields_of_isObject hobject
      have hkeys := keys_of_isTree htop
      have hsame :
          ((base.overlay top).overlay top).map Prod.fst = (base.overlay top).map Prod.fst :=
        Fields.keys_overlay_of_has hkeys fun k hk => by
          rw [Fields.has_overlay hkeys, Fields.has_of_mem hk, Bool.or_true]
      have hmerged : (object (base.overlay top)).isTree := isTree_overlay hbase htop
      rw [overlay_object, overlay_object]
      congr 1
      refine (Fields.eq_of_keys_eq (keys_of_isTree hmerged) hsame.symm fun k => ?_).symm
      rw [Fields.get?_overlay_of_keys hkeys (base.overlay top), Fields.get?_overlay_of_keys hkeys]
      cases ht : top.get? k with
      | none => simp only [overlay?_none]
      | some w =>
        have hw := Fields.isTree_of_get? htop ht
        cases hb : base.get? k with
        | none => exact congrArg some (overlay_self hw).symm
        | some v => exact congrArg some (ih k w ht (Fields.isTree_of_get? hbase hb) hw).symm

theorem Agrees.get? {base top : Fields} (h : (object base).Agrees (object top)) {k : Key}
    {v w : Value} (hv : base.get? k = some v) (hw : top.get? k = some w) : v.Agrees w := by
  intro path x y hx hy
  refine h (k :: path) x y ?_ ?_
  · rw [at?_cons, hv]
    exact hx
  · rw [at?_cons, hw]
    exact hy

/-- Three trees may be laid over each other in either way if no path leads to an object in one and
to something else in another. -/
theorem overlay_assoc {v w u : Value} (hv : v.isTree) (hw : w.isTree) (hu : u.isTree)
    (hvw : v.Agrees w) (hwu : w.Agrees u) (hvu : v.Agrees u) :
    overlay (overlay v w) u = overlay v (overlay w u) := by
  induction u using fieldsInduction generalizing v w with
  | leaf u hleaf => simp only [overlay_of_not_object (not_object_of_isObject hleaf)]
  | object c ih =>
    obtain ⟨a, rfl⟩ := exists_fields_of_isObject (hvu [] v (.object c) rfl rfl)
    obtain ⟨b, rfl⟩ := exists_fields_of_isObject (hwu [] w (.object c) rfl rfl)
    have hb := keys_of_isTree hw
    have hc := keys_of_isTree hu
    have hbc : (object (b.overlay c)).isTree := isTree_overlay hw hu
    have habc : (object ((a.overlay b).overlay c)).isTree :=
      isTree_overlay (isTree_overlay hv hw) hu
    simp only [overlay_object]
    congr 1
    refine Fields.eq_of_keys_eq (keys_of_isTree habc) ?_ fun k => ?_
    · simp only [Fields.keys_overlay hb, Fields.keys_overlay hc,
        Fields.keys_overlay (keys_of_isTree hbc), List.append_assoc, List.filter_append,
        List.filter_filter, Fields.has_overlay hb, Bool.not_or]
    · rw [Fields.get?_overlay_of_keys hc, Fields.get?_overlay_of_keys hb,
        Fields.get?_overlay_of_keys (keys_of_isTree hbc), Fields.get?_overlay_of_keys hc]
      cases hkc : c.get? k with
      | none => simp only [overlay?_none]
      | some u =>
        cases hkb : b.get? k with
        | none => simp only [overlay?_none, none_overlay?]
        | some w =>
          cases hka : a.get? k with
          | none => simp only [none_overlay?]
          | some v =>
            exact congrArg some (ih k u hkc (Fields.isTree_of_get? hv hka)
              (Fields.isTree_of_get? hw hkb) (Fields.isTree_of_get? hu hkc) (hvw.get? hka hkb)
              (hwu.get? hkb hkc) (hvu.get? hka hkc))

/-- Objects agree if the values under the same keys do. -/
theorem agrees_object {base top : Fields}
    (h : ∀ e ∈ base, ∀ e' ∈ top, e.1.same e'.1 → e.2.Agrees e'.2) :
    (object base).Agrees (object top) := by
  intro path x y hx hy
  cases path with
  | nil =>
    obtain rfl := Option.some.inj hx
    obtain rfl := Option.some.inj hy
    rfl
  | cons k path =>
    obtain ⟨v, hv, hx⟩ := Option.bind_eq_some_iff.mp hx
    obtain ⟨w, hw, hy⟩ := Option.bind_eq_some_iff.mp hy
    obtain ⟨_, hmem, hk⟩ := Fields.exists_mem_of_get? hv
    obtain ⟨_, hmem', hk'⟩ := Fields.exists_mem_of_get? hw
    have hsame := Key.same_trans hk (Key.same_comm _ _ ▸ hk')
    exact h _ hmem _ hmem' hsame path x y hx hy

theorem agrees_of_not_object {v w : Value} (hv : v.isObject = false) (hw : w.isObject = false) :
    v.Agrees w := by
  intro path x y hx hy
  cases path with
  | nil =>
    obtain rfl := Option.some.inj hx
    obtain rfl := Option.some.inj hy
    rw [hv, hw]
  | cons k path =>
    rw [at?_cons_of_not_object hv] at hx
    cases hx

end Value

namespace Fields

/-- The laws of laying objects over objects. -/
structure OverlayLaws (a b c : Fields) : Prop where
  merged : (Value.object a).withProfile (.object b) = .ok (.object (a.overlay b))
  isTree : (Value.object (a.overlay b)).isTree
  /-- What is no object in the upper one stands as it is. -/
  leaf : ∀ path v, (Value.object b).at? path = some v → v.isObject = false →
    (Value.object (a.overlay b)).at? path = some v
  blocked : ∀ path, (Value.object b).Blocks path → (Value.object (a.overlay b)).at? path = none
  /-- An object in the upper one stands there or is laid over the one in the lower one. -/
  object : ∀ path top, (Value.object b).at? path = some (.object top) →
    (Value.object (a.overlay b)).at? path = some (.object
      (match (Value.object a).at? path with
        | some (.object base) => Fields.overlay base top
        | _ => top))
  /-- Where the upper one has nothing, the lower one is seen. -/
  base : ∀ path, (Value.object b).at? path = none → ¬(Value.object b).Blocks path →
    (Value.object (a.overlay b)).at? path = (Value.object a).at? path
  /-- At every level, the keys of the lower one come first, then the new ones of the upper one. -/
  keys : ∀ path base top, (Value.object a).at? path = some (.object base) →
    (Value.object b).at? path = some (.object top) →
      ∃ merged, (Value.object (a.overlay b)).at? path = some (.object merged) ∧
        merged.map Prod.fst =
          base.map Prod.fst ++ (top.map Prod.fst).filter fun k => !Fields.has base k
  overlay_nil : a.overlay [] = a
  nil_overlay : Fields.overlay [] a = a
  overlay_self : a.overlay a = a
  overlay_overlay_self : (a.overlay b).overlay b = a.overlay b
  overlay_assoc : (Value.object a).Agrees (.object b) → (Value.object b).Agrees (.object c) →
    (Value.object a).Agrees (.object c) → (a.overlay b).overlay c = a.overlay (b.overlay c)

/-- All objects that end and have distinct keys can be laid over each other, and the laws hold of
them. -/
theorem overlayLaws {a b c : Fields} (ha : (Value.object a).isTree) (hb : (Value.object b).isTree)
    (hc : (Value.object c).isTree) : OverlayLaws a b c := by
  have hat (path : List Key) := Value.at?_overlay (.object a) hb path
  have hunblocked {path : List Key} {v : Value} (hv : (Value.object b).at? path = some v) :
      ¬(Value.object b).Blocks path := by
    intro hblocks
    rw [Value.at?_eq_none_of_blocks hblocks] at hv
    cases hv
  have hobject (path : List Key) (top : Fields)
      (htop : (Value.object b).at? path = some (.object top)) :
      (Value.object (a.overlay b)).at? path = some (.object
        (match (Value.object a).at? path with
          | some (.object base) => Fields.overlay base top
          | _ => top)) := by
    have hpath := (hat path).1 (hunblocked htop)
    rw [htop] at hpath
    refine hpath.trans ?_
    cases (Value.object a).at? path with
    | none => rfl
    | some v => cases v <;> rfl
  refine ⟨?merged, Value.isTree_overlay ha hb, fun path v hv hleaf => ?leaf,
    fun path => (hat path).2, hobject, fun path hnone hblocks => ?base,
    fun path base top hbase htop => ?keys, rfl, ?nil_overlay,
    Value.object.inj (Value.overlay_self ha), Value.object.inj (Value.overlay_overlay_self ha hb),
    fun hab hbc hac => Value.object.inj (Value.overlay_assoc ha hb hc hab hbc hac)⟩
  case merged =>
    have hendless : Value.overlaysAreEndless a b = false := Value.overlayIsEndless_of_isTree ha hb
    simp only [Value.withProfile, Value.toFields, bind, Except.bind, hendless, Bool.false_eq_true,
      if_false, pure, Except.pure]
  case leaf =>
    have hpath := (hat path).1 (hunblocked hv)
    rw [hv, Value.overlay?_of_not_object hleaf] at hpath
    exact hpath
  case base =>
    have hpath := (hat path).1 hblocks
    rwa [hnone, Value.overlay?_none] at hpath
  case keys =>
    have hpath := hobject path top htop
    rw [hbase] at hpath
    exact ⟨_, hpath, keys_overlay (Value.keys_of_isTree (Value.isTree_of_at? hb htop)) base⟩
  case nil_overlay =>
    have hkeys := Value.keys_of_isTree ha
    refine (eq_of_keys_eq hkeys ?_ fun k => ?_).symm
    · rw [keys_overlay hkeys]
      exact (List.filter_eq_self.mpr fun _ _ => rfl).symm
    · rw [get?_overlay_of_keys hkeys]
      exact (Value.none_overlay? _).symm

/-- A port that is set three times, and two settings beside it. The three objects agree, so they may
be laid over each other in either way. -/
theorem overlayLaws_of_ports :
    let a : Fields := [("server", .object [("host", .null), ("port", .int 1)])]
    let b : Fields := [("server", .object [("port", .int 2), ("secure", .bool true)])]
    let c : Fields := [("server", .object [("port", .int 3)])]
    (Value.object a).isTree ∧ (Value.object b).isTree ∧ (Value.object c).isTree ∧
      OverlayLaws a b c ∧
      (Value.object (a.overlay b)).at? ["server", "port"] = some (.int 2) ∧
      (Value.object (a.overlay b)).at? ["server", "host"] = some .null ∧
      (a.overlay b).overlay c = a.overlay (b.overlay c) := by
  intro a b c
  have ha : (Value.object a).isTree := rfl
  have hb : (Value.object b).isTree := rfl
  have hc : (Value.object c).isTree := rfl
  have hlaws := overlayLaws ha hb hc
  have hagrees (base top : Fields) (hbase : ∀ e ∈ base, e.2.isObject = false)
      (htop : ∀ e ∈ top, e.2.isObject = false) :
      (Value.object [("server", .object base)]).Agrees (.object [("server", .object top)]) := by
    refine Value.agrees_object fun e he e' he' _ => ?_
    obtain rfl := List.mem_singleton.mp he
    obtain rfl := List.mem_singleton.mp he'
    exact Value.agrees_object fun e he e' he' _ =>
      Value.agrees_of_not_object (hbase e he) (htop e' he')
  exact ⟨ha, hb, hc, hlaws, hlaws.leaf ["server", "port"] _ rfl rfl, rfl,
    hlaws.overlay_assoc (hagrees _ _ (by simp [Value.isObject]) (by simp [Value.isObject]))
      (hagrees _ _ (by simp [Value.isObject]) (by simp [Value.isObject]))
      (hagrees _ _ (by simp [Value.isObject]) (by simp [Value.isObject]))⟩

/-- What is null between two objects hides the lower one, unless the upper two are merged first. -/
example :
    let a : Fields := [("server", .object [("port", .int 1)])]
    let b : Fields := [("server", .null)]
    let c : Fields := [("server", .object [("secure", .bool true)])]
    (Value.object ((a.overlay b).overlay c)).at? ["server", "port"] = none ∧
      (Value.object (a.overlay (b.overlay c))).at? ["server", "port"] = some (.int 1) :=
  ⟨rfl, rfl⟩

end Fields

end StockRegister
