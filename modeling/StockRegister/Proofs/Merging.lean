import StockRegister.Proofs.Fields

/-!
# Objects laid over objects

Under a name, an object laid over another has what the two have, laid over each other
(`Fields.get?_overlay`), if no key of the upper one finds a later one (`Value.isKeyed`). It goes on
without end only if both do (`Value.overlaysAreEndless_of_finite`).

A model is read by putting together what is read of its fields, so what it is read as from a merged
object follows field by field (`Merges`) : a setting that is no object is chosen from the two
(`Merges.leaf`), and a section is again an object laid over another (`LaysOver.field`). `Ignores`
says that the keys that name no setting of a section (`Sections.restrict`) have no part in this.
-/

namespace StockRegister

open Schema

/-! ## Looking up what was laid over -/

namespace Value

mutual

/-- Whether in no object within a value a key finds a later one. -/
def isKeyed : Value → Bool
  | object fields => fieldsAreKeyed fields
  | _ => true

@[inherit_doc isKeyed] def fieldsAreKeyed : List (Key × Value) → Bool
  | [] => true
  | (k, v) :: rest => rest.all (fun e => !k.finds e.1) && isKeyed v && fieldsAreKeyed rest

end

/-- What a key has in an object laid over another, by what it has in the two. -/
def overlay? : Option Value → Option Value → Option Value
  | base, none => base
  | none, some top => some top
  | some base, some top => some (overlay base top)

/-- A value with something done to its fields, if it is an object. -/
def mapPart (change : Fields → Fields) : Value → Value
  | object part => object (change part)
  | v => v

@[simp] theorem overlay?_none (base : Option Value) : overlay? base none = base := by
  cases base <;> rfl

@[simp] theorem none_overlay? (top : Option Value) : overlay? none top = top := by
  cases top <;> rfl

/-- A value that is no object stands as it is, whatever it is laid over. -/
theorem overlay_of_not_object {top : Value} (h : ∀ fields, top ≠ .object fields) (base : Value) :
    overlay base top = top := by
  cases top with
  | object fields => exact absurd rfl (h fields)
  | _ => cases base <;> rfl

end Value

/-- Only a text is the same key as a text. -/
theorem Key.same_text_iff {k : Key} {t : Text} : k.same (.text t) ↔ k = .text t := by
  constructor
  · intro h
    cases k with
    | text s =>
      rw [same_text, beq_iff_eq] at h
      rw [h]
    | float x =>
      simp only [same, normal] at h
      split at h <;> cases h
    | moment m =>
      simp only [same, normal] at h
      split at h <;> cases h
    | _ => cases h
  · rintro rfl
    exact same_refl _

theorem Key.same_congr {k k' : Key} (h : k.same k') (l : Key) : k.same l = k'.same l := by
  simp only [Key.same, beq_iff_eq] at h
  rw [Key.same, h, Key.same]

namespace Fields

theorem get?_cons (k : Key) (v : Value) (fields : Fields) (l : Key) :
    get? ((k, v) :: fields) l = if k.same l then some v else fields.get? l := by
  unfold get?
  rw [List.find?_cons]
  cases k.same l <;> rfl

theorem get?_congr (fields : Fields) {k l : Key} (h : k.same l) :
    fields.get? k = fields.get? l := by
  unfold get?
  congr 2
  funext e
  rw [Key.same_comm, Key.same_congr h, Key.same_comm]

theorem get?_put (fields : Fields) (k l : Key) (v : Value) :
    (fields.put k v).get? l = if k.same l then some v else fields.get? l := by
  induction fields with
  | nil => exact get?_cons k v [] l
  | cons e fields ih =>
    obtain ⟨k', old⟩ := e
    rw [put]
    split_ifs with hput hl hl
    · rw [get?_cons, Key.same_congr hput, if_pos hl]
    · rw [get?_cons, Key.same_congr hput, if_neg hl, get?_cons, Key.same_congr hput, if_neg hl]
    · rw [get?_cons, ih, if_pos hl, if_neg fun h => hput ?_]
      exact Key.same_trans h (Key.same_comm l k ▸ hl)
    · rw [get?_cons, get?_cons, ih, if_neg hl]

theorem has_put (fields : Fields) (k l : Key) (v : Value) :
    (fields.put k v).has l = (k.same l || fields.has l) := by
  rw [has, get?_put, has]
  cases k.same l <;> rfl

theorem get?_eq_none_iff {fields : Fields} {k : Key} :
    fields.get? k = none ↔ ∀ e ∈ fields, e.1.same k = false := by
  simp [get?]

/-- A name is that of one field at most if no key finds a later one. -/
theorem unique_of_keyed {fields : Fields} (h : Value.fieldsAreKeyed fields) (t : Text) :
    fields.Pairwise fun e e' => e.1.same (.text t) → e'.1.same (.text t) = false := by
  induction fields with
  | nil => exact .nil
  | cons e fields ih =>
    obtain ⟨k, v⟩ := e
    simp only [Value.fieldsAreKeyed, Bool.and_eq_true, List.all_eq_true] at h
    refine .cons (fun e he hk => ?_) (ih h.2)
    obtain rfl : k = .text t := Key.same_text_iff.mp hk
    rw [← Bool.not_eq_true]
    intro hsame
    have hfinds : (Key.text t).finds e.1 := by
      rw [Key.same_text_iff.mp hsame, Key.finds_text, beq_self_eq_true]
    simpa [hfinds] using h.1.1 e he

theorem isKeyed_of_get? {fields : Fields} (h : Value.fieldsAreKeyed fields) {k : Key} {v : Value}
    (hget : fields.get? k = some v) : v.isKeyed := by
  induction fields with
  | nil => cases hget
  | cons e fields ih =>
    obtain ⟨l, w⟩ := e
    simp only [Value.fieldsAreKeyed, Bool.and_eq_true] at h
    rw [get?_cons] at hget
    split_ifs at hget
    · obtain rfl := Option.some.inj hget
      exact h.1.2
    · exact ih h.2 hget

/-- Under a key that is that of one field of the upper object at most, an object laid over another
has what the two have, laid over each other. -/
theorem get?_overlay_of_unique {top : Fields} {l : Key}
    (hunique : top.Pairwise fun e e' => e.1.same l → e'.1.same l = false) (base : Fields) :
    (base.overlay top).get? l = Value.overlay? (base.get? l) (top.get? l) := by
  induction top generalizing base with
  | nil =>
    rw [overlay, Value.overlayFields]
    exact (Value.overlay?_none _).symm
  | cons e top ih =>
    obtain ⟨k, v⟩ := e
    obtain ⟨hfirst, hrest⟩ := List.pairwise_cons.mp hunique
    unfold overlay at ih ⊢
    rw [Value.overlayFields, ih hrest, get?_put, get?_cons]
    by_cases hk : k.same l
    · -- The key is that of the field, so no later field has it.
      have hnone : get? top l = none := get?_eq_none_iff.mpr fun e he => hfirst e he hk
      rw [if_pos hk, if_pos hk, hnone, get?_congr base hk]
      cases base.get? l <;> rfl
    · rw [if_neg hk, if_neg hk]

/-- Under a name, an object laid over another has what the two have, laid over each other. -/
theorem get?_overlay {top : Fields} (hkeyed : Value.fieldsAreKeyed top) (base : Fields)
    (t : Text) :
    (base.overlay top).get? (.text t) =
      Value.overlay? (base.get? (.text t)) (top.get? (.text t)) :=
  get?_overlay_of_unique (unique_of_keyed hkeyed t) base

end Fields

/-! ## Documents without end -/

namespace Value

theorem isEndless_of_get? {fields : Fields} (h : fieldsAreEndless fields = false) {k : Key}
    {v : Value} (hget : Fields.get? fields k = some v) : v.isEndless = false := by
  induction fields with
  | nil => cases hget
  | cons e fields ih =>
    obtain ⟨l, w⟩ := e
    simp only [fieldsAreEndless, Bool.or_eq_false_iff] at h
    rw [Fields.get?_cons] at hget
    split_ifs at hget
    · obtain rfl := Option.some.inj hget
      exact h.1
    · exact ih h.2 hget

mutual

/-- A value can be laid over another unless both go on without end. -/
theorem overlayIsEndless_of_finite {base top : Value}
    (h : base.isEndless = false ∨ top.isEndless = false) : overlayIsEndless base top = false := by
  cases top with
  | object top =>
    cases base with
    | object base =>
      rw [overlayIsEndless]
      exact overlaysAreEndless_of_finite (by simpa only [isEndless] using h)
    | endless => simpa [overlayIsEndless, isEndless] using h
    | _ => simp [overlayIsEndless]
  | endless => cases base <;> simp_all [overlayIsEndless, isEndless]
  | _ => cases base <;> simp_all [overlayIsEndless, isEndless]

@[inherit_doc overlayIsEndless_of_finite]
theorem overlaysAreEndless_of_finite {base top : List (Key × Value)}
    (h : fieldsAreEndless base = false ∨ fieldsAreEndless top = false) :
    overlaysAreEndless base top = false := by
  cases top with
  | nil => rw [overlaysAreEndless]
  | cons e top =>
    obtain ⟨k, v⟩ := e
    simp only [fieldsAreEndless, Bool.or_eq_false_iff] at h
    rw [overlaysAreEndless, Bool.or_eq_false_iff]
    refine ⟨?_, overlaysAreEndless_of_finite (h.imp_right And.right)⟩
    cases hold : Fields.get? base k with
    | none => rfl
    | some old =>
      exact overlayIsEndless_of_finite
        (h.imp (fun hbase => isEndless_of_get? hbase hold) And.left)

end

end Value

namespace Schema

/-! ## Reading what was laid over -/

namespace Field

theorem orElse_congr {fields fields' : Fields}
    (h : ∀ t : Text, fields.get? (.text t) = fields'.get? (.text t)) (f : Field) {α : Type}
    (default : α) (read : Value → Checked α) :
    f.orElse default read fields = f.orElse default read fields' := by
  simp only [orElse, find, h]

/-- The setting of an object laid over another : that of the upper one if it has the field. -/
def choose {α : Type} (f : Field) (top : Fields) (x y : α) : α :=
  if (f.find top).isSome then y else x

/-- The object in a field, or one without fields. -/
def part (f : Field) (fields : Fields) : Fields :=
  match f.find fields with
  | some (_, .object part) => part
  | _ => []

/-- Whatever stands in a field is an object. -/
def HoldsObject (f : Field) (fields : Fields) : Prop :=
  ∀ v, fields.get? f.key = some v → ∃ part, v = .object part

variable {f : Field} (hf : f.otherKeys = [])

include hf

theorem find_eq_of_plain (fields : Fields) :
    f.find fields = (fields.get? f.key).map (f.key, ·) := by
  unfold find keys
  rw [hf, List.findSome?_cons]
  cases fields.get? f.key <;> rfl

theorem orElse_eq_ok_iff {α : Type} {default a : α} {read : Value → Checked α} {fields : Fields} :
    f.orElse default read fields = .ok a ↔
      (fields.get? f.key).elim (a = default) (read · = .ok a) := by
  unfold orElse
  rw [find_eq_of_plain hf]
  cases fields.get? f.key with
  | none => simp [eq_comm]
  | some v => exact Checked.under_eq_ok

end Field

/-- What an object is read as that is laid over another is related to what the two are read as. -/
def Merges {α : Type} (base top : Fields) (read : Fields → Checked α) (R : α → α → α → Prop) :
    Prop :=
  ∀ x y, read base = .ok x → read top = .ok y → ∃ z, read (base.overlay top) = .ok z ∧ R x y z

namespace Merges

variable {α β : Type} {base top : Fields} {read : Fields → Checked α} {R : α → α → α → Prop}
  {S : β → β → β → Prop}

theorem map {g : α → β} (h : Merges base top read R)
    (hg : ∀ x y z, R x y z → S (g x) (g y) (g z)) :
    Merges base top (fun fields => g <$> read fields) S := by
  intro x' y' hx' hy'
  obtain ⟨x, hx, rfl⟩ := Checked.map_eq_ok.mp hx'
  obtain ⟨y, hy, rfl⟩ := Checked.map_eq_ok.mp hy'
  obtain ⟨z, hz, hR⟩ := h x y hx hy
  exact ⟨g z, Checked.map_eq_ok.mpr ⟨z, hz, rfl⟩, hg x y z hR⟩

theorem seq {readF : Fields → Checked (α → β)}
    (hF : Merges base top readF fun g h k => ∀ x y z, R x y z → S (g x) (h y) (k z))
    (h : Merges base top read R) :
    Merges base top (fun fields => readF fields <*> read fields) S := by
  intro x' y' hx' hy'
  obtain ⟨g, x, hg, hx, rfl⟩ := Checked.seq_eq_ok.mp hx'
  obtain ⟨g', y, hg', hy, rfl⟩ := Checked.seq_eq_ok.mp hy'
  obtain ⟨k, hk, hS⟩ := hF g g' hg hg'
  obtain ⟨z, hz, hR⟩ := h x y hx hy
  exact ⟨k z, Checked.seq_eq_ok.mpr ⟨k, z, hk, hz, rfl⟩, hS x y z hR⟩

/-- A setting that is no object is chosen from the two objects. -/
theorem leaf {f : Field} (hf : f.otherKeys = []) (hkeyed : Value.fieldsAreKeyed top) {default : α}
    {read : Value → Checked α} (hread : ∀ fields a, read (.object fields) ≠ .ok a) :
    Merges base top (f.orElse default read) fun x y z => z = f.choose top x y := by
  intro x y hx hy
  refine ⟨_, ?_, rfl⟩
  rw [Field.orElse_eq_ok_iff hf] at hx hy ⊢
  rw [Fields.get?_overlay hkeyed, Field.choose, Field.find_eq_of_plain hf]
  cases htop : top.get? f.key with
  | none => simpa [Value.overlay?] using hx
  | some v =>
    rw [htop] at hy
    have hv : ∀ fields, v ≠ .object fields := by
      rintro fields rfl
      exact hread fields y hy
    cases base.get? f.key with
    | none => exact hy
    | some old => simpa [Value.overlay?, Value.overlay_of_not_object hv] using hy

end Merges

/-! ## Sections -/

namespace Field

variable {f : Field} (hf : f.otherKeys = [])

include hf

/-- A section is read exactly if it is an object, or missing, and its part is read. -/
theorem orElse_readModel_eq_ok_iff {α : Type} {title : String} {default a : α}
    {read : Fields → Checked α} (hnil : read [] = .ok default) {fields : Fields} :
    f.orElse default (readModel title read) fields = .ok a ↔
      f.HoldsObject fields ∧ read (f.part fields) = .ok a := by
  rw [orElse_eq_ok_iff hf, HoldsObject, part, find_eq_of_plain hf]
  cases fields.get? f.key with
  | none => simp [hnil, eq_comm]
  | some v => cases v <;> simp [readModel, Checked.fail]

theorem fieldsAreKeyed_part {fields : Fields} (h : Value.fieldsAreKeyed fields) :
    Value.fieldsAreKeyed (f.part fields) := by
  rw [part, find_eq_of_plain hf]
  cases hget : fields.get? f.key with
  | none => rfl
  | some v =>
    have hv := Fields.isKeyed_of_get? h hget
    cases v with
    | object part => exact hv
    | _ => rfl

/-- The section of an object laid over another is laid over the section of the other. -/
theorem part_overlay {base top : Fields} (hkeyed : Value.fieldsAreKeyed top)
    (hbase : f.HoldsObject base) (htop : f.HoldsObject top) :
    f.HoldsObject (base.overlay top) ∧ ∀ t : Text,
      (f.part (base.overlay top)).get? (.text t) =
        ((f.part base).overlay (f.part top)).get? (.text t) := by
  have hpart := fieldsAreKeyed_part hf hkeyed
  simp only [Fields.get?_overlay hpart]
  simp only [HoldsObject, part, find_eq_of_plain hf, Fields.get?_overlay hkeyed] at *
  cases htop' : top.get? f.key with
  | none =>
    rw [Value.overlay?_none]
    exact ⟨hbase, fun t => (Value.overlay?_none _).symm⟩
  | some v =>
    obtain ⟨upper, rfl⟩ := htop v htop'
    rw [htop'] at hpart
    cases hbase' : base.get? f.key with
    | none =>
      rw [Value.none_overlay?]
      exact ⟨fun w hw => ⟨upper, (Option.some.inj hw).symm⟩,
        fun t => (Value.none_overlay? _).symm⟩
    | some w =>
      obtain ⟨lower, rfl⟩ := hbase w hbase'
      exact ⟨fun w hw => ⟨Fields.overlay lower upper, (Option.some.inj hw).symm⟩,
        fun t => Fields.get?_overlay hpart lower t⟩

end Field

/-- Objects of a section that are laid over one another are read as `laid` says. -/
structure LaysOver {α : Type} (read : Fields → Checked α) (default : α)
    (laid : Fields → α → α → α) : Prop where
  nil : read [] = .ok default
  congr : ∀ fields fields' : Fields,
    (∀ t : Text, fields.get? (.text t) = fields'.get? (.text t)) → read fields = read fields'
  merges : ∀ base top, Value.fieldsAreKeyed top →
    Merges base top read fun x y z => z = laid top x y

/-- A section within a section is laid over the section of the lower object. -/
theorem LaysOver.field {α : Type} {read : Fields → Checked α} {default : α}
    {laid : Fields → α → α → α} (h : LaysOver read default laid) {f : Field}
    (hf : f.otherKeys = []) {base top : Fields} (hkeyed : Value.fieldsAreKeyed top)
    (title : String) :
    Merges base top (f.orElse default (readModel title read)) fun x y z =>
      z = laid (f.part top) x y := by
  intro x y hx hy
  rw [Field.orElse_readModel_eq_ok_iff hf h.nil] at hx hy
  obtain ⟨hbase, hx⟩ := hx
  obtain ⟨htop, hy⟩ := hy
  obtain ⟨hholds, hsame⟩ := Field.part_overlay hf hkeyed hbase htop
  obtain ⟨z, hz, rfl⟩ := h.merges _ _ (Field.fieldsAreKeyed_part hf hkeyed) x y hx hy
  refine ⟨_, ?_, rfl⟩
  rw [Field.orElse_readModel_eq_ok_iff hf h.nil, h.congr _ _ hsame]
  exact ⟨hholds, hz⟩

/-! ## Keys that name no setting -/

/-- The fields of a section, each with what is done to the object that it may hold. -/
abbrev Sections := List (Field × (Fields → Fields))

namespace Sections

/-- What is done to the object under a key, if the key is that of a field. -/
def change? (sections : Sections) (k : Key) : Option (Fields → Fields) :=
  (sections.find? fun s => k.same s.1.key).map Prod.snd

/-- The fields of an object whose keys are those of a section, and of the objects in them. -/
def restrict (sections : Sections) (fields : Fields) : Fields :=
  fields.filterMap fun e => (sections.change? e.1).map fun change => (e.1, e.2.mapPart change)

variable {sections : Sections}

theorem change?_congr (sections : Sections) {k l : Key} (h : k.same l) :
    sections.change? k = sections.change? l := by
  simp only [change?, Key.same_congr h]

theorem restrict_cons (sections : Sections) (k : Key) (v : Value) (fields : Fields) :
    sections.restrict ((k, v) :: fields) =
      match sections.change? k with
      | none => sections.restrict fields
      | some change => (k, v.mapPart change) :: sections.restrict fields := by
  unfold restrict
  rw [List.filterMap_cons]
  cases sections.change? k <;> rfl

theorem get?_restrict {k : Key} {change : Fields → Fields} (h : sections.change? k = some change)
    (fields : Fields) :
    Fields.get? (sections.restrict fields) k = (fields.get? k).map (Value.mapPart change) := by
  induction fields with
  | nil => rfl
  | cons e fields ih =>
    obtain ⟨l, v⟩ := e
    rw [restrict_cons, Fields.get?_cons]
    by_cases hl : l.same k
    · rw [change?_congr sections hl, h, if_pos hl]
      exact (Fields.get?_cons _ _ _ _).trans (if_pos hl)
    · rw [if_neg hl, ← ih]
      cases sections.change? l with
      | none => rfl
      | some other => exact (Fields.get?_cons _ _ _ _).trans (if_neg hl)

theorem fieldsAreKeyed_restrict
    (h : ∀ s ∈ sections, ∀ part, Value.fieldsAreKeyed part → Value.fieldsAreKeyed (s.2 part))
    {fields : Fields} (hkeyed : Value.fieldsAreKeyed fields) :
    Value.fieldsAreKeyed (sections.restrict fields) := by
  induction fields with
  | nil => rfl
  | cons e fields ih =>
    obtain ⟨k, v⟩ := e
    simp only [Value.fieldsAreKeyed, Bool.and_eq_true] at hkeyed
    obtain ⟨⟨hfresh, hv⟩, hrest⟩ := hkeyed
    rw [restrict_cons]
    cases hchange : sections.change? k with
    | none => exact ih hrest
    | some change =>
      obtain ⟨s, hs, rfl⟩ := Option.map_eq_some_iff.mp hchange
      have hpart : (v.mapPart s.2).isKeyed := by
        cases v with
        | object part => exact h s (List.mem_of_find?_eq_some hs) part hv
        | _ => rfl
      have hkeys : (sections.restrict fields).all fun e => !k.finds e.1 := by
        rw [List.all_eq_true] at hfresh ⊢
        intro e he
        obtain ⟨e', he', heq⟩ := List.mem_filterMap.mp he
        obtain ⟨other, -, rfl⟩ := Option.map_eq_some_iff.mp heq
        exact hfresh e' he'
      simp only [Value.fieldsAreKeyed, Bool.and_eq_true]
      exact ⟨⟨hkeys, hpart⟩, ih hrest⟩

end Sections

namespace Field

variable (f : Field) {sections : Sections} {change : Fields → Fields} (hf : f.otherKeys = [])

include hf

theorem orElse_restrict (h : sections.change? f.key = some id) {α : Type} (default : α)
    (read : Value → Checked α) (fields : Fields) :
    f.orElse default read (sections.restrict fields) = f.orElse default read fields := by
  have hid : Value.mapPart id = id := by
    funext v
    cases v <;> rfl
  simp only [orElse, find_eq_of_plain hf, Sections.get?_restrict h, hid, Option.map_id, id_eq]

theorem orElse_readModel_restrict (h : sections.change? f.key = some change) {α : Type}
    {read : Fields → Checked α} (hread : ∀ part, read (change part) = read part) (default : α)
    (title : String) (fields : Fields) :
    f.orElse default (readModel title read) (sections.restrict fields) =
      f.orElse default (readModel title read) fields := by
  simp only [orElse, find_eq_of_plain hf, Sections.get?_restrict h]
  cases fields.get? f.key with
  | none => rfl
  | some v =>
    cases v with
    | object part => exact congrArg (Checked.under (.name f.key)) (hread part)
    | _ => rfl

theorem choose_restrict (h : sections.change? f.key = some change) {α : Type} (top : Fields)
    (x y : α) : f.choose (sections.restrict top) x y = f.choose top x y := by
  simp only [choose, find_eq_of_plain hf, Sections.get?_restrict h, Option.isSome_map]

theorem part_restrict (h : sections.change? f.key = some change) (hnil : change [] = [])
    (fields : Fields) : f.part (sections.restrict fields) = change (f.part fields) := by
  simp only [part, find_eq_of_plain hf, Sections.get?_restrict h]
  cases fields.get? f.key with
  | none => exact hnil.symm
  | some v =>
    cases v with
    | object part => rfl
    | _ => exact hnil.symm

end Field

/-- Keys that name no setting of a section have no part in reading it, nor in laying it over
another. -/
structure Ignores {α : Type} (sections : Sections) (read : Fields → Checked α)
    (laid : Fields → α → α → α) : Prop where
  read : ∀ fields, read (sections.restrict fields) = read fields
  laid : ∀ top x y, laid (sections.restrict top) x y = laid top x y
  keyed : ∀ top, Value.fieldsAreKeyed top → Value.fieldsAreKeyed (sections.restrict top)

end Schema

end StockRegister
