import Mathlib.Data.List.Pairwise
import Mathlib.Tactic.SplitIfs
import StockRegister.Schema.Field

/-!
# Fields that are read and written

What a check lets through is stated once for each way in which checks are put together
(`Checked.Ensures`), so what a model reads is known from the checks of its fields.

The other way round, entries that are written under their labels (`labelled`) are found again. It
takes that no two fields share a key and that a field may be spelled as its name (`Legible`).
Then every field finds its own value (`Legible.find_labelled`), under its plain name as under
its preferred key.
-/

namespace StockRegister

theorem Text.ofString_inj {s t : String} : Text.ofString s = Text.ofString t ↔ s = t := by
  constructor
  · intro h
    have hs := congrArg Text.toString? h
    simpa only [Text.toString?_ofString, Option.some.injEq] using hs
  · rintro rfl
    rfl

/-- A sequence of two steps succeeds only if both do. -/
theorem exists_of_bind_eq_ok {ε α β : Type} {x : Except ε α} {f : α → Except ε β} {b : β}
    (h : (x >>= f) = .ok b) : ∃ a, x = .ok a ∧ f a = .ok b := by
  cases x with
  | error e => cases h
  | ok a => exact ⟨a, rfl, h⟩

namespace Schema

open Checked

/-! ## What a check lets through -/

namespace Checked

variable {α β : Type}

/-- Everything that a check lets through has a property. -/
def Ensures (c : Checked α) (P : α → Prop) : Prop := ∀ a, c = .ok a → P a

theorem map_eq_ok {f : α → β} {c : Checked α} {b : β} :
    f <$> c = ok b ↔ ∃ a, c = ok a ∧ f a = b := by
  cases c <;> simp

theorem bind_eq_ok {f : α → Checked β} {c : Checked α} {b : β} :
    c.bind f = ok b ↔ ∃ a, c = ok a ∧ f a = ok b := by
  cases c <;> simp [bind]

theorem Ensures.bind {P : β → Prop} {f : α → Checked β} (h : ∀ a, (f a).Ensures P)
    (c : Checked α) : (c.bind f).Ensures P := by
  intro b hb
  obtain ⟨a, -, ha⟩ := bind_eq_ok.mp hb
  exact h a b ha

theorem Ensures.readOptional {P : α → Prop} {read : Value → Checked α}
    (h : ∀ v, (read v).Ensures P) (v : Value) :
    (Schema.readOptional read v).Ensures fun o => ∀ a ∈ o, P a := by
  intro o ho a ha
  unfold Schema.readOptional at ho
  split at ho
  · cases ho
    cases ha
  · obtain ⟨a', hread, rfl⟩ := map_eq_ok.mp ho
    obtain rfl : a' = a := Option.some.inj ha
    exact h _ _ hread

theorem Ensures.orElse {P : α → Prop} {read : Value → Checked α} {default : α} (hd : P default)
    (h : ∀ v, (read v).Ensures P) (f : Field) (fields : Fields) :
    (f.orElse default read fields).Ensures P := by
  intro a ha
  unfold Field.orElse at ha
  split at ha
  · exact h _ a (under_eq_ok.mp ha)
  · cases ha
    exact hd

theorem Ensures.required {P : α → Prop} {read : Value → Checked α}
    (h : ∀ v, (read v).Ensures P) (f : Field) (fields : Fields) :
    (f.required read fields).Ensures P := by
  intro a ha
  unfold Field.required at ha
  split at ha
  · exact h _ a (under_eq_ok.mp ha)
  · cases ha

end Checked

/-- Only an object is read as a model. -/
theorem readModel_eq_ok {α : Type} {title : String} {read : Fields → Checked α} {v : Value}
    {a : α} :
    readModel title read v = ok a ↔ ∃ fields, v = .object fields ∧ read fields = ok a := by
  cases v <;> simp [readModel, fail]

section Bounds

variable {n m bound : Int} {x y : Double}

theorem atLeast_eq_ok : atLeast bound n = ok m ↔ bound ≤ n ∧ n = m := by
  unfold atLeast
  split_ifs with h <;> simp [h, fail]

theorem atMost_eq_ok : atMost bound n = ok m ↔ n ≤ bound ∧ n = m := by
  unfold atMost
  split_ifs with h <;> simp [h, fail]

theorem numberAtLeast_eq_ok : numberAtLeast bound x = ok y ↔ (Double.ofInt bound).le x ∧ x = y := by
  unfold numberAtLeast
  split_ifs with h <;> simp [h, fail]

theorem numberAbove_eq_ok : numberAbove bound x = ok y ↔ (Double.ofInt bound).lt x ∧ x = y := by
  unfold numberAbove
  split_ifs with h <;> simp [h, fail]

theorem numberAtMost_eq_ok : numberAtMost bound x = ok y ↔ x.le (Double.ofInt bound) ∧ x = y := by
  unfold numberAtMost
  split_ifs with h <;> simp [h, fail]

end Bounds

theorem ensures_atLeast (least n : Int) : (atLeast least n).Ensures (least ≤ ·) := by
  intro m hm
  obtain ⟨hle, rfl⟩ := atLeast_eq_ok.mp hm
  exact hle

theorem ensures_readIntFrom (least : Int) (v : Value) : (readIntFrom least v).Ensures (least ≤ ·) :=
  Ensures.bind (ensures_atLeast least) _

theorem ensures_readPrice (v : Value) : (readPrice v).Ensures fun x => Double.zero.le x := by
  refine Ensures.bind (fun x y hy => ?_) _
  obtain ⟨hle, rfl⟩ := numberAtLeast_eq_ok.mp hy
  exact hle

theorem ensures_numberAbove (x : Double) :
    (numberAbove 0 x).Ensures fun x => Double.zero.lt x := by
  intro y hy
  obtain ⟨hlt, rfl⟩ := numberAbove_eq_ok.mp hy
  exact hlt

/-! ## Finding what was written -/

/-- The fields that hold the values of entries under their labels. -/
def labelled (naming : Naming) (entries : List (Field × Value)) : Fields :=
  entries.map fun e => (e.1.label naming, e.2)

theorem get?_labelled (naming : Naming) (entries : List (Field × Value)) (k : String) :
    Fields.get? (labelled naming entries) k =
      (entries.find? fun e => e.1.label naming = k).map Prod.snd := by
  have hsame : (fun f : Key × Value => f.1.same k) ∘
      (fun e : Field × Value => ((e.1.label naming : Key), e.2)) =
        fun e => decide (e.1.label naming = k) := by
    funext e
    rw [Function.comp_apply, Key.same_text, Bool.eq_iff_iff, beq_iff_eq, decide_eq_true_iff]
    exact Text.ofString_inj
  unfold Fields.get? labelled
  rw [List.find?_map, Option.map_map, hsame]
  rfl

/-- Every field may be spelled as its name, and no two fields share a key. -/
structure Legible (entries : List (Field × Value)) : Prop where
  name_mem : ∀ e ∈ entries, e.1.name ∈ e.1.keys
  disjoint : entries.Pairwise fun e e' => ∀ k ∈ e.1.keys, k ∉ e'.1.keys

namespace Legible

variable {entries : List (Field × Value)}

/-- Whether entries are legible is a matter of their fields. -/
theorem of_map_fst (fields : List Field) (hfields : entries.map Prod.fst = fields)
    (hname : ∀ f ∈ fields, f.name ∈ f.keys)
    (hdisjoint : fields.Pairwise fun f g => ∀ k ∈ f.keys, k ∉ g.keys) : Legible entries := by
  subst hfields
  exact ⟨fun e he => hname e.1 (List.mem_map_of_mem he), List.pairwise_map.mp hdisjoint⟩

theorem label_mem (h : Legible entries) {e : Field × Value} (he : e ∈ entries) :
    ∀ naming, e.1.label naming ∈ e.1.keys
  | .plain => h.name_mem e he
  | .preferred => List.mem_cons_self

/-- Only one entry has a field with a given key. -/
theorem eq_of_mem_keys (h : Legible entries) {e e' : Field × Value} (he : e ∈ entries)
    (he' : e' ∈ entries) {k : String} (hk : k ∈ e.1.keys) (hk' : k ∈ e'.1.keys) : e = e' := by
  have : Std.Symm fun e e' : Field × Value => ∀ k ∈ e.1.keys, k ∉ e'.1.keys :=
    ⟨fun _ _ hd k hk' hk => hd k hk hk'⟩
  by_contra hne
  exact h.disjoint.forall he he' hne k hk hk'

/-- Under a key of a field only the entry of that field can be found. -/
theorem find?_label (h : Legible entries) {e : Field × Value} (he : e ∈ entries)
    (naming : Naming) {k : String} (hk : k ∈ e.1.keys) :
    (entries.find? fun e' => e'.1.label naming = k) =
      if e.1.label naming = k then some e else none := by
  have hunique : ∀ e' ∈ entries, e'.1.label naming = k → e' = e := fun e' he' hlabel =>
    h.eq_of_mem_keys he' he (hlabel ▸ h.label_mem he' naming) hk
  cases hfind : entries.find? fun e' => e'.1.label naming = k with
  | none =>
    have hne : e.1.label naming ≠ k := by simpa using List.find?_eq_none.mp hfind e he
    rw [if_neg hne]
  | some e' =>
    have hlabel : e'.1.label naming = k := by simpa using List.find?_some hfind
    obtain rfl := hunique e' (List.mem_of_find?_eq_some hfind) hlabel
    rw [if_pos hlabel]

/-- A field finds the value that was written for it. -/
theorem find_labelled (h : Legible entries) {f : Field} {v : Value} (he : (f, v) ∈ entries)
    (naming : Naming) : f.find (labelled naming entries) = some (f.label naming, v) := by
  have hkeys : ∀ ks : List String, (∀ k ∈ ks, k ∈ f.keys) → f.label naming ∈ ks →
      (ks.findSome? fun (k : String) => (Fields.get? (labelled naming entries) k).map fun v =>
        (k, v)) = some (f.label naming, v) := by
    intro ks hks hmem
    induction ks with
    | nil => cases hmem
    | cons k ks ih =>
      rw [List.findSome?_cons, get?_labelled, h.find?_label he naming (hks k List.mem_cons_self)]
      split_ifs with hk
      · rw [← hk]
        rfl
      · exact ih (fun k hk => hks k (List.mem_cons_of_mem _ hk))
          (List.mem_of_ne_of_mem hk hmem)
  exact hkeys f.keys (fun _ hk => hk) (h.label_mem he naming)

variable {f : Field} {v : Value} {i : Nat}

/-- A field that has an entry is read from it. -/
theorem orElse_labelled (h : Legible entries) (he : entries[i]? = some (f, v)) (naming : Naming)
    {α : Type} (default : α) (read : Value → Checked α) :
    f.orElse default read (labelled naming entries) = (read v).under (.name (f.label naming)) := by
  simp only [Field.orElse, h.find_labelled (List.mem_of_getElem? he)]

theorem required_labelled (h : Legible entries) (he : entries[i]? = some (f, v)) (naming : Naming)
    {α : Type} (read : Value → Checked α) :
    f.required read (labelled naming entries) = (read v).under (.name (f.label naming)) := by
  simp only [Field.required, h.find_labelled (List.mem_of_getElem? he)]

end Legible

end Schema

end StockRegister
