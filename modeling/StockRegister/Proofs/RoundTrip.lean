import StockRegister.Proofs.Soundness
import StockRegister.Proofs.Starting

/-!
# What was read is read again

A record is written in one of three forms (`Form`) : under the plain names of its fields, under
their preferred keys, or without the fields that are null. What a check has read may be unlike what
it was read from, a number in place of its text, say. But it is stable : written in any form, the
same check reads it as the same value (`ReadsBack`).

Checks are put together of others, and so are the proofs. A test that changes nothing keeps a check
stable (`ReadsBack.bind`), a field of an object is read from its entry again (`ReadsBack.required`,
`ReadsBack.orElse`, `ReadsBack.optional`), and a model whose fields are read again
(`Restores`) is a stable check itself (`Restores.readsBack`). `Model.readsAgain_of_read` says of
every model that it reads each of the three forms of whatever it has read as the same record.
-/

namespace StockRegister

open Schema

namespace Schema

open Checked

/-! ## Written forms -/

/-- A form in which a record is written. -/
inductive Form where
  | plain
  | preferred
  | withoutNulls

namespace Form

/-- The names under which a form has the fields. -/
def naming : Form → Naming
  | preferred => .preferred
  | _ => .plain

/-- What a form makes of a value. -/
def shown : Form → Value → Value
  | withoutNulls, v => v.withoutNulls
  | _, v => v

/-- What a form makes of the entry of a field, which may be left out. -/
def shownEntry : Form → Field × Value → Option (Field × Value)
  | withoutNulls, (_, .null) => none
  | form, (f, v) => some (f, form.shown v)

/-- The fields of an object in a form. -/
def fields (form : Form) (entries : List (Field × Value)) : Fields :=
  labelled form.naming (entries.filterMap form.shownEntry)

variable {form : Form} {v : Value}

/-- A value without parts is the same in every form. -/
theorem shown_of_toKey? (h : v.toKey?.isSome) : form.shown v = v := by
  cases form with
  | withoutNulls => cases v <;> first | rfl | cases h
  | _ => rfl

theorem shownEntry_of_ne_null (f : Field) (h : v ≠ .null) :
    form.shownEntry (f, v) = some (f, form.shown v) := by
  cases form <;> cases v <;> first | rfl | exact absurd rfl h

theorem shown_ne_null (h : v ≠ .null) : form.shown v ≠ .null := by
  cases form with
  | withoutNulls => cases v <;> first | exact absurd rfl h | exact nofun
  | _ => exact h

/-- A null field is left out or stays as it is. -/
theorem shownEntry_null (form : Form) (f : Field) :
    form.shownEntry (f, .null) = none ∨ form.shownEntry (f, .null) = some (f, .null) := by
  cases form with
  | withoutNulls => exact .inl rfl
  | _ => exact .inr rfl

theorem fst_of_shownEntry {e e' : Field × Value} (h : form.shownEntry e = some e') :
    e'.1 = e.1 := by
  obtain ⟨f, v⟩ := e
  by_cases hv : v = .null
  · subst hv
    obtain hnone | hsome := shownEntry_null form f
    · rw [hnone] at h
      cases h
    · rw [hsome] at h
      cases h
      rfl
  · rw [shownEntry_of_ne_null f hv] at h
    cases h
    rfl

theorem fieldsWithoutNulls_labelled (entries : List (Field × Value)) :
    Value.fieldsWithoutNulls (labelled .plain entries) = Form.withoutNulls.fields entries := by
  induction entries with
  | nil => rfl
  | cons e es ih =>
    obtain ⟨f, v⟩ := e
    by_cases hv : v = .null
    · subst hv
      exact ih
    · have hfields : Form.withoutNulls.fields ((f, v) :: es) =
          ((f.label .plain : Key), v.withoutNulls) :: Form.withoutNulls.fields es := by
        unfold fields
        rw [List.filterMap_cons_some (shownEntry_of_ne_null f hv)]
        rfl
      rw [hfields, ← ih]
      show Value.fieldsWithoutNulls (((f.label .plain : Key), v) :: labelled .plain es) = _
      cases v <;> first | exact absurd rfl hv | rfl

/-- A model is an object in every form. -/
theorem shown_writeModel (form : Form) (entries : List (Field × Value)) :
    form.shown (writeModel form.naming entries) = .object (form.fields entries) := by
  have hself : ∀ form : Form, (∀ e, form.shownEntry e = some e) →
      Value.object (labelled form.naming entries) = .object (form.fields entries) := by
    intro form h
    rw [fields, List.filterMap_congr (g := some) fun e _ => h e, List.filterMap_some]
  cases form with
  | withoutNulls => exact congrArg Value.object (fieldsWithoutNulls_labelled entries)
  | plain => exact hself .plain fun e => rfl
  | preferred => exact hself .preferred fun e => rfl

end Form

namespace Legible

variable {entries : List (Field × Value)} {f : Field} {v : Value}

/-- Entries stay legible in every form. -/
protected theorem form (h : Legible entries) (form : Form) :
    Legible (entries.filterMap form.shownEntry) where
  name_mem e he := by
    obtain ⟨e', he', hshown⟩ := List.mem_filterMap.mp he
    rw [Form.fst_of_shownEntry hshown]
    exact h.name_mem e' he'
  disjoint := by
    refine h.disjoint.filterMap _ fun e e' hd a ha a' ha' => ?_
    rw [Form.fst_of_shownEntry ha, Form.fst_of_shownEntry ha']
    exact hd

/-- A field finds what a form makes of its value. -/
theorem find_form (h : Legible entries) (he : (f, v) ∈ entries) (hv : v ≠ .null) (form : Form) :
    f.find (form.fields entries) = some (f.label form.naming, form.shown v) :=
  (h.form form).find_labelled
    (List.mem_filterMap.mpr ⟨_, he, Form.shownEntry_of_ne_null f hv⟩) _

/-- A field whose value is null finds nothing or null. -/
theorem find_form_null (h : Legible entries) (he : (f, .null) ∈ entries) (form : Form) :
    f.find (form.fields entries) = none ∨
      f.find (form.fields entries) = some (f.label form.naming, .null) := by
  obtain hnone | hsome := form.shownEntry_null f
  · have hkeys : ∀ k ∈ f.keys, Fields.get? (form.fields entries) k = none := by
      intro k hk
      rw [Form.fields, get?_labelled, Option.map_eq_none_iff, List.find?_eq_none]
      rintro e hmem hlabel
      obtain ⟨e', he', hshown⟩ := List.mem_filterMap.mp hmem
      have hk' : k ∈ e.1.keys := of_decide_eq_true hlabel ▸ (h.form form).label_mem hmem _
      rw [Form.fst_of_shownEntry hshown] at hk'
      rw [h.eq_of_mem_keys he' he hk' hk, hnone] at hshown
      cases hshown
    left
    rw [Field.find, List.findSome?_eq_none_iff]
    intro k hk
    rw [hkeys k hk]
    rfl
  · exact .inr ((h.form form).find_labelled (List.mem_filterMap.mpr ⟨_, he, hsome⟩) _)

end Legible

/-! ## Stable checks -/

/-- Whatever a check has read, written in any form, it reads as the same value. What is written
is never null. -/
structure ReadsBack {α : Type} (read : Value → Checked α) (write : Naming → α → Value) : Prop where
  ne_null : ∀ naming a, write naming a ≠ .null
  again : ∀ {v a}, read v = ok a → ∀ form : Form, read (form.shown (write form.naming a)) = ok a

/-- Whatever a reader of objects has read, written in any form, it reads as the same. -/
def Restores {α : Type} (read : Fields → Checked α)
    (entries : Naming → α → List (Field × Value)) : Prop :=
  ∀ fields a, read fields = ok a → ∀ form : Form, read (form.fields (entries form.naming a)) = ok a

variable {α β : Type}

/-- A model whose fields are read again is read again. -/
theorem Restores.readsBack {read : Fields → Checked α}
    {entries : Naming → α → List (Field × Value)} (h : Restores read entries) (title : String) :
    ReadsBack (readModel title read) fun naming a => writeModel naming (entries naming a) where
  ne_null _ _ := nofun
  again hv form := by
    obtain ⟨fields, -, hread⟩ := readModel_eq_ok.mp hv
    rw [form.shown_writeModel]
    exact h _ _ hread form

theorem readOptional_of_ne_null (read : Value → Checked α) {v : Value} (h : v ≠ .null) :
    readOptional read v = some <$> read v := by
  cases v <;> first | exact absurd rfl h | rfl

theorem Restores.map {read : Fields → Checked α} {entries : Naming → α → List (Field × Value)}
    (h : Restores read entries) (g : α → β) {entries' : Naming → β → List (Field × Value)}
    (hg : ∀ naming a, entries' naming (g a) = entries naming a) :
    Restores (fun fields => g <$> read fields) entries' := by
  intro fields b hb form
  obtain ⟨a, hread, rfl⟩ := map_eq_ok.mp hb
  simp only [hg, h _ _ hread form, map_ok]

namespace ReadsBack

variable {read : Value → Checked α} {write : Naming → α → Value}

/-- It takes nothing more of a value without parts than that the check reads it. -/
theorem of_scalar {write : α → Value} (hw : ∀ a, (write a).toKey?.isSome ∧ write a ≠ .null)
    (h : ∀ {v a}, read v = ok a → read (write a) = ok a) : ReadsBack read fun _ => write where
  ne_null _ a := (hw a).2
  again hv form := by rw [Form.shown_of_toKey? (hw _).1, h hv]

/-- A test that changes nothing keeps a check stable. -/
theorem bind (h : ReadsBack read write) {test : α → Checked α}
    (htest : ∀ {a b}, test a = ok b → a = b) : ReadsBack (fun v => (read v).bind test) write where
  ne_null := h.ne_null
  again hv form := by
    obtain ⟨a, hread, ha⟩ := bind_eq_ok.mp hv
    obtain rfl := htest ha
    exact bind_eq_ok.mpr ⟨a, h.again hread form, ha⟩

variable {fields : Fields} {entries : List (Field × Value)} {f : Field} {form : Form} {a : α}
  {i : Nat}

theorem required (h : ReadsBack read write) (hentries : Legible entries)
    (he : entries[i]? = some (f, write form.naming a)) (ha : f.required read fields = ok a) :
    f.required read (form.fields entries) = ok a := by
  have hread : read (form.shown (write form.naming a)) = ok a :=
    Ensures.required (P := fun a => read (form.shown (write form.naming a)) = ok a)
      (fun _ _ hv => h.again hv form) f fields a ha
  rw [Field.required, hentries.find_form (List.mem_of_getElem? he) (h.ne_null _ _)]
  exact under_eq_ok.mpr hread

/-- A field with a default is read again if its default is what some value is read as. -/
theorem orElse (h : ReadsBack read write) {default : α} (hdefault : ∃ v, read v = ok default)
    (hentries : Legible entries) (he : entries[i]? = some (f, write form.naming a))
    (ha : f.orElse default read fields = ok a) :
    f.orElse default read (form.fields entries) = ok a := by
  obtain ⟨v, hv⟩ := hdefault
  have hread : read (form.shown (write form.naming a)) = ok a :=
    Ensures.orElse (P := fun a => read (form.shown (write form.naming a)) = ok a)
      (h.again hv form) (fun _ _ hv => h.again hv form) f fields a ha
  rw [Field.orElse, hentries.find_form (List.mem_of_getElem? he) (h.ne_null _ _)]
  exact under_eq_ok.mpr hread

/-- A field that may be null is read again, be it left out or not. -/
theorem optional (h : ReadsBack read write) (hentries : Legible entries) {o : Option α} {v : Value}
    (hv : v = o.elim .null (write form.naming)) (he : entries[i]? = some (f, v))
    (ho : f.orElse none (readOptional read) fields = ok o) :
    f.orElse none (readOptional read) (form.fields entries) = ok o := by
  subst hv
  cases o with
  | none =>
    obtain hnone | hnull := hentries.find_form_null (List.mem_of_getElem? he) form
    · rw [Field.orElse, hnone]
    · rw [Field.orElse, hnull]
      rfl
  | some a =>
    have hread : ∀ a' ∈ some a, read (form.shown (write form.naming a')) = ok a' :=
      Ensures.orElse (P := fun o => ∀ a ∈ o, read (form.shown (write form.naming a)) = ok a)
        (by simp) (Ensures.readOptional fun _ _ hv => h.again hv form) f fields (some a) ho
    have hnull := h.ne_null form.naming a
    rw [Field.orElse, hentries.find_form (List.mem_of_getElem? he) hnull]
    refine under_eq_ok.mpr ?_
    rw [Option.elim, readOptional_of_ne_null read (Form.shown_ne_null hnull), hread a rfl, map_ok]

end ReadsBack

/-! ## Checks of scalars -/

theorem readsBack_int : ReadsBack readInt fun _ => .int :=
  .of_scalar (fun _ => ⟨rfl, nofun⟩) fun _ => rfl

theorem readsBack_intFrom (least : Int) : ReadsBack (readIntFrom least) fun _ => .int :=
  readsBack_int.bind fun h => (atLeast_eq_ok.mp h).2

theorem readsBack_number : ReadsBack readNumber fun _ => .float :=
  .of_scalar (fun _ => ⟨rfl, nofun⟩) fun _ => rfl

theorem readsBack_price : ReadsBack readPrice fun _ => .float :=
  readsBack_number.bind fun h => (numberAtLeast_eq_ok.mp h).2

theorem readsBack_bool : ReadsBack readBool fun _ => .bool :=
  .of_scalar (fun _ => ⟨rfl, nofun⟩) fun _ => rfl

theorem readsBack_moment : ReadsBack readMoment fun _ => .moment :=
  .of_scalar (fun _ => ⟨rfl, nofun⟩) fun _ => rfl

theorem readsBack_text : ReadsBack readText fun _ => .text :=
  .of_scalar (fun _ => ⟨rfl, nofun⟩) fun _ => rfl

theorem readsBack_string : ReadsBack readString fun _ s => .text s :=
  .of_scalar (fun _ => ⟨rfl, nofun⟩) fun {_ s} _ =>
    bind_eq_ok.mpr ⟨s, rfl, by simp only [Text.toString?_ofString]⟩

theorem readsBack_nonEmptyString : ReadsBack readNonEmptyString fun _ s => .text s :=
  readsBack_string.bind fun {s s'} h => by
    split_ifs at h
    · cases h
    · exact Checked.ok.inj h

/-- A member is read under its name. -/
theorem readMember_of_lookup {members : List (String × α)} {name : String} {a : α}
    (h : members.lookup name = some a) (fault : Fault) :
    readMember fault members (.text name) = ok a := by
  unfold readMember
  simp only [Text.toString?_ofString, h]

theorem exists_lookup_of_readMember {fault : Fault} {members : List (String × α)} {v : Value}
    {a : α} (h : readMember fault members v = ok a) : ∃ s, members.lookup s = some a := by
  cases v with
  | text t =>
    simp only [readMember] at h
    split at h
    · cases h
    · next s _ =>
      split at h
      · next ha =>
        cases h
        exact ⟨s, ha⟩
      · cases h
  | _ => cases h

/-- A member that has been read is read under the name by which it is written, if that is one of
its names. -/
theorem readsBack_member {members : List (String × α)} {name : α → String}
    (hname : ∀ s a, members.lookup s = some a → members.lookup (name a) = some a) (fault : Fault) :
    ReadsBack (readMember fault members) fun _ a => .text (name a) :=
  .of_scalar (fun _ => ⟨rfl, nofun⟩) fun {_ a} h => by
    obtain ⟨s, hs⟩ := exists_lookup_of_readMember h
    exact readMember_of_lookup (hname s a hs) fault

end Schema

namespace Value

theorem ofDouble?_eq_elim (o : Option Double) : ofDouble? o = o.elim .null .float := by
  cases o <;> rfl

theorem ofInt?_eq_elim (o : Option Int) : ofInt? o = o.elim .null .int := by cases o <;> rfl

theorem ofText?_eq_elim (o : Option Text) : ofText? o = o.elim .null .text := by cases o <;> rfl

end Value

/-! ## Records of stocks and requests -/

namespace Stock

theorem momentValue_eq_elim (o : Option Moment) : momentValue o = o.elim .null .moment := by
  cases o <;> rfl

/-- A record that was read is read again from each of its written forms. -/
theorem restores : Restores readFields fun _ => entries := by
  intro fields s h form
  have hentries := s.legible_entries
  simp only [readFields, Checked.seq_eq_ok, Checked.map_eq_ok] at h
  simp only [readFields]
  obtain ⟨_, _, ⟨_, _, ⟨_, _, ⟨_, _, ⟨_, _, ⟨_, _, ⟨_, _, ⟨_, _, ⟨_, _, ⟨id, hid, rfl⟩, hsymbol,
    rfl⟩, hcompany, rfl⟩, ⟨current, hcurrent, rfl⟩, rfl⟩, ⟨previous, hprevious, rfl⟩, rfl⟩,
    ⟨volume, hvolume, rfl⟩, rfl⟩, hcap, rfl⟩, hsector, rfl⟩, hcreated, rfl⟩, hupdated, rfl⟩ := h
  rw [(readsBack_intFrom 1).required hentries (i := 0) rfl hid,
    readsBack_text.required hentries (i := 1) rfl hsymbol,
    readsBack_text.required hentries (i := 2) rfl hcompany,
    readsBack_price.optional hentries (i := 3) (Value.ofDouble?_eq_elim _) rfl hcurrent,
    readsBack_price.optional hentries (i := 4) (Value.ofDouble?_eq_elim _) rfl hprevious,
    (readsBack_intFrom 0).optional hentries (i := 5) (Value.ofInt?_eq_elim _) rfl hvolume,
    readsBack_price.optional hentries (i := 6) (Value.ofDouble?_eq_elim _) rfl hcap,
    readsBack_text.optional hentries (i := 7) (Value.ofText?_eq_elim _) rfl hsector,
    readsBack_moment.required hentries (i := 8) rfl hcreated,
    readsBack_moment.optional hentries (i := 9) (momentValue_eq_elim _) rfl hupdated]
  rfl

end Stock

namespace StockDetails

theorem legible_entries (d : StockDetails) : Legible d.entries :=
  .of_map_fst
    [Stock.symbolField, Stock.companyNameField, Stock.currentPriceField, Stock.previousPriceField,
      Stock.volumeField, Stock.marketCapField, Stock.sectorField]
    rfl (by decide) (by decide)

theorem restores : Restores readFields fun _ => entries := by
  intro fields d h form
  have hentries := d.legible_entries
  simp only [readFields, Checked.seq_eq_ok, Checked.map_eq_ok] at h
  simp only [readFields]
  obtain ⟨_, _, ⟨_, _, ⟨_, _, ⟨_, _, ⟨_, _, ⟨_, _, ⟨symbol, hsymbol, rfl⟩, hcompany, rfl⟩, hcurrent,
    rfl⟩, hprevious, rfl⟩, hvolume, rfl⟩, hcap, rfl⟩, hsector, rfl⟩ := h
  rw [readsBack_text.optional hentries (i := 0) (Value.ofText?_eq_elim _) rfl hsymbol,
    readsBack_text.optional hentries (i := 1) (Value.ofText?_eq_elim _) rfl hcompany,
    readsBack_price.optional hentries (i := 2) (Value.ofDouble?_eq_elim _) rfl hcurrent,
    readsBack_price.optional hentries (i := 3) (Value.ofDouble?_eq_elim _) rfl hprevious,
    (readsBack_intFrom 0).optional hentries (i := 4) (Value.ofInt?_eq_elim _) rfl hvolume,
    readsBack_price.optional hentries (i := 5) (Value.ofDouble?_eq_elim _) rfl hcap,
    readsBack_text.optional hentries (i := 6) (Value.ofText?_eq_elim _) rfl hsector]
  rfl

end StockDetails

namespace PriceUpdate

theorem legible_entries (p : PriceUpdate) : Legible p.entries :=
  .of_map_fst [Stock.newPriceField, Stock.volumeField] rfl (by decide) (by decide)

theorem restores : Restores readFields fun _ => entries := by
  intro fields p h form
  have hentries := p.legible_entries
  have hnumber : ReadsBack (fun v => (readNumber v).bind (numberAbove 0)) fun _ => .float :=
    readsBack_number.bind fun h => (numberAbove_eq_ok.mp h).2
  simp only [readFields, Checked.seq_eq_ok, Checked.map_eq_ok] at h
  simp only [readFields]
  obtain ⟨_, _, ⟨price, hprice, rfl⟩, hvolume, rfl⟩ := h
  rw [hnumber.required hentries (i := 0) rfl hprice,
    (readsBack_intFrom 0).optional hentries (i := 1) (Value.ofInt?_eq_elim _) rfl hvolume]
  rfl

end PriceUpdate

/-! ## Operands and rejections -/

namespace Operand

theorem legible_entries (naming : Naming) (o : Operand) : Legible (o.entries naming) := by
  cases o with
  | entity => exact .of_map_fst [kindField, valueField, contextField] rfl (by decide) (by decide)
  | symbol => exact .of_map_fst [kindField, valueField] rfl (by decide) (by decide)
  | creation details =>
    refine .of_map_fst [kindField, requestField] ?_ (by decide) (by decide)
    cases details <;> rfl
  | bulk => exact .of_map_fst [kindField] rfl (by decide) (by decide)

/-- The word that marks an operand is read from each of its written forms. -/
theorem kind_fields (o : Operand) (form : Form) :
    kindField.orElse () (readLiteral [(o.type.mark, ())]) (form.fields (o.entries form.naming)) =
      .ok () := by
  have hmark : ReadsBack (readLiteral [(o.type.mark, ())]) fun _ _ => .text o.type.mark :=
    readsBack_member (fun _ _ _ => List.lookup_cons_self) _
  have hempty : kindField.orElse () (readLiteral [(o.type.mark, ())]) [] = .ok () := rfl
  exact hmark.orElse ⟨_, readMember_of_lookup List.lookup_cons_self _⟩
    (o.legible_entries form.naming) (i := 0) rfl hempty

theorem restores (t : OperandType) : Restores (readFields t) entries := by
  intro fields o h form
  have hentries := o.legible_entries form.naming
  have hkind := o.kind_fields form
  cases t with
  | entity =>
    have hpurpose : ReadsBack (readChoice IdPurpose.members) fun _ p => .text p.name :=
      readsBack_member (fun _ p _ => IdPurpose.lookup_name p) _
    simp only [readFields, Checked.seq_eq_ok, Checked.map_eq_ok] at h ⊢
    obtain ⟨_, _, ⟨_, _, ⟨_, -, rfl⟩, hvalue, rfl⟩, hcontext, rfl⟩ := h
    exact ⟨_, _, ⟨_, _, ⟨_, hkind, rfl⟩,
      readsBack_int.optional hentries (i := 1) (Value.ofInt?_eq_elim _) rfl hvalue, rfl⟩,
      hpurpose.orElse ⟨.text "lookup", rfl⟩ hentries (i := 2) rfl hcontext, rfl⟩
  | symbol =>
    simp only [readFields, Checked.seq_eq_ok, Checked.map_eq_ok] at h ⊢
    obtain ⟨_, _, ⟨_, -, rfl⟩, hvalue, rfl⟩ := h
    exact ⟨_, _, ⟨_, hkind, rfl⟩,
      readsBack_text.optional hentries (i := 1) (Value.ofText?_eq_elim _) rfl hvalue, rfl⟩
  | creation =>
    have hdetails := StockDetails.restores.readsBack detailsTitle
    simp only [readFields, Checked.seq_eq_ok, Checked.map_eq_ok] at h ⊢
    obtain ⟨_, details, ⟨_, -, rfl⟩, hrequest, rfl⟩ := h
    have hentry : (entries form.naming (creation details))[1]? =
        some (requestField, details.elim .null fun d => writeModel form.naming d.entries) := by
      cases details <;> rfl
    exact ⟨_, _, ⟨_, hkind, rfl⟩, hdetails.optional hentries rfl hentry hrequest, rfl⟩
  | bulk =>
    simp only [readFields, Checked.map_eq_ok] at h ⊢
    obtain ⟨_, -, rfl⟩ := h
    exact ⟨_, hkind, rfl⟩

end Operand

namespace Rejection

theorem legible_entries (r : Rejection) : Legible r.entries :=
  .of_map_fst [stageRankField, stageNameField, failureField, messageField] rfl (by decide)
    (by decide)

theorem restores : Restores readFields fun _ => entries := by
  intro fields r h form
  have hentries := r.legible_entries
  have hfailure : ReadsBack (readChoice FailureKind.members) fun _ k => .text k.name :=
    readsBack_member (fun _ k _ => FailureKind.lookup_name k) _
  simp only [readFields, Checked.seq_eq_ok, Checked.map_eq_ok] at h
  simp only [readFields]
  obtain ⟨_, _, ⟨_, _, ⟨_, _, ⟨rank, hrank, rfl⟩, hname, rfl⟩, hkind, rfl⟩, hmessage, rfl⟩ := h
  rw [(readsBack_intFrom 1).required hentries (i := 0) rfl hrank,
    readsBack_text.required hentries (i := 1) rfl hname,
    hfailure.required hentries (i := 2) rfl hkind,
    readsBack_text.required hentries (i := 3) rfl hmessage]
  rfl

end Rejection

/-! ## Settings -/

namespace Sentinels

theorem legible_entries (s : Sentinels) : Legible s.entries :=
  .of_map_fst
    [pennyIdField, updateIdField, priceUpdateIdField, deleteIdField, pennySymbolField,
      testSymbolField]
    rfl (by decide) (by decide)

theorem restores : Restores readFields fun _ => entries := by
  intro fields s h form
  have hentries := s.legible_entries
  have hid := readsBack_intFrom 1
  have hsymbol := readsBack_nonEmptyString
  have hpennyText : readNonEmptyString (.text "PENNY") = .ok "PENNY" := rfl
  have htestText : readNonEmptyString (.text "TEST") = .ok "TEST" := rfl
  simp only [readFields, Checked.seq_eq_ok, Checked.map_eq_ok] at h
  simp only [readFields]
  obtain ⟨_, _, ⟨_, _, ⟨_, _, ⟨_, _, ⟨_, _, ⟨penny, hpenny, rfl⟩, hupdate, rfl⟩, hprice, rfl⟩,
    hdelete, rfl⟩, hpennySymbol, rfl⟩, htest, rfl⟩ := h
  rw [hid.orElse ⟨.int 999, rfl⟩ hentries (i := 0) rfl hpenny,
    hid.orElse ⟨.int 888, rfl⟩ hentries (i := 1) rfl hupdate,
    hid.orElse ⟨.int 777, rfl⟩ hentries (i := 2) rfl hprice,
    hid.orElse ⟨.int 666, rfl⟩ hentries (i := 3) rfl hdelete,
    hsymbol.orElse ⟨_, hpennyText⟩ hentries (i := 4) rfl hpennySymbol,
    hsymbol.orElse ⟨_, htestText⟩ hentries (i := 5) rfl htest]
  rfl

end Sentinels

namespace AssessmentSettings

theorem legible_entries (naming : Naming) (s : AssessmentSettings) : Legible (s.entries naming) :=
  .of_map_fst [probabilityField, seedField, sentinelsField] rfl (by decide) (by decide)

theorem restores : Restores readFields entries := by
  intro fields s h form
  have hentries := s.legible_entries form.naming
  have hprobability : ReadsBack readProbability fun _ => .float :=
    (readsBack_number.bind fun h => (numberAtMost_eq_ok.mp h).2).bind fun h =>
      (numberAtLeast_eq_ok.mp h).2
  have hdefault :
      readProbability (.float ({} : AssessmentSettings).bulkFailureProbability) = .ok _ :=
    readProbability_eq_ok_iff.mpr ⟨rfl, isProbability_default⟩
  have hsentinels := Sentinels.restores.readsBack Sentinels.modelTitle
  simp only [readFields, Checked.seq_eq_ok, Checked.map_eq_ok] at h
  simp only [readFields]
  obtain ⟨_, _, ⟨_, _, ⟨p, hp, rfl⟩, hseed, rfl⟩, hnested, rfl⟩ := h
  rw [hprobability.orElse ⟨.float _, hdefault⟩ hentries (i := 0) rfl hp,
    readsBack_int.optional hentries (i := 1) (Value.ofInt?_eq_elim _) rfl hseed,
    hsentinels.orElse ⟨.object [], rfl⟩ hentries (i := 2) rfl hnested]
  rfl

end AssessmentSettings

namespace WebSettings

theorem legible_entries (s : WebSettings) : Legible s.entries :=
  .of_map_fst [titleField, hostField, portField, topCountField] rfl (by decide) (by decide)

theorem restores : Restores readFields fun _ => entries := by
  intro fields s h form
  have hentries := s.legible_entries
  have hport : ReadsBack (fun v => ((readInt v).bind (atMost 65535)).bind (atLeast 1))
      fun _ => .int :=
    (readsBack_int.bind fun h => (atMost_eq_ok.mp h).2).bind fun h => (atLeast_eq_ok.mp h).2
  simp only [readFields, Checked.seq_eq_ok, Checked.map_eq_ok] at h
  simp only [readFields]
  obtain ⟨_, _, ⟨_, _, ⟨_, _, ⟨title, htitle, rfl⟩, hhost, rfl⟩, hnumber, rfl⟩, hcount, rfl⟩ := h
  rw [readsBack_text.orElse ⟨.text _, rfl⟩ hentries (i := 0) rfl htitle,
    readsBack_text.orElse ⟨.text _, rfl⟩ hentries (i := 1) rfl hhost,
    hport.orElse ⟨.int 8000, rfl⟩ hentries (i := 2) rfl hnumber,
    (readsBack_intFrom 1).orElse ⟨.int 10, rfl⟩ hentries (i := 3) rfl hcount]
  rfl

end WebSettings

namespace LogSettings

/-- A level that can be set is written under the name by which it is set. -/
theorem lookup_settingName (s : String) (level : LogLevel)
    (h : LogLevel.settings.lookup s = some level) :
    LogLevel.settings.lookup level.settingName = some level := by
  cases level with
  | critical =>
    obtain ⟨l₁, l₂, hlevels, -⟩ := List.lookup_eq_some_iff.mp h
    have hmem : (s, LogLevel.critical) ∈ LogLevel.settings := by
      rw [hlevels]
      exact List.mem_append_right _ List.mem_cons_self
    simp [LogLevel.settings] at hmem
  | _ => rfl

theorem legible_entries (s : LogSettings) : Legible s.entries :=
  .of_map_fst [levelField, useJsonField] rfl (by decide) (by decide)

theorem restores : Restores readFields fun _ => entries := by
  intro fields s h form
  have hentries := s.legible_entries
  have hlevel : ReadsBack (readLiteral LogLevel.settings) fun _ l => .text l.settingName :=
    readsBack_member lookup_settingName _
  simp only [readFields, Checked.seq_eq_ok, Checked.map_eq_ok] at h
  simp only [readFields]
  obtain ⟨_, _, ⟨level, hname, rfl⟩, hjson, rfl⟩ := h
  rw [hlevel.orElse ⟨.text "INFO", rfl⟩ hentries (i := 0) rfl hname,
    readsBack_bool.orElse ⟨.bool false, rfl⟩ hentries (i := 1) rfl hjson]
  rfl

end LogSettings

namespace StorageSettings

theorem legible_entries (s : StorageSettings) : Legible s.entries :=
  .of_map_fst [seedFileField] rfl (by decide) (by decide)

theorem restores : Restores readFields fun _ => entries := by
  intro fields s h form
  have hentries := s.legible_entries
  simp only [readFields, Checked.map_eq_ok] at h
  simp only [readFields]
  obtain ⟨file, hfile, rfl⟩ := h
  rw [readsBack_text.optional hentries (i := 0) (Value.ofText?_eq_elim _) rfl hfile]
  rfl

end StorageSettings

namespace Settings

theorem legible_entries (naming : Naming) (s : Settings) : Legible (s.entries naming) :=
  .of_map_fst [versionField, assessmentField, webField, logField, storageField] rfl (by decide)
    (by decide)

theorem restores : Restores readFields entries := by
  intro fields s h form
  have hentries := s.legible_entries form.naming
  have hassessment := AssessmentSettings.restores.readsBack AssessmentSettings.modelTitle
  have hweb := WebSettings.restores.readsBack WebSettings.modelTitle
  have hlog := LogSettings.restores.readsBack LogSettings.modelTitle
  have hstorage := StorageSettings.restores.readsBack StorageSettings.modelTitle
  simp only [readFields, Checked.seq_eq_ok, Checked.map_eq_ok] at h
  simp only [readFields]
  obtain ⟨_, _, ⟨_, _, ⟨_, _, ⟨_, _, ⟨version, hversion, rfl⟩, ha, rfl⟩, hw, rfl⟩, hl, rfl⟩, hs,
    rfl⟩ := h
  rw [readsBack_text.orElse ⟨.text _, rfl⟩ hentries (i := 0) rfl hversion,
    hassessment.orElse ⟨.object [], rfl⟩ hentries (i := 1) rfl ha,
    hweb.orElse ⟨.object [], rfl⟩ hentries (i := 2) rfl hw,
    hlog.orElse ⟨.object [], rfl⟩ hentries (i := 3) rfl hl,
    hstorage.orElse ⟨.object [], rfl⟩ hentries (i := 4) rfl hs]
  rfl

end Settings

/-! ## All models -/

/-- Whatever the fields of a model were read as, they are read as the same again. -/
theorem Model.restores (m : Model) : Restores m.readFields Record.entries := by
  cases m with
  | stock => exact Stock.restores.map _ fun _ _ => rfl
  | createRequest => exact StockDetails.restores.map _ fun _ _ => rfl
  | updateRequest => exact StockDetails.restores.map _ fun _ _ => rfl
  | priceUpdate => exact PriceUpdate.restores.map _ fun _ _ => rfl
  | operand type => exact (Operand.restores type).map _ fun _ _ => rfl
  | proceed => exact fun _ _ h _ => h
  | rejection => exact Rejection.restores.map _ fun _ _ => rfl
  | sentinels => exact Sentinels.restores.map _ fun _ _ => rfl
  | assessment => exact AssessmentSettings.restores.map _ fun _ _ => rfl
  | web => exact WebSettings.restores.map _ fun _ _ => rfl
  | log => exact LogSettings.restores.map _ fun _ _ => rfl
  | storage => exact StorageSettings.restores.map _ fun _ _ => rfl
  | settings => exact Settings.restores.map _ fun _ _ => rfl

/-- A record that its model reads again from each of its three written forms. A price update is
written with its price under either name. -/
structure Model.ReadsAgain (m : Model) (r : Record) : Prop where
  plain : m.read r.written.plain = .ok r
  preferred : m.read r.written.preferred = .ok r
  withoutNulls : m.read r.written.withoutNulls = .ok r
  price_names : ∀ p, r = .priceUpdate p →
    r.written.plain = .object [("new_price", .float p.newPrice), ("volume", .ofInt? p.volume)] ∧
    r.written.preferred = .object [("newPrice", .float p.newPrice), ("volume", .ofInt? p.volume)]

/-- Every model reads again, and as the same record, whatever it has once read. -/
theorem Model.readsAgain_of_read {m : Model} {v : Value} {r : Record} (h : m.read v = .ok r) :
    m.ReadsAgain r := by
  have hread := m.restores.readsBack m.title
  refine ⟨hread.again h .plain, hread.again h .preferred, hread.again h .withoutNulls, ?_⟩
  rintro p rfl
  exact ⟨rfl, rfl⟩

/-- A price in a text under the third of its keys, with a truth value for the volume. -/
theorem Model.readsAgain_of_text_price :
    Model.priceUpdate.read
        (.object [("currentPrice", .text "12.5"), ("volume", .bool true)]) =
      .ok (.priceUpdate ⟨Double.ofDecimal false 125 (-1), some 1⟩) ∧
    Model.priceUpdate.ReadsAgain
      (.priceUpdate ⟨Double.ofDecimal false 125 (-1), some 1⟩) := by
  have h : Model.priceUpdate.read
      (.object [("currentPrice", .text "12.5"), ("volume", .bool true)]) =
        .ok (.priceUpdate ⟨Double.ofDecimal false 125 (-1), some 1⟩) := rfl
  exact ⟨h, readsAgain_of_read h⟩

end StockRegister
