import Mathlib.Data.List.Nodup
import StockRegister.Model
import StockRegister.Proofs.Merging

/-!
# Spellings of fields

An object may hold a field under any of its keys, and the first key that is there decides
(`Schema.Field.find`). So a reader that is put together from readers of fields knows an object only
by what decides in each field, and by the key only in the ways to its problems (`ReadsBy`).

From this the same laws follow for every model (`Model.SpellingLaws`) : a key may be exchanged for
another spelling of its field if the object has no two spellings then (`Respells`), the keys behind
the deciding one are not looked at, and neither are keys of no field and the order of the keys.
`Model.spellings_never_matter` says this of records and of all requests.
-/

namespace StockRegister

namespace Schema

open Checked

/-! ## Problems of a result -/

namespace Checked

variable {α β : Type}

/-- The result, or the kinds of the problems that stand in its way. -/
def faults : Checked α → Except (List Fault) α
  | ok a => .ok a
  | bad ps => .error (ps.map Problem.fault)

/-- The problems with the field that was found under a key. -/
def problemsAt (k : String) : Checked α → List Problem
  | ok _ => []
  | bad ps => ps.filter fun p => p.path.head? == some (.name k)

theorem faults_map_congr (g : α → β) {c c' : Checked α} (h : c.faults = c'.faults) :
    (g <$> c).faults = (g <$> c').faults := by
  cases c <;> cases c' <;> simp_all [faults]

theorem faults_seq_congr {g g' : Checked (α → β)} {c c' : Checked α} (hg : g.faults = g'.faults)
    (hc : c.faults = c'.faults) : (g <*> c).faults = (g' <*> c').faults := by
  show (apply g c).faults = (apply g' c').faults
  cases g <;> cases g' <;> cases c <;> cases c' <;> simp_all [faults, apply]

theorem faults_under (s s' : Step) (c : Checked α) : (c.under s).faults = (c.under s').faults := by
  cases c with
  | ok a => rfl
  | bad ps => simp [under, faults, Problem.under]

theorem problemsAt_map (k : String) (g : α → β) (c : Checked α) :
    (g <$> c).problemsAt k = c.problemsAt k := by
  cases c <;> rfl

theorem problemsAt_seq (k : String) (g : Checked (α → β)) (c : Checked α) :
    (g <*> c).problemsAt k = g.problemsAt k ++ c.problemsAt k := by
  show (apply g c).problemsAt k = _
  cases g <;> cases c <;> simp [problemsAt, apply]

theorem problemsAt_under {k l : String} (h : l ≠ k) (c : Checked α) :
    (c.under (.name l)).problemsAt k = [] := by
  cases c with
  | ok a => rfl
  | bad ps => simp [under, problemsAt, Problem.under, h]

end Checked

/-! ## What decides in a field -/

namespace Field

/-- A key is one of those of a field. -/
def Spells (f : Field) (k : Key) : Prop := ∃ s ∈ f.keys, k = (s : Key)

/-- The value that decides in a field. -/
def value? (f : Field) (o : Fields) : Option Value := (f.find o).map Prod.snd

variable {f : Field} {o o' : Fields}

theorem find_mem_keys {k : String} {v : Value} (h : f.find o = some (k, v)) : k ∈ f.keys := by
  obtain ⟨l, hl, hget⟩ := List.exists_of_findSome?_eq_some h
  obtain ⟨_, -, heq⟩ := Option.map_eq_some_iff.mp hget
  obtain ⟨rfl, -⟩ := Prod.mk.inj heq
  exact hl

/-- The first of the keys of a field that is there decides. -/
theorem find_eq_some {before after : List String} {k : String} {v : Value}
    (hkeys : f.keys = before ++ k :: after) (hbefore : ∀ l ∈ before, o.get? (l : Key) = none)
    (hget : o.get? (k : Key) = some v) : f.find o = some (k, v) := by
  have hnone : (before.findSome? fun (l : String) => (o.get? l).map fun v => (l, v)) = none :=
    List.findSome?_eq_none_iff.mpr fun l hl => by rw [hbefore l hl, Option.map_none]
  rw [find, hkeys, List.findSome?_append, hnone, Option.none_or, List.findSome?_cons, hget]
  rfl

theorem find_congr (h : ∀ k ∈ f.keys, o.get? (k : Key) = o'.get? (k : Key)) :
    f.find o = f.find o' := by
  unfold find
  generalize f.keys = keys at h ⊢
  induction keys with
  | nil => rfl
  | cons k ks ih =>
    rw [List.findSome?_cons, List.findSome?_cons, h k List.mem_cons_self,
      ih fun k hk => h k (List.mem_cons_of_mem _ hk)]

/-- A field that an object spells in one way only has the value of this key. -/
theorem value?_of_one_key {l : String} (hl : l ∈ f.keys)
    (hone : ∀ e ∈ o, f.Spells e.1 → e.1 = (l : Key)) : f.value? o = o.get? (l : Key) := by
  have hother (k : String) (hk : k ∈ f.keys) (hne : k ≠ l) : o.get? (k : Key) = none := by
    refine Fields.get?_eq_none_iff.mpr fun e he => Bool.eq_false_iff.mpr fun hsame => hne ?_
    have hkey := Key.same_text_iff.mp hsame
    have heq := hone e he ⟨k, hk, hkey⟩
    rw [hkey, Key.text.injEq] at heq
    exact Text.ofString_inj.mp heq
  obtain ⟨before, after, hkeys, hnot⟩ := List.eq_append_cons_of_mem hl
  have hbefore (k : String) (hk : k ∈ before) : o.get? (k : Key) = none :=
    hother k (by simp [hkeys, hk]) fun heq => hnot (heq ▸ hk)
  cases hget : o.get? (l : Key) with
  | some v => rw [value?, find_eq_some hkeys hbefore hget, Option.map_some]
  | none =>
    have hnone : f.find o = none := List.findSome?_eq_none_iff.mpr fun k hk => by
      by_cases heq : k = l
      · rw [heq, hget, Option.map_none]
      · rw [hother k hk heq, Option.map_none]
    rw [value?, hnone, Option.map_none]

section Distinct

variable {fs : List Field} (hfs : (fs.flatMap keys).Nodup)

include hfs

/-- No two fields share a key if no key is there twice. -/
theorem eq_of_mem_keys {f g : Field} (hf : f ∈ fs) (hg : g ∈ fs) {k : String} (hk : k ∈ f.keys)
    (hk' : k ∈ g.keys) : f = g := by
  have hdisjoint := (List.nodup_flatMap.mp hfs).2
  have : Std.Symm (Function.onFun List.Disjoint keys) := ⟨fun _ _ hd _ hk hk' => hd hk' hk⟩
  by_contra hne
  exact hdisjoint.forall hf hg hne hk hk'

theorem eq_of_spells {f g : Field} (hf : f ∈ fs) (hg : g ∈ fs) {k : Key} (hk : f.Spells k)
    (hk' : g.Spells k) : f = g := by
  obtain ⟨s, hs, rfl⟩ := hk
  obtain ⟨s', hs', heq⟩ := hk'
  obtain rfl := Text.ofString_inj.mp (Key.text.inj heq)
  exact eq_of_mem_keys hfs hf hg hs hs'

/-- No key of a field stands both before and after another. -/
theorem not_mem_after {f : Field} (hf : f ∈ fs) {before after : List String} {k : String}
    (hkeys : f.keys = before ++ k :: after) :
    k ∉ before ∧ k ∉ after ∧ ∀ l ∈ before, l ∉ after := by
  have hnodup := (List.nodup_flatMap.mp hfs).1 f hf
  rw [hkeys, List.nodup_append, List.nodup_cons] at hnodup
  obtain ⟨-, ⟨hafter, -⟩, hbefore⟩ := hnodup
  exact ⟨fun hk => hbefore k hk k List.mem_cons_self rfl, hafter,
    fun l hl hl' => hbefore l hl l (List.mem_cons_of_mem _ hl') rfl⟩

end Distinct

end Field

/-! ## Reading by fields -/

/-- A reader knows an object by what decides in the given fields, and by the key only in the ways
to its problems. -/
structure ReadsBy {α : Type} (fs : List Field) (read : Fields → Checked α) : Prop where
  find : ∀ {o o' : Fields}, (∀ f ∈ fs, f.find o = f.find o') → read o = read o'
  value : ∀ {o o' : Fields}, (∀ f ∈ fs, f.value? o = f.value? o') →
    (read o).faults = (read o').faults
  /-- The problems under a key are those of the fields that have it. -/
  problems : ∀ {o o' : Fields} {k : String}, (∀ f ∈ fs, k ∈ f.keys → f.find o = f.find o') →
    (read o).problemsAt k = (read o').problemsAt k

namespace ReadsBy

variable {α β : Type} {fs : List Field}

/-- A reader of one field. -/
theorem of_find {f : Field} (hf : f ∈ fs) {read : Fields → Checked α} (absent : Checked α)
    {check : Value → Checked α} (habsent : ∀ k ∉ f.keys, absent.problemsAt k = [])
    (hread : ∀ o, read o = match f.find o with
      | some (k, v) => (check v).under (.name k)
      | none => absent) : ReadsBy fs read := by
  refine ⟨fun h => ?find, fun {o o'} h => ?value, fun {o o' k} h => ?problems⟩
  case find => rw [hread, hread, h f hf]
  case value =>
    have hvalue := h f hf
    rw [hread, hread]
    unfold Field.value? at hvalue
    cases hfind : f.find o <;> cases hfind' : f.find o' <;> rw [hfind, hfind'] at hvalue
    case none.some => cases hvalue
    case some.none => cases hvalue
    case some.some e e' =>
      have hsame : e.2 = e'.2 := Option.some.inj hvalue
      show ((check e.2).under (.name e.1)).faults = ((check e'.2).under (.name e'.1)).faults
      rw [hsame]
      exact faults_under _ _ _
  case problems =>
    by_cases hk : k ∈ f.keys
    · rw [hread, hread, h f hf hk]
    · have hnil (o : Fields) : (read o).problemsAt k = [] := by
        rw [hread]
        split
        · next l v hfind =>
          refine problemsAt_under ?_ _
          rintro rfl
          exact hk (Field.find_mem_keys hfind)
        · exact habsent k hk
      rw [hnil, hnil]

theorem orElse {f : Field} (hf : f ∈ fs) (default : α) (check : Value → Checked α) :
    ReadsBy fs (f.orElse default check) :=
  of_find hf (ok default) (fun _ _ => rfl) fun _ => rfl

theorem required {f : Field} (hf : f ∈ fs) (check : Value → Checked α) :
    ReadsBy fs (f.required check) := by
  refine of_find hf (bad [⟨.missing, [.name f.key]⟩]) (fun k hk => ?_) fun _ => rfl
  have hne : f.key ≠ k := fun h => hk (h ▸ List.mem_cons_self)
  simp [problemsAt, hne]

theorem map {read : Fields → Checked α} (h : ReadsBy fs read) (g : α → β) :
    ReadsBy fs fun o => g <$> read o where
  find hfind := by rw [h.find hfind]
  value hvalue := faults_map_congr g (h.value hvalue)
  problems hfind := by rw [problemsAt_map, problemsAt_map, h.problems hfind]

theorem seq {first : Fields → Checked (α → β)} {second : Fields → Checked α}
    (h : ReadsBy fs first) (h' : ReadsBy fs second) :
    ReadsBy fs fun o => first o <*> second o where
  find hfind := by rw [h.find hfind, h'.find hfind]
  value hvalue := faults_seq_congr (h.value hvalue) (h'.value hvalue)
  problems hfind := by rw [problemsAt_seq, problemsAt_seq, h.problems hfind, h'.problems hfind]

end ReadsBy

/-! ## Renaming keys -/

/-- Renaming the keys of an object goes from one spelling of a field to another, and leaves the keys
of a field that is there in two spellings. -/
structure Respells (fs : List Field) (rename : Key → Key) (o : Fields) : Prop where
  spelling : ∀ e ∈ o, rename e.1 = e.1 ∨ ∃ f ∈ fs, f.Spells e.1 ∧ f.Spells (rename e.1)
  single : ∀ e ∈ o, ∀ e' ∈ o, ∀ f ∈ fs, f.Spells e.1 → f.Spells e'.1 → e.1 ≠ e'.1 →
    rename e.1 = e.1

/-- The renaming of one key. -/
def renameKey (old new : String) (k : Key) : Key := if k = (old : Key) then (new : Key) else k

/-- An object with its keys renamed. -/
def respell (rename : Key → Key) (o : Fields) : Fields := o.map fun e => (rename e.1, e.2)

theorem get?_respell {rename : Key → Key} {o : Fields} {k l : Key}
    (h : ∀ e ∈ o, (rename e.1).same l = e.1.same k) :
    Fields.get? (respell rename o) l = o.get? k := by
  induction o with
  | nil => rfl
  | cons e o ih =>
    have hrest := ih fun e he => h e (List.mem_cons_of_mem _ he)
    unfold respell at hrest ⊢
    rw [List.map_cons, Fields.get?_cons, Fields.get?_cons, h e List.mem_cons_self, hrest]

namespace Respells

variable {fs : List Field} {rename : Key → Key} {o : Fields} (h : Respells fs rename o)
  (hfs : (fs.flatMap Field.keys).Nodup) {f : Field} (hf : f ∈ fs)

include h hfs hf

/-- A key that is one of a field stays one of this field, and no other key becomes one. -/
theorem spells_iff {e : Key × Value} (he : e ∈ o) : f.Spells (rename e.1) ↔ f.Spells e.1 := by
  rcases h.spelling e he with heq | ⟨g, hg, hold, hnew⟩
  · rw [heq]
  · constructor
    · intro hf'
      obtain rfl := Field.eq_of_spells hfs hf hg hf' hnew
      exact hold
    · intro hf'
      obtain rfl := Field.eq_of_spells hfs hf hg hf' hold
      exact hnew

/-- A field of which no key is renamed is found as before, since no other key becomes one. -/
theorem find_of_kept (hkept : ∀ e ∈ o, f.Spells e.1 → rename e.1 = e.1) :
    f.find (respell rename o) = f.find o := by
  refine Field.find_congr fun k hk => get?_respell fun e he => ?_
  by_cases hkey : f.Spells e.1
  · rw [hkept e he hkey]
  · have hne {k' : Key} (hk' : ¬f.Spells k') : k'.same (k : Key) = false :=
      Bool.eq_false_iff.mpr fun hsame => hk' ⟨k, hk, Key.same_text_iff.mp hsame⟩
    rw [hne hkey, hne (mt (h.spells_iff hfs hf he).mp hkey)]

/-- A field of which a key is renamed is spelled in this way only, and has the same value under the
other key. -/
theorem value?_of_moved {e : Key × Value} (he : e ∈ o) (hold : f.Spells e.1)
    (hmoved : rename e.1 ≠ e.1) : f.value? (respell rename o) = f.value? o := by
  have hone {e' : Key × Value} (he' : e' ∈ o) (hkey : f.Spells e'.1) : e'.1 = e.1 := by
    by_contra hne
    exact hmoved (h.single e he e' he' f hf hold hkey fun heq => hne heq.symm)
  obtain ⟨l', hl', hkey'⟩ := (h.spells_iff hfs hf he).mpr hold
  obtain ⟨l, hl, hkey⟩ := hold
  have hone' : ∀ e' ∈ respell rename o, f.Spells e'.1 → e'.1 = (l' : Key) := by
    rintro _ hmem hspelt
    obtain ⟨e', he', rfl⟩ := List.mem_map.mp hmem
    show rename e'.1 = _
    rw [hone he' ((h.spells_iff hfs hf he').mp hspelt), hkey']
  rw [Field.value?_of_one_key hl fun e' he' hspelt => (hone he' hspelt).trans hkey,
    Field.value?_of_one_key hl' hone']
  refine get?_respell fun e' he' => ?_
  rw [Bool.eq_iff_iff, Key.same_text_iff, Key.same_text_iff]
  constructor
  · intro heq
    rw [hone he' ((h.spells_iff hfs hf he').mp ⟨l', hl', heq⟩), hkey]
  · intro heq
    rw [heq, ← hkey, hkey']

/-- Renaming keys leaves the value that decides in a field. -/
theorem value?_eq : f.value? (respell rename o) = f.value? o := by
  by_cases hkept : ∀ e ∈ o, f.Spells e.1 → rename e.1 = e.1
  · rw [Field.value?, h.find_of_kept hfs hf hkept, Field.value?]
  · obtain ⟨e, he, hold, hmoved⟩ : ∃ e ∈ o, f.Spells e.1 ∧ rename e.1 ≠ e.1 := by
      simpa using hkept
    exact h.value?_of_moved hfs hf he hold hmoved

end Respells

end Schema

/-! ## The order of the keys -/

namespace Fields

theorem get?_perm_of_unique {o o' : Fields} (h : o.Perm o') {l : Key}
    (hunique : o.Pairwise fun e e' => e.1.same l → e'.1.same l = false) :
    o.get? l = o'.get? l := by
  induction h with
  | nil => rfl
  | cons e _ ih => rw [get?_cons, get?_cons, ih (List.pairwise_cons.mp hunique).2]
  | swap e e' o =>
    have hboth := (List.pairwise_cons.mp hunique).1 e List.mem_cons_self
    rw [get?_cons, get?_cons, get?_cons, get?_cons]
    by_cases he : e'.1.same l
    · simp [he, hboth he]
    · simp [he]
  | trans h _ ih ih' =>
    have hsymm : ∀ e e' : Key × Value, (e.1.same l → e'.1.same l = false) →
        e'.1.same l → e.1.same l = false := fun e e' hd he' => by
      by_contra he
      rw [hd (by simpa using he)] at he'
      cases he'
    rw [ih hunique, ih' (h.pairwise hunique fun {_ _} => hsymm _ _)]

/-- The order of the keys of an object does not matter to what it has under a name. -/
theorem get?_perm {o o' : Fields} (h : o.Perm o') (hkeyed : Value.fieldsAreKeyed o) (t : Text) :
    o.get? (.text t) = o'.get? (.text t) :=
  get?_perm_of_unique h (unique_of_keyed hkeyed t)

end Fields

/-! ## Models -/

namespace Schema.Field

/-- The value that decides in a field, or null if the field is left out. -/
def given (f : Field) (o : Fields) : Value := (f.value? o).getD .null

variable {α : Type} {f : Field} {check : Value → Checked α}

theorem given_eq {before after : List String} {k : String} {o : Fields} {v : Value}
    (hkeys : f.keys = before ++ k :: after) (hbefore : ∀ l ∈ before, o.get? (l : Key) = none)
    (hget : o.get? (k : Key) = some v) : f.given o = v := by
  rw [given, value?, find_eq_some hkeys hbefore hget]
  rfl

/-- Null is as good as nothing in a field that may be left out. -/
theorem orElse_eq_ok {o : Fields} {x : Option α} :
    f.orElse none (readOptional check) o = .ok x ↔ readOptional check (f.given o) = .ok x := by
  unfold orElse given value?
  cases f.find o with
  | none => rfl
  | some e => exact Checked.under_eq_ok

/-- Null is as bad as nothing in a field whose check refuses it. -/
theorem required_eq_ok (hnull : ∀ a, check .null ≠ .ok a) {o : Fields} {x : α} :
    f.required check o = .ok x ↔ check (f.given o) = .ok x := by
  unfold required given value?
  cases f.find o with
  | none => exact ⟨fun h => (nomatch h), fun h => absurd h (hnull x)⟩
  | some e => exact Checked.under_eq_ok

end Schema.Field

open Schema

namespace StockDetails

/-- The fields that the details of a request are read from. -/
def fields : List Field :=
  [Stock.symbolField, Stock.companyNameField, Stock.currentPriceField, Stock.previousPriceField,
    Stock.volumeField, Stock.marketCapField, Stock.sectorField]

theorem readsBy : ReadsBy fields StockDetails.readFields := by
  unfold StockDetails.readFields
  refine .seq (.seq (.seq (.seq (.seq (.seq (.map ?_ _) ?_) ?_) ?_) ?_) ?_) ?_
  all_goals exact .orElse (by simp [fields]) _ _

/-- Details are what is read of the deciding values. -/
structure GivenBy (d : StockDetails) (o : Fields) : Prop where
  symbol : readOptional readText (Stock.symbolField.given o) = .ok d.symbol
  companyName : readOptional readText (Stock.companyNameField.given o) = .ok d.companyName
  currentPrice : readOptional readPrice (Stock.currentPriceField.given o) = .ok d.currentPrice
  previousPrice : readOptional readPrice (Stock.previousPriceField.given o) = .ok d.previousPrice
  volume : readOptional (readIntFrom 0) (Stock.volumeField.given o) = .ok d.volume
  marketCap : readOptional readPrice (Stock.marketCapField.given o) = .ok d.marketCap
  sector : readOptional readText (Stock.sectorField.given o) = .ok d.sector

theorem readFields_eq_ok {d : StockDetails} {o : Fields} :
    StockDetails.readFields o = .ok d ↔ d.GivenBy o := by
  unfold StockDetails.readFields
  simp only [Checked.seq_eq_ok, Checked.map_eq_ok, Field.orElse_eq_ok]
  constructor
  · rintro ⟨_, _, ⟨_, _, ⟨_, _, ⟨_, _, ⟨_, _, ⟨_, _, ⟨_, hsymbol, rfl⟩, hname, rfl⟩, hcurrent, rfl⟩,
      hprevious, rfl⟩, hvolume, rfl⟩, hcap, rfl⟩, hsector, rfl⟩
    exact ⟨hsymbol, hname, hcurrent, hprevious, hvolume, hcap, hsector⟩
  · intro h
    exact ⟨_, _, ⟨_, _, ⟨_, _, ⟨_, _, ⟨_, _, ⟨_, _, ⟨_, h.symbol, rfl⟩, h.companyName, rfl⟩,
      h.currentPrice, rfl⟩, h.previousPrice, rfl⟩, h.volume, rfl⟩, h.marketCap, rfl⟩, h.sector, rfl⟩

end StockDetails

namespace Stock

/-- The fields that a record is read from. -/
def fields : List Field :=
  [idField, symbolField, companyNameField, currentPriceField, previousPriceField, volumeField,
    marketCapField, sectorField, createdAtField, updatedAtField]

theorem readsBy : ReadsBy fields Stock.readFields := by
  unfold Stock.readFields
  refine .seq (.seq (.seq (.seq (.seq (.seq (.seq (.seq (.seq (.map (.required ?_ _) _)
    (.required ?_ _)) (.required ?_ _)) (.map (.orElse ?_ _ _) _)) (.map (.orElse ?_ _ _) _))
    (.map (.orElse ?_ _ _) _)) (.orElse ?_ _ _)) (.orElse ?_ _ _)) (.required ?_ _))
    (.orElse ?_ _ _)
  all_goals simp [fields]

/-- A record is what is read of the deciding values. -/
structure GivenBy (s : Stock) (o : Fields) : Prop where
  id : readIntFrom 1 (idField.given o) = .ok s.id
  symbol : readText (symbolField.given o) = .ok s.symbol
  companyName : readText (companyNameField.given o) = .ok s.companyName
  currentPrice : ∃ x, readOptional readPrice (currentPriceField.given o) = .ok x ∧
    .ofDouble? x = s.currentPrice
  previousPrice : ∃ x, readOptional readPrice (previousPriceField.given o) = .ok x ∧
    .ofDouble? x = s.previousPrice
  volume : ∃ n, readOptional (readIntFrom 0) (volumeField.given o) = .ok n ∧ .ofInt? n = s.volume
  marketCap : readOptional readPrice (marketCapField.given o) = .ok s.marketCap
  sector : readOptional readText (sectorField.given o) = .ok s.sector
  createdAt : readMoment (createdAtField.given o) = .ok s.createdAt
  updatedAt : readOptional readMoment (updatedAtField.given o) = .ok s.updatedAt

theorem readFields_eq_ok {s : Stock} {o : Fields} :
    Stock.readFields o = .ok s ↔ s.GivenBy o := by
  have hid : ∀ n, readIntFrom 1 .null ≠ .ok n := fun _ h => nomatch h
  have htext : ∀ t, readText .null ≠ .ok t := fun _ h => nomatch h
  have hmoment : ∀ m, readMoment .null ≠ .ok m := fun _ h => nomatch h
  unfold Stock.readFields
  simp only [Checked.seq_eq_ok, Checked.map_eq_ok, Field.orElse_eq_ok, Field.required_eq_ok hid,
    Field.required_eq_ok htext, Field.required_eq_ok hmoment]
  constructor
  · rintro ⟨_, _, ⟨_, _, ⟨_, _, ⟨_, _, ⟨_, _, ⟨_, _, ⟨_, _, ⟨_, _, ⟨_, _, ⟨_, hid, rfl⟩,
      hsymbol, rfl⟩, hname, rfl⟩, hcurrent, rfl⟩, hprevious, rfl⟩, hvolume, rfl⟩, hcap, rfl⟩,
      hsector, rfl⟩, hcreated, rfl⟩, hupdated, rfl⟩
    exact ⟨hid, hsymbol, hname, hcurrent, hprevious, hvolume, hcap, hsector, hcreated, hupdated⟩
  · intro h
    exact ⟨_, _, ⟨_, _, ⟨_, _, ⟨_, _, ⟨_, _, ⟨_, _, ⟨_, _, ⟨_, _, ⟨_, _, ⟨_, h.id, rfl⟩,
      h.symbol, rfl⟩, h.companyName, rfl⟩, h.currentPrice, rfl⟩, h.previousPrice, rfl⟩,
      h.volume, rfl⟩, h.marketCap, rfl⟩, h.sector, rfl⟩, h.createdAt, rfl⟩, h.updatedAt, rfl⟩

end Stock

namespace PriceUpdate

/-- The fields that a price update is read from. -/
def fields : List Field := [Stock.newPriceField, Stock.volumeField]

theorem readsBy : ReadsBy fields PriceUpdate.readFields :=
  .seq (.map (.required (by simp [fields]) _) _) (.orElse (by simp [fields]) _ _)

/-- A price update is what is read of the deciding values. -/
structure GivenBy (p : PriceUpdate) (o : Fields) : Prop where
  newPrice : (readNumber (Stock.newPriceField.given o)).bind (numberAbove 0) = .ok p.newPrice
  volume : readOptional (readIntFrom 0) (Stock.volumeField.given o) = .ok p.volume

theorem readFields_eq_ok {p : PriceUpdate} {o : Fields} :
    PriceUpdate.readFields o = .ok p ↔ p.GivenBy o := by
  have hnull : ∀ x, (readNumber .null).bind (numberAbove 0) ≠ .ok x := fun _ h => nomatch h
  have hrequired {x : Double} :
      Stock.newPriceField.required (fun v => (readNumber v).bind (numberAbove 0)) o = .ok x ↔
        (readNumber (Stock.newPriceField.given o)).bind (numberAbove 0) = .ok x :=
    Field.required_eq_ok hnull
  unfold PriceUpdate.readFields
  simp only [Checked.seq_eq_ok, Checked.map_eq_ok, Field.orElse_eq_ok, hrequired]
  constructor
  · rintro ⟨_, _, ⟨_, hprice, rfl⟩, hvolume, rfl⟩
    exact ⟨hprice, hvolume⟩
  · intro h
    exact ⟨_, _, ⟨_, h.newPrice, rfl⟩, h.volume, rfl⟩

end PriceUpdate

namespace Model

/-- The laws of reading a model whose fields may be spelled in several ways. -/
structure SpellingLaws (m : Model) (fs : List Field) : Prop where
  /-- Neither acceptance nor the record depends on how the fields are spelled. -/
  respelled : ∀ {rename : Key → Key} {o : Fields}, Respells fs rename o →
    (m.read (.object (respell rename o))).faults = (m.read (.object o)).faults
  /-- The first of the keys of a field that is there decides, whatever the later ones hold. -/
  decided : ∀ {f : Field} {before after : List String} {k : String} {o o' : Fields}, f ∈ fs →
    f.keys = before ++ k :: after → (∀ l ∈ before, o.get? (l : Key) = none) → o.has (k : Key) →
    (∀ l : String, l ∉ after → o.get? (l : Key) = o'.get? (l : Key)) →
    m.read (.object o) = m.read (.object o')
  /-- What is wrong with the deciding value by itself is wrong with the object. -/
  refused : ∀ {f : Field} {before after : List String} {k : String} {o : Fields} {v : Value},
    f ∈ fs → f.keys = before ++ k :: after → (∀ l ∈ before, o.get? (l : Key) = none) →
    o.get? (k : Key) = some v →
    (m.read (.object o)).problemsAt k = (m.read (.object [((k : Key), v)])).problemsAt k
  /-- Keys of no field have no part in the reading. -/
  unknown : ∀ {o o' : Fields},
    (∀ f ∈ fs, ∀ k ∈ f.keys, o.get? (k : Key) = o'.get? (k : Key)) →
    m.read (.object o) = m.read (.object o')
  order : ∀ {o o' : Fields}, Value.fieldsAreKeyed o → o.Perm o' →
    m.read (.object o) = m.read (.object o')

theorem spellingLaws_of_readsBy {m : Model} {fs : List Field} (h : ReadsBy fs m.readFields)
    (hfs : (fs.flatMap Field.keys).Nodup) : m.SpellingLaws fs where
  respelled hrename := h.value fun _ hf => hrename.value?_eq hfs hf
  decided := by
    intro f before after k o o' hf hkeys hbefore hhas hsame
    obtain ⟨-, hk, hfirst⟩ := Field.not_mem_after hfs hf hkeys
    obtain ⟨v, hget⟩ := Option.isSome_iff_exists.mp hhas
    refine h.find fun g hg => ?_
    by_cases hfg : f = g
    · rw [← hfg, Field.find_eq_some hkeys hbefore hget, Field.find_eq_some hkeys
        (fun l hl => hsame l (hfirst l hl) ▸ hbefore l hl) (hsame k hk ▸ hget)]
    · refine Field.find_congr fun l hl => hsame l fun hafter => hfg ?_
      exact Field.eq_of_mem_keys hfs hf hg (by simp [hkeys, hafter]) hl
  refused := by
    intro f before after k o v hf hkeys hbefore hget
    obtain ⟨hk, -, -⟩ := Field.not_mem_after hfs hf hkeys
    refine h.problems fun g hg hkg => ?_
    obtain rfl := Field.eq_of_mem_keys hfs hf hg (by simp [hkeys]) hkg
    have hother (l : String) (hl : l ∈ before) :
        Fields.get? [((k : Key), v)] (l : Key) = none := by
      rw [Fields.get?_cons, Key.same_text, if_neg ?_]
      · rfl
      · simp only [beq_iff_eq, Text.ofString_inj]
        rintro rfl
        exact hk hl
    rw [Field.find_eq_some hkeys hbefore hget, Field.find_eq_some hkeys hother ?_]
    rw [Fields.get?_cons, if_pos (Key.same_refl _)]
  unknown hsame := h.find fun f hf => Field.find_congr (hsame f hf)
  order hkeyed hperm := h.find fun _ _ =>
    Field.find_congr fun _ _ => Fields.get?_perm hperm hkeyed _

/-- The models of records and of all requests keep the laws of spellings, and an object is read as
what is given by its deciding values. These are the value of the preferred spelling, if it is there,
and for the new price that of the first of its three keys, whatever they are. -/
theorem spellings_never_matter :
    (stock.SpellingLaws Stock.fields ∧
      ∀ o s, stock.read (.object o) = .ok (.stock s) ↔ s.GivenBy o) ∧
    (createRequest.SpellingLaws StockDetails.fields ∧
      ∀ o d, createRequest.read (.object o) = .ok (.createRequest d) ↔ d.GivenBy o) ∧
    (updateRequest.SpellingLaws StockDetails.fields ∧
      ∀ o d, updateRequest.read (.object o) = .ok (.updateRequest d) ↔ d.GivenBy o) ∧
    (priceUpdate.SpellingLaws PriceUpdate.fields ∧
      ∀ o p, priceUpdate.read (.object o) = .ok (.priceUpdate p) ↔ p.GivenBy o) ∧
    (∀ (name key : String) (o : Fields) (v : Value), o.get? (key : Key) = some v →
      (Field.spelled name key).given o = v) ∧
    ∀ (before after : List String) (k : String) (o : Fields) (v : Value),
      ["newPrice", "new_price", "currentPrice"] = before ++ k :: after →
      (∀ l ∈ before, o.get? (l : Key) = none) → o.get? (k : Key) = some v →
      Stock.newPriceField.given o = v := by
  refine ⟨⟨spellingLaws_of_readsBy (.map Stock.readsBy _) (by decide), fun o s => ?_⟩,
    ⟨spellingLaws_of_readsBy (.map StockDetails.readsBy _) (by decide), fun o d => ?_⟩,
    ⟨spellingLaws_of_readsBy (.map StockDetails.readsBy _) (by decide), fun o d => ?_⟩,
    ⟨spellingLaws_of_readsBy (.map PriceUpdate.readsBy _) (by decide), fun o p => ?_⟩,
    fun name key o v => ?_, fun before after k o v hkeys => Field.given_eq hkeys⟩
  · show Record.stock <$> Stock.readFields o = _ ↔ _
    simp [Checked.map_eq_ok, Stock.readFields_eq_ok]
  · show Record.createRequest <$> StockDetails.readFields o = _ ↔ _
    simp [Checked.map_eq_ok, StockDetails.readFields_eq_ok]
  · show Record.updateRequest <$> StockDetails.readFields o = _ ↔ _
    simp [Checked.map_eq_ok, StockDetails.readFields_eq_ok]
  · show Record.priceUpdate <$> PriceUpdate.readFields o = _ ↔ _
    simp [Checked.map_eq_ok, PriceUpdate.readFields_eq_ok]
  · have hkeys : (Field.spelled name key).keys = [] ++ key :: [name] := rfl
    exact Field.given_eq hkeys (by simp)

/-- A company may be named under either of its two keys. -/
theorem spellings_of_company_name :
    (createRequest.read (.object [("symbol", .text "A"), ("companyName", .text "B")])).faults =
      (createRequest.read
        (.object [("symbol", .text "A"), ("company_name", .text "B")])).faults := by
  have hmem : Stock.companyNameField ∈ StockDetails.fields := by simp [StockDetails.fields]
  have hname : Stock.companyNameField.Spells "company_name" := ⟨_, by decide, rfl⟩
  have hrespells : Respells StockDetails.fields (renameKey "company_name" "companyName")
      [("symbol", .text "A"), ("company_name", .text "B")] := by
    refine ⟨fun e he => ?_, fun e he e' he' f hf hkey hkey' hne => ?_⟩
    · rcases List.mem_pair.mp he with rfl | rfl
      · exact .inl (by decide)
      · exact .inr ⟨_, hmem, hname, "companyName", by decide, by decide⟩
    · rcases List.mem_pair.mp he with rfl | rfl
      · decide
      · obtain rfl := Field.eq_of_spells (by decide) hf hmem hkey hname
        rcases List.mem_pair.mp he' with rfl | rfl
        · obtain ⟨k, hk, heq⟩ := hkey'
          obtain rfl := Text.ofString_inj.mp (Key.text.inj heq)
          exact absurd hk (by decide)
        · exact absurd rfl hne
  exact spellings_never_matter.2.1.1.respelled hrespells

/-- A price that is null under the first of its keys is refused, whatever the others hold. -/
example :
    priceUpdate.read (.object [("newPrice", .null), ("currentPrice", .int 3)]) =
      .bad [⟨.notNumber, [.name "newPrice"]⟩] :=
  rfl

end Model

end StockRegister
