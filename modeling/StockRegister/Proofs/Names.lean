import StockRegister.Proofs.Lifetime
import StockRegister.Proofs.Rejections

/-!
# The names of a record

A record has two texts that it cannot be created without, its symbol and the name of its company
(`Name`). The assessment of a creation asks that both are filled, and that of an update asks
nothing of the texts that the update gives : they replace those of the record unless they are null.

So the names of a record are those that were given to it last (`lastGiven`), and as long as none
were, those of its creation, which are filled (`names_after_empty`). They stay filled exactly as
long as no update gives a blank text, and `blank_symbol_of_update` is a record that lost its symbol.
-/

namespace StockRegister

open Schema

/-- The texts that a record cannot be created without. -/
inductive Name where
  | symbol
  | companyName

namespace Name

/-- The name that details give, if they give one. -/
def given : Name → StockDetails → Option Text
  | symbol, d => d.symbol
  | companyName, d => d.companyName

/-- The name of a record. -/
def of : Name → Stock → Text
  | symbol, s => s.symbol
  | companyName, s => s.companyName

variable (name : Name)

theorem of_made {d : StockDetails} {symbol companyName : Text} (hsymbol : d.symbol = some symbol)
    (hcompany : d.companyName = some companyName) (id : Int) (now : Moment) :
    some (name.of (.made id now d symbol companyName)) = name.given d := by
  cases name with
  | symbol => exact hsymbol.symm
  | companyName => exact hcompany.symm

@[simp] theorem of_revised (s : Stock) (now : Moment) (d : StockDetails) :
    name.of (s.revised now d) = (name.given d).getD (name.of s) := by
  cases name <;> rfl

@[simp] theorem of_repriced (s : Stock) (now : Moment) (price volume : Value) :
    name.of (s.repriced now price volume) = name.of s := by
  cases name <;> rfl

/-- Details that may be created from give both names filled. -/
theorem isFilled_given {d : StockDetails} (hd : (Operand.creation (some d)).IsValid) :
    IsFilled (name.given d) := by
  obtain ⟨_, ⟨⟩, hsymbol, hcompany⟩ := hd
  cases name with
  | symbol => exact hsymbol
  | companyName => exact hcompany

end Name

namespace Desk

/-! ## Names that were given -/

/-- The name that an errand gave the record with an id, if it gave one. -/
def given (name : Name) (i : Int) (e : Errand × Except DeskError Answer) : Option Text :=
  match e.1 with
  | .updateStock _ d => if changedId? e = some i then name.given d else none
  | _ => none

/-- The name that was given last to the record with an id, if any was given. -/
def lastGiven (name : Name) (i : Int) (history : List (Errand × Except DeskError Answer)) :
    Option Text :=
  (history.filterMap (given name i)).getLast?

theorem given_of_ne_changedId {name : Name} {i : Int} {e : Errand × Except DeskError Answer}
    (he : changedId? e ≠ some i) : given name i e = none := by
  unfold given
  split
  · rw [if_neg he]
  · rfl

theorem lastGiven_append_singleton (name : Name) (i : Int)
    (history : List (Errand × Except DeskError Answer)) (e : Errand × Except DeskError Answer) :
    lastGiven name i (history ++ [e]) = (given name i e).or (lastGiven name i history) := by
  unfold lastGiven
  rw [List.filterMap_append, List.getLast?_append]
  cases he : given name i e with
  | none => rw [List.filterMap_cons_none he]; rfl
  | some t => rw [List.filterMap_cons_some he]; rfl

theorem lastGiven_eq_none {name : Name} {i : Int}
    {history : List (Errand × Except DeskError Answer)}
    (h : ∀ e ∈ history, changedId? e ≠ some i) : lastGiven name i history = none := by
  rw [lastGiven, List.getLast?_eq_none_iff, List.filterMap_eq_nil_iff]
  exact fun e he => given_of_ne_changedId (h e he)

/-! ## The names of a record -/

/-- A record was created with filled names, and has those that it was given last. -/
def Named (created : List Stock) (history : List (Errand × Except DeskError Answer)) (x : Stock) :
    Prop :=
  ∃ c ∈ created, c.id = x.id ∧ ∀ name : Name, IsFilled (some (name.of c)) ∧
    name.of x = (lastGiven name x.id history).getD (name.of c)

/-- A name is filled exactly if none was given last that is blank. -/
theorem isFilled_getD {o : Option Text} {t : Text} (ht : IsFilled (some t)) :
    IsFilled (some (o.getD t)) ↔ ∀ u, o = some u → IsFilled (some u) := by
  cases o <;> simp [ht]

section Step

variable {s : Store} {now : Moment} {created : List Stock}
  {history : List (Errand × Except DeskError Answer)} {e : Errand × Except DeskError Answer}
  {x : Stock}

/-- The names of a record after an errand are those that the errand gave it, or else those that it
had before. -/
theorem Provenance.named (h : Provenance s now e x)
    (hnamed : ∀ y ∈ s.toList, Named created history y)
    (hchanged : ∀ e ∈ history, changedId? e ≠ some s.nextId)
    (hvalid : ∀ d a, e = (.createStock (some d), .ok a) → (Operand.creation (some d)).IsValid) :
    Named (created ++ (created? e).toList) (history ++ [e]) x := by
  cases h with
  | kept hx hne =>
    obtain ⟨c, hc, hid, hnames⟩ := hnamed x hx
    refine ⟨c, List.mem_append_left _ hc, hid, fun name => ?_⟩
    rw [lastGiven_append_singleton, given_of_ne_changedId hne, Option.none_or]
    exact hnames name
  | @created d symbol companyName _ hsymbol hcompany hmade =>
    refine ⟨x, List.mem_append_right _ (List.mem_singleton_self x), rfl, fun name => ⟨?_, ?_⟩⟩
    · rw [hmade, name.of_made hsymbol hcompany]
      exact name.isFilled_given (hvalid d _ rfl)
    · -- The id is new, so no name was given to it before.
      have hid : x.id = s.nextId := by
        rw [hmade]
        rfl
      rw [lastGiven_append_singleton, hid, lastGiven_eq_none hchanged]
      rfl
  | @revised v d y hy hkey =>
    obtain ⟨c, hc, hid, hnames⟩ := hnamed y hy
    refine ⟨c, List.mem_append_left _ hc, hid, fun name => ⟨(hnames name).1, ?_⟩⟩
    have hgiven : given name y.id (.updateStock v d, .ok (.record (y.revised now d))) =
        name.given d := if_pos hkey
    rw [lastGiven_append_singleton, Stock.revised_id, hgiven, name.of_revised, (hnames name).2]
    cases name.given d <;> rfl
  | @repriced v p y _ hy hkey hmade =>
    obtain ⟨c, hc, hid, hnames⟩ := hnamed y hy
    subst hmade
    refine ⟨c, List.mem_append_left _ hc, hid, fun name => ?_⟩
    rw [lastGiven_append_singleton, Stock.repriced_id, name.of_repriced]
    exact hnames name

end Step

section Histories

variable {d : Desk} {s : AssessmentSettings}

theorem createdBy_append_singleton (d : Desk) (errands : List (Clock × Errand))
    (e : Clock × Errand) :
    d.createdBy (errands ++ [e]) = d.createdBy errands ++
      (created? (e.2, ((d.after errands).handle e.1 e.2).2)).toList := by
  rw [createdBy, history_append_singleton, List.filterMap_append, ← createdBy]
  rfl

/-- A creation that did not fail was of a valid operand. -/
theorem isValid_of_created (hd : d.assessor.Follows s) {clock : Clock} {r : Errand}
    {details : StockDetails} {a : Answer}
    (h : (r, (d.handle clock r).2) = (.createStock (some details), .ok a)) :
    (Operand.creation (some details)).IsValid := by
  obtain ⟨rfl, hok⟩ := Prod.mk.inj h
  have hassessed := (assessed_handle hd clock (.createStock (some details))).rejection?
  rw [hok] at hassessed
  exact AssessmentSettings.isValid_of_rejection?_eq_none hassessed.symm

/-- From an empty store, every record has the names that it was given last. -/
theorem named_after (hd : d.assessor.Follows s) (hempty : d.store = .empty)
    (errands : List (Clock × Errand)) :
    ∀ x ∈ (d.after errands).store.toList, Named (d.createdBy errands) (d.history errands) x := by
  have hordered : d.store.Ordered := hempty ▸ Store.ordered_empty
  induction errands using List.reverseRecOn with
  | nil =>
    intro x hx
    rw [after, hempty] at hx
    cases hx
  | append_singleton errands e ih =>
    intro x hx
    rw [createdBy_append_singleton, history_append_singleton]
    refine ((effect_after errands e).provenance (ordered_after errands hordered) hx).named ih ?_ ?_
    · intro e' he' hchanged
      have hlt := lt_nextId_of_changed hordered ⟨e', he', hchanged⟩
      omega
    · intro details a hcreated
      exact isValid_of_created (follows_after hd errands) hcreated

end Histories

/-- For all settings, from an empty store and whatever is asked : every record was created with
filled names and has those that updates gave it last, so a name of it is filled exactly as long as
the last one that it was given is, if it was given any. -/
theorem names_after_empty {s : AssessmentSettings} {source : RandomSource} {a : Assessor}
    (ha : a.Reached s source) (trail : Trail) (topCount : Int)
    (errands : List (Clock × Errand)) :
    let d : Desk := ⟨.empty, a, trail, topCount⟩
    ∀ x ∈ (d.after errands).store.toList, ∃ c ∈ d.createdBy errands, c.id = x.id ∧
      ∀ name : Name, IsFilled (some (name.of c)) ∧
        name.of x = (lastGiven name x.id (d.history errands)).getD (name.of c) ∧
        (IsFilled (some (name.of x)) ↔
          ∀ t, lastGiven name x.id (d.history errands) = some t → IsFilled (some t)) := by
  intro d x hx
  obtain ⟨c, hc, hid, hnames⟩ := named_after (d := d) ha.follows rfl errands x hx
  refine ⟨c, hc, hid, fun name => ?_⟩
  obtain ⟨hfilled, hlast⟩ := hnames name
  exact ⟨hfilled, hlast, hlast ▸ isFilled_getD hfilled⟩

/-- A company that is renamed to a text with a blank at its end, and whose symbol is not given. -/
theorem names_after_renaming :
    let clock : Clock := ⟨⟨⟨2024, 2, 29⟩, 0, 0, 0, 0, none⟩, Double.zero⟩
    let details : StockDetails := ⟨some "ACME", some "Acme", none, none, none, none, none⟩
    let renamed : StockDetails := ⟨none, some "Beta ", none, none, none, none, none⟩
    let errands : List (Clock × Errand) := [(clock, .createStock (some details)),
      (clock, .updateStock (.int 1) renamed)]
    ∃ a, Assessor.ofSettings {} (.cycle Double.zero []) = .ok a ∧
      let d : Desk := ⟨.empty, a, {}, 10⟩
      lastGiven .companyName 1 (d.history errands) = some "Beta " ∧
        ∃ x ∈ (d.after errands).store.toList, x.companyName = ("Beta " : Text) ∧
          ∀ name : Name, IsFilled (some (name.of x)) := by
  intro clock details renamed errands
  have ha : Assessor.ofSettings {} (.cycle Double.zero []) = .ok _ := rfl
  refine ⟨_, ha, by decide +kernel +zetaReduce, _, List.mem_singleton_self _, rfl, fun name => ?_⟩
  obtain ⟨c, -, -, hnames⟩ :=
    names_after_empty (.start ha) {} 10 errands _ (List.mem_singleton_self _)
  refine (hnames name).2.2.mpr fun t ht => (isBlankText_eq_false_iff _).mp ?_
  cases name with
  | symbol => cases ht
  | companyName =>
    cases ht
    decide

/-- A record whose symbol is blank : it was created with a filled one, and an update took it
away. -/
theorem blank_symbol_of_update :
    let clock : Clock := ⟨⟨⟨2024, 2, 29⟩, 0, 0, 0, 0, none⟩, Double.zero⟩
    let errands : List (Clock × Errand) := [
      (clock, .createStock (some ⟨some "ACME", some "Acme", none, none, none, none, none⟩)),
      (clock, .updateStock (.int 1) ⟨some " ", none, none, none, none, none, none⟩)]
    (∀ e ∈ errands, e.2.IsChecked) ∧
      ∃ a, Assessor.ofSettings {} (.cycle Double.zero []) = .ok a ∧
        ∃ x ∈ ((Desk.mk .empty a {} 10).after errands).store.toList, ¬IsFilled (some x.symbol) := by
  intro clock errands
  refine ⟨?_, _, rfl, _, List.mem_singleton_self _, ?_⟩
  · intro e he
    rcases List.mem_pair.mp he with rfl | rfl
    · exact ⟨.object [("symbol", .text "ACME"), ("companyName", .text "Acme")], rfl⟩
    · exact ⟨.object [("symbol", .text " ")], rfl⟩
  · rw [← isBlankText_eq_false_iff]
    decide

end Desk

end StockRegister
