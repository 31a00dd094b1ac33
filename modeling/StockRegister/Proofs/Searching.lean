import Mathlib.Data.List.Basic
import StockRegister.Proofs.Errands

/-!
# Searching

A text occurs in another one (`Text.OccursIn`) if the other is this text with something before and
something after it, of which either may be empty. Looking for a part at every place of a text in
turn finds exactly the texts that occur in it (`Text.contains_iff_occursIn`), also where the part
overlaps itself, is empty, or is longer than the text. Texts are compared by their code points, so
no two ways to write a letter are taken for one another.

A record mentions a keyword (`Stock.Mentions`) if the keyword occurs in its company name or in its
symbol. `Store.Searches` says what searching shows of a store : of each keyword the records that
mention it, in their order, so that a longer keyword shows no more than one that occurs in it. A
desk answers the same if the request may proceed. `Store.searches` proves it of all stores.
-/

namespace StockRegister

/-! ## Parts of a text -/

namespace Text

/-- A sequence has a part exactly if the part stands in it without a gap. -/
theorem hasPart_iff_isInfix {α : Type} [BEq α] [LawfulBEq α] {part cs : List α} :
    hasPart part cs = true ↔ part <:+: cs := by
  induction cs with
  | nil => rw [hasPart, List.isEmpty_iff, List.infix_nil]
  | cons c cs ih =>
    rw [hasPart, Bool.or_eq_true, List.isPrefixOf_iff_prefix, ih, List.infix_cons_iff]

/-- One text stands in another one, without a gap. -/
def OccursIn (part t : Text) : Prop := ∃ before after : Text, t = before ++ part ++ after

theorem occursIn_iff_isInfix {part t : Text} : part.OccursIn t ↔ part.points <:+: t.points := by
  constructor
  · rintro ⟨before, after, rfl⟩
    exact ⟨before.points, after.points, rfl⟩
  · rintro ⟨before, after, h⟩
    exact ⟨⟨before⟩, ⟨after⟩, congrArg mk h.symm⟩

theorem contains_iff_occursIn {part t : Text} : t.contains part = true ↔ part.OccursIn t := by
  rw [contains, hasPart_iff_isInfix, occursIn_iff_isInfix]

instance (part t : Text) : Decidable (part.OccursIn t) :=
  decidable_of_iff (t.contains part = true) contains_iff_occursIn

/-- A part may overlap itself, stand at either end and be of any script, and it has its own case. -/
example : OccursIn "aab" "aaab" ∧ OccursIn "ab" "aab" ∧ OccursIn "" "" ∧ OccursIn "株" "日本株" ∧
    ¬OccursIn "Ab" "aab" ∧ ¬OccursIn "aa" "a" := by decide

theorem empty_occursIn (t : Text) : OccursIn "" t := occursIn_iff_isInfix.mpr List.nil_infix

theorem OccursIn.trans {s t u : Text} (hst : s.OccursIn t) (htu : t.OccursIn u) : s.OccursIn u := by
  rw [occursIn_iff_isInfix] at *
  exact hst.trans htu

end Text

/-! ## Records with a keyword -/

/-- A keyword occurs in the company name or in the symbol of a record. -/
def Stock.Mentions (x : Stock) (keyword : Text) : Prop :=
  keyword.OccursIn x.companyName ∨ keyword.OccursIn x.symbol

instance (x : Stock) (keyword : Text) : Decidable (x.Mentions keyword) :=
  inferInstanceAs (Decidable (_ ∨ _))

/-- Whatever mentions a keyword mentions all that occurs in it. -/
theorem Stock.Mentions.of_occursIn {x : Stock} {part keyword : Text} (h : x.Mentions keyword)
    (hpart : part.OccursIn keyword) : x.Mentions part :=
  h.imp hpart.trans hpart.trans

namespace Store

/-- What searching shows of a store. -/
structure Searches (s : Store) (search : Text → List Stock) : Prop where
  /-- Of each keyword the records that mention it, in their order. -/
  selects : ∀ keyword, search keyword = s.toList.filter fun x => x.Mentions keyword
  everything : search "" = s.toList
  /-- What a keyword shows is among what its parts show, and in the same order. -/
  narrows : ∀ part keyword, part.OccursIn keyword → (search keyword).Sublist (search part)
  /-- Every record is found by each part of its own symbol and of its own company name. -/
  finds : ∀ x ∈ s.toList, ∀ part, part.OccursIn x.symbol ∨ part.OccursIn x.companyName →
    x ∈ search part
  /-- A desk with this store answers so whenever a search may proceed. -/
  answers : ∀ (d : Desk) clock keyword, d.store = s → (d.search clock (.text keyword)).2 =
    (d.guard clock .bulkLookup .null).2.map fun _ => search keyword

theorem search_eq (s : Store) (keyword : Text) :
    s.search keyword = s.toList.filter fun x => x.Mentions keyword := by
  refine List.filter_congr fun x _ => ?_
  rw [Bool.eq_iff_iff, Bool.or_eq_true, Text.contains_iff_occursIn, Text.contains_iff_occursIn,
    decide_eq_true_iff, Stock.Mentions]

theorem mem_search {s : Store} {keyword : Text} {x : Stock} :
    x ∈ s.search keyword ↔ x ∈ s.toList ∧ x.Mentions keyword := by
  rw [search_eq, List.mem_filter, decide_eq_true_iff]

theorem search_empty (s : Store) : s.search "" = s.toList := by
  rw [search_eq, List.filter_eq_self]
  exact fun x _ => decide_eq_true (Or.inl (Text.empty_occursIn _))

/-- A keyword with more in it shows fewer records. -/
theorem search_sublist {part keyword : Text} (h : part.OccursIn keyword) (s : Store) :
    (s.search keyword).Sublist (s.search part) := by
  rw [search_eq, search_eq]
  refine List.monotone_filter_right _ fun x hx => ?_
  exact decide_eq_true ((of_decide_eq_true hx).of_occursIn h)

end Store

/-- A desk answers a search from its store if the request may proceed. -/
theorem Desk.search_eq (d : Desk) (clock : Clock) (keyword : Text) :
    (d.search clock (.text keyword)).2 =
      (d.guard clock .bulkLookup .null).2.map fun _ => d.store.search keyword := by
  have hstore := d.store_guard clock .bulkLookup .null
  obtain ⟨d', hd'⟩ : ∃ d', d.guard clock .bulkLookup .null = d' := ⟨_, rfl⟩
  rw [hd'] at hstore
  rw [search, readAll, hd', ← hstore]
  obtain ⟨d', e | u⟩ := d'
  · rfl
  · rfl

/-- Searching any store shows of each keyword exactly the records that mention it, in their
order. -/
theorem Store.searches (s : Store) : s.Searches s.search where
  selects := s.search_eq
  everything := s.search_empty
  narrows _ _ h := search_sublist h s
  finds _ hx _ hpart := mem_search.mpr ⟨hx, hpart.symm⟩
  answers d clock keyword hd := hd ▸ d.search_eq clock keyword

end StockRegister
