import Mathlib.Data.List.TakeWhile
import Mathlib.Data.Nat.Digits.Lemmas
import Mathlib.Tactic.Ring
import StockRegister.Json.Read
import StockRegister.Proofs.Fields

/-!
# Integers that can be written

An integer can be written if its text has no more digits than it may have (`integerIsWritable`).
Whatever is read as an integer can be written again : an integer in JSON text
(`Json.hasShortIntegers_of_read`) and, if no integer of the value is longer, what a field takes from
a value (`Schema.ensures_readInt`).
-/

namespace StockRegister

/-! ## Digits -/

theorem Text.ofDigits_lt {base : Nat} (hbase : 1 < base) {ds : List Nat}
    (hds : ∀ d ∈ ds, d < base) : Text.ofDigits base ds < base ^ ds.length := by
  have hreverse : Text.ofDigits base ds = Nat.ofDigits base ds.reverse := by
    rw [Nat.ofDigits_eq_foldr, List.foldr_reverse, Text.ofDigits]
    congr 1
    funext n d
    simp only [Nat.cast_id]
    ring
  have hlt := Nat.ofDigits_lt_base_pow_length hbase fun d hd => hds d (List.mem_reverse.mp hd)
  rwa [← hreverse, List.length_reverse] at hlt

theorem Text.asciiDigit?_lt {c : Char} {d : Nat} (h : asciiDigit? c = some d) : d < 10 := by
  unfold asciiDigit? at h
  split_ifs at h with hdigit
  obtain ⟨-, hhigh⟩ : 48 ≤ c.toNat ∧ c.toNat ≤ 57 := by
    simpa [Char.isDigit, UInt32.le_iff_toNat_le] using hdigit
  have hvalue := Option.some.inj h
  omega

theorem exists_of_mem_mapM {α β : Type} {f : α → Option β} {xs : List α} {ys : List β}
    (h : xs.mapM f = some ys) {y : β} (hy : y ∈ ys) : ∃ x, f x = some y := by
  induction xs generalizing ys with
  | nil =>
    cases h
    cases hy
  | cons x xs ih =>
    simp only [List.mapM_cons, Option.bind_eq_bind, Option.bind_eq_some_iff] at h
    obtain ⟨z, hz, zs, hzs, heq⟩ := h
    cases heq
    rcases List.mem_cons.mp hy with rfl | hy
    · exact ⟨x, hz⟩
    · exact ih hzs hy

theorem natAbs_signedInt (negative : Bool) (n : Nat) : (signedInt negative n).natAbs = n := by
  cases negative <;> simp [signedInt]

theorem integerIsWritable_iff (n : Int) :
    integerIsWritable n = true ↔ n.natAbs < 10 ^ maxIntegerDigits := by
  rw [integerIsWritable, decide_eq_true_eq, Nat.pow_eq]

/-- Digits that are no more than there may be make an integer that can be written. -/
theorem integerIsWritable_ofDigits {ds : List Nat} (hds : ∀ d ∈ ds, d < 10)
    (hlength : ds.length ≤ maxIntegerDigits) (negative : Bool) :
    integerIsWritable (signedInt negative (Text.ofDigits 10 ds)) = true := by
  rw [integerIsWritable_iff, natAbs_signedInt]
  calc Text.ofDigits 10 ds
    _ < 10 ^ ds.length := Text.ofDigits_lt (by decide) hds
    _ ≤ 10 ^ maxIntegerDigits := Nat.pow_le_pow_right (by decide) hlength

/-- An integer of 64 bits can be written. -/
theorem integerIsWritable_of_natAbs_lt {n : Int} (h : n.natAbs < 2 ^ 63) :
    integerIsWritable n = true := by
  have hdigits : 63 ≤ maxIntegerDigits := by decide
  rw [integerIsWritable_iff]
  calc n.natAbs
    _ < 2 ^ 63 := h
    _ ≤ 10 ^ 63 := by decide
    _ ≤ 10 ^ maxIntegerDigits := Nat.pow_le_pow_right (by decide) hdigits

theorem integerIsWritable_of_canonicalInteger {cs : List Char} {n : Int}
    (h : canonicalInteger cs = some n) : integerIsWritable n = true := by
  unfold canonicalInteger at h
  dsimp only at h
  split at h
  · cases h
  · rename_i ds hds
    split_ifs at h with hbad
    simp only [Bool.or_eq_true, decide_eq_true_eq, not_or, Nat.not_lt] at hbad
    have hdigits : ∀ d ∈ ds, d < 10 := by
      intro d hd
      obtain ⟨c, hc⟩ := exists_of_mem_mapM hds hd
      exact Text.asciiDigit?_lt hc
    rw [← Option.some.inj h]
    exact integerIsWritable_ofDigits hdigits hbad.2 _

theorem integerIsWritable_of_wholeNumeral {s : String} {n : Int}
    (h : wholeNumeral s = .ok n) : integerIsWritable n = true := by
  unfold wholeNumeral at h
  split_ifs at h
  split at h
  · cases h
  · rename_i m hm
    cases h
    simp only [cleanedInteger, Option.bind_eq_bind, Option.bind_eq_some_iff] at hm
    obtain ⟨signed, -, body, -, hcanonical⟩ := hm
    exact integerIsWritable_of_canonicalInteger hcanonical

/-! ## Values -/

namespace Value

mutual

/-- Whether every integer in a value can be written. -/
def hasShortIntegers : Value → Bool
  | int n => integerIsWritable n
  | list items => haveShortIntegers items
  | object fields => fieldsHaveShortIntegers fields
  | _ => true

@[inherit_doc hasShortIntegers] def haveShortIntegers : List Value → Bool
  | [] => true
  | v :: vs => hasShortIntegers v && haveShortIntegers vs

@[inherit_doc hasShortIntegers] def fieldsHaveShortIntegers : List (Key × Value) → Bool
  | [] => true
  | (_, v) :: rest => hasShortIntegers v && fieldsHaveShortIntegers rest

end

theorem haveShortIntegers_iff (items : List Value) :
    haveShortIntegers items = true ↔ ∀ v ∈ items, v.hasShortIntegers = true := by
  induction items with
  | nil => simp [haveShortIntegers]
  | cons v vs ih => simp [haveShortIntegers, ih]

theorem fieldsHaveShortIntegers_iff (fields : Fields) :
    fieldsHaveShortIntegers fields = true ↔ ∀ f ∈ fields, f.2.hasShortIntegers = true := by
  induction fields with
  | nil => simp [fieldsHaveShortIntegers]
  | cons f fields ih => simp [fieldsHaveShortIntegers, ih]

end Value

/-- A property of all values of an object is kept by writing one more that has it. -/
theorem Fields.forall_put {P : Value → Prop} {fields : Fields} (h : ∀ f ∈ fields, P f.2) (key : Key)
    {v : Value} (hv : P v) : ∀ f ∈ fields.put key v, P f.2 := by
  induction fields with
  | nil =>
    intro f hf
    obtain rfl := List.mem_singleton.mp hf
    exact hv
  | cons g fields ih =>
    obtain ⟨hg, hfields⟩ := List.forall_mem_cons.mp h
    unfold put
    split_ifs
    · exact List.forall_mem_cons.mpr ⟨hv, hfields⟩
    · exact List.forall_mem_cons.mpr ⟨hg, ih hfields⟩

namespace Schema

open Checked

theorem ensures_readIntText (s : String) :
    (readIntText s).Ensures fun n => integerIsWritable n = true := by
  intro n hn
  unfold readIntText at hn
  split at hn
  · rename_i m hm
    cases hn
    exact integerIsWritable_of_wholeNumeral hm
  · cases hn
  · cases hn

theorem Checked.Ensures.readFromText {α : Type} {P : α → Prop} {read : String → Checked α}
    (h : ∀ s, (read s).Ensures P) (unreadable other : Fault) (v : Value) :
    (Schema.readFromText unreadable other read v).Ensures P := by
  intro a ha
  unfold Schema.readFromText at ha
  split at ha
  · split at ha
    · exact h _ a ha
    · cases ha
  · split at ha
    · exact h _ a ha
    · cases ha
  · cases ha

/-- What is read as an integer from a value without longer ones can be written. -/
theorem ensures_readInt {v : Value} (hv : v.hasShortIntegers = true) :
    (readInt v).Ensures fun n => integerIsWritable n = true := by
  intro n hn
  unfold readInt at hn
  split at hn
  · cases hn
    exact hv
  · rename_i b
    cases hn
    apply integerIsWritable_of_natAbs_lt
    cases b <;> decide
  · rename_i x
    split_ifs at hn
    · cases hn
    · split at hn
      · cases hn
      · split_ifs at hn with hsmall
        · cases hn
          exact integerIsWritable_of_natAbs_lt hsmall
        · cases hn
  · exact Ensures.readFromText ensures_readIntText _ _ v n hn

end Schema

/-! ## JSON text -/

namespace Json

theorem lt_ten_of_mem_splitDigits {ps : List Nat} {d : Nat} (hd : d ∈ (splitDigits ps).1) :
    d < 10 := by
  obtain ⟨n, hn, rfl⟩ := List.mem_map.mp hd
  have hdigit := List.mem_takeWhile_imp hn
  simp only [isDigit, Bool.and_eq_true, decide_eq_true_eq] at hdigit
  omega

theorem lt_ten_of_mem_splitWhole {ps : List Nat} {d : Nat} (hd : d ∈ (splitWhole ps).1) :
    d < 10 := by
  unfold splitWhole at hd
  split at hd
  · obtain rfl := List.mem_singleton.mp hd
    decide
  · exact lt_ten_of_mem_splitDigits hd

theorem hasShortIntegers_of_readNumber {ps rest : List Nat} {v : Value}
    (h : readNumber ps = .ok (v, rest)) : v.hasShortIntegers = true := by
  have hdigits : ∀ d ∈ (splitWhole (if ps.head? == some Mark.minus then ps.drop 1 else ps)).1,
      d < 10 := fun d => lt_ten_of_mem_splitWhole
  unfold readNumber at h
  dsimp only at h
  generalize splitWhole _ = whole at hdigits h
  split_ifs at h with hempty hwhole hlong
  · cases h
    exact integerIsWritable_ofDigits hdigits (Nat.le_of_not_lt hlong) _
  · cases h
    rfl

theorem hasShortIntegers_of_readWord {ps rest : List Nat} {v : Value}
    (h : readWord ps = some (v, rest)) : v.hasShortIntegers = true := by
  obtain ⟨w, hw, hword⟩ := List.exists_of_findSome?_eq_some h
  have hwords : ∀ w ∈ words, w.2.hasShortIntegers = true := by decide
  dsimp only at hword
  split_ifs at hword
  cases hword
  exact hwords w hw

/-- What the readers of a step need of those with less fuel : what they read has no integer that is
too long, if what was read before has none. -/
structure ReadsShort (fuel : Nat) : Prop where
  value : ∀ {depth ps v rest}, readValue fuel depth ps = .ok (v, rest) →
    v.hasShortIntegers = true
  fields : ∀ {depth done ps v rest}, (∀ f ∈ done, f.2.hasShortIntegers = true) →
    readFields fuel depth done ps = .ok (v, rest) → v.hasShortIntegers = true
  items : ∀ {depth done ps v rest}, (∀ w ∈ done, w.hasShortIntegers = true) →
    readItems fuel depth done ps = .ok (v, rest) → v.hasShortIntegers = true

theorem readsShort (fuel : Nat) : ReadsShort fuel := by
  induction fuel with
  | zero =>
    refine ⟨fun h => ?_, fun _ h => ?_, fun _ h => ?_⟩
    · cases h
    · cases h
    · cases h
  | succ fuel ih =>
    refine ⟨fun {depth ps v rest} h => ?_, fun {depth done ps v rest} hdone h => ?_,
      fun {depth done ps v rest} hdone h => ?_⟩
    · unfold readValue at h
      split at h
      · cases h
      · obtain ⟨pieces, -, hpieces⟩ := exists_of_bind_eq_ok h
        cases hpieces
        rfl
      · split at h
        · cases h
        · cases h
          rfl
        · exact ih.fields (fun f hf => by cases hf) h
      · split at h
        · cases h
        · cases h
          rfl
        · exact ih.items (fun w hw => by cases hw) h
      · split at h
        · rename_i hword
          cases h
          exact hasShortIntegers_of_readWord hword
        · exact hasShortIntegers_of_readNumber h
    · unfold readFields at h
      split at h
      · obtain ⟨name, -, h⟩ := exists_of_bind_eq_ok h
        dsimp only at h
        split at h
        · obtain ⟨⟨w, rest'⟩, hw, h⟩ := exists_of_bind_eq_ok h
          have hput := Fields.forall_put (P := fun v => v.hasShortIntegers = true) hdone
            (pieceText name.1) (ih.value hw)
          dsimp only at h
          split at h
          · cases h
            exact (Value.fieldsHaveShortIntegers_iff _).mpr hput
          · exact ih.fields hput h
          · cases h
        · cases h
      · cases h
    · unfold readItems at h
      obtain ⟨⟨w, rest'⟩, hw, h⟩ := exists_of_bind_eq_ok h
      have hcons : ∀ x ∈ w :: done, x.hasShortIntegers = true :=
        List.forall_mem_cons.mpr ⟨ih.value hw, hdone⟩
      dsimp only at h
      split at h
      · cases h
        refine (Value.haveShortIntegers_iff _).mpr fun x hx => ?_
        exact hcons x (List.mem_reverse.mp hx)
      · exact ih.items hcons h
      · cases h

/-- Every integer in a value that is read can be written. -/
theorem hasShortIntegers_of_read {t : Text} {v : Value} (h : read t = .ok v) :
    v.hasShortIntegers = true := by
  unfold read readPoints at h
  dsimp only at h
  split at h
  · cases h
  · cases h
  · cases h
  · rename_i w rest hw
    split at h
    · cases h
      exact (readsShort _).value hw
    · cases h

end Json

end StockRegister
