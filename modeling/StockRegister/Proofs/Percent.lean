import StockRegister.Web.Url
import Mathlib.Tactic.SplitIfs

/-!
# Texts in percent signs

The bytes of a character are decoded as this character, whatever follows them
(`decodeFrom_utf8Bytes`) : its first byte announces as many more as it has, and bounds the second so
that no other bytes stand for the same number (`exists_firstByte_three`, `exists_firstByte_four`).
So a text whose characters are written in percent signs, but for some that are kept as they are, is
read back as it was, unless the percent sign itself is kept (`decodePercent_append_encodePercent`).
-/

namespace StockRegister.Web

/-! ## Characters by their bytes -/

/-- The next byte of an unfinished character may be a given one. -/
def Unfinished.Takes (u : Unfinished) (b : Nat) : Prop := u.least ≤ b ∧ b ≤ u.most

theorem decodeFrom_inr {b : Nat} {u : Unfinished} (h : firstByte b = .inr u) (bs : List Nat) :
    decodeFrom none (b :: bs) = decodeFrom (some u) bs := by
  simp only [decodeFrom, h]

theorem decodeFrom_next {u : Unfinished} {missing b : Nat} (hmissing : u.missing = missing + 1)
    (h : u.Takes b) (bs : List Nat) : decodeFrom (some u) (b :: bs) =
      decodeFrom (some { missing := missing, code := u.code * 0x40 + (b - 0x80) }) bs := by
  rw [decodeFrom, if_pos (by simpa [Unfinished.Takes] using h), hmissing]

theorem decodeFrom_last {u : Unfinished} {b : Nat} (hmissing : u.missing = 0) (h : u.Takes b)
    (bs : List Nat) : decodeFrom (some u) (b :: bs) =
      Char.ofNat (u.code * 0x40 + (b - 0x80)) :: decodeFrom none bs := by
  rw [decodeFrom, if_pos (by simpa [Unfinished.Takes] using h), hmissing]

/-- The first of two bytes. -/
theorem firstByte_two {n : Nat} (hleast : 0x80 ≤ n) (hmost : n < 0x800) :
    firstByte (0xC0 + n / 0x40) = .inr { missing := 0, code := n / 0x40 } := by
  unfold firstByte
  rw [if_neg (by omega), if_neg (by omega), if_pos (by omega), Nat.add_sub_cancel_left]

/-- The first of three bytes bounds the second by what the number is, since it is no half of a
pair. -/
theorem exists_firstByte_three {n : Nat} (hleast : 0x800 ≤ n) (hmost : n < 0x10000)
    (hhalf : n < 0xD800 ∨ 0xDFFF < n) : ∃ u, firstByte (0xE0 + n / 0x1000) = .inr u ∧
      u.missing = 1 ∧ u.code = n / 0x1000 ∧ u.Takes (0x80 + n / 0x40 % 0x40) := by
  unfold firstByte
  rw [if_neg (by omega), if_neg (by omega), if_neg (by omega)]
  simp only [beq_iff_eq]
  -- Only after 0xE0 and 0xED are the bounds other than 0x80 and 0xBF.
  split_ifs with hfirst hhigh hlow
  · exact ⟨_, rfl, rfl, by dsimp only; omega, by dsimp only [Unfinished.Takes]; omega⟩
  · exact ⟨_, rfl, rfl, by dsimp only; omega, by dsimp only [Unfinished.Takes]; omega⟩
  · exact ⟨_, rfl, rfl, by dsimp only; omega, by dsimp only [Unfinished.Takes]; omega⟩
  all_goals omega

/-- The first of four bytes bounds the second by what the number is, since it is none of those that
are too large. -/
theorem exists_firstByte_four {n : Nat} (hleast : 0x10000 ≤ n) (hmost : n < 0x110000) :
    ∃ u, firstByte (0xF0 + n / 0x40000) = .inr u ∧ u.missing = 2 ∧ u.code = n / 0x40000 ∧
      u.Takes (0x80 + n / 0x1000 % 0x40) := by
  unfold firstByte
  rw [if_neg (by omega), if_neg (by omega), if_neg (by omega)]
  simp only [beq_iff_eq]
  rw [if_neg (by omega), if_neg (by omega), if_neg (by omega)]
  split_ifs with hfirst hmiddle hlast
  · exact ⟨_, rfl, rfl, by dsimp only; omega, by dsimp only [Unfinished.Takes]; omega⟩
  · exact ⟨_, rfl, rfl, by dsimp only; omega, by dsimp only [Unfinished.Takes]; omega⟩
  · exact ⟨_, rfl, rfl, by dsimp only; omega, by dsimp only [Unfinished.Takes]; omega⟩
  · omega

/-- The bytes of a character are decoded as this character. -/
theorem decodeFrom_utf8Bytes (c : Char) (bs : List Nat) :
    decodeFrom none (utf8Bytes c ++ bs) = c :: decodeFrom none bs := by
  have hvalid : c.toNat < 0xD800 ∨ 0xDFFF < c.toNat ∧ c.toNat < 0x110000 := c.valid
  have hlater (m : Nat) {u : Unfinished} (hleast : u.least = 0x80) (hmost : u.most = 0xBF) :
      u.Takes (0x80 + m % 0x40) := by
    rw [Unfinished.Takes, hleast, hmost]
    omega
  have hchar {n : Nat} (h : n = c.toNat) : Char.ofNat n = c := h ▸ Char.ofNat_toNat c
  unfold utf8Bytes
  dsimp only
  split_ifs with hone htwo hthree
  · simp only [List.singleton_append, decodeFrom, firstByte, if_pos hone, Char.ofNat_toNat]
  · have hfirst := firstByte_two (by omega) htwo
    rw [List.cons_append, decodeFrom_inr hfirst, List.singleton_append,
      decodeFrom_last rfl (hlater _ rfl rfl), hchar (by dsimp only; omega)]
  · obtain ⟨u, hfirst, hmissing, hcode, htakes⟩ :=
      exists_firstByte_three (by omega) hthree (hvalid.imp_right And.left)
    rw [List.cons_append, decodeFrom_inr hfirst, List.cons_append,
      decodeFrom_next hmissing htakes, List.singleton_append,
      decodeFrom_last rfl (hlater _ rfl rfl), hchar (by dsimp only; omega)]
  · obtain ⟨u, hfirst, hmissing, hcode, htakes⟩ := exists_firstByte_four (by omega)
      (show c.toNat < 0x110000 by omega)
    rw [List.cons_append, decodeFrom_inr hfirst, List.cons_append,
      decodeFrom_next hmissing htakes, List.cons_append, decodeFrom_next rfl (hlater _ rfl rfl),
      List.singleton_append, decodeFrom_last rfl (hlater _ rfl rfl), hchar (by dsimp only; omega)]

/-- The bytes of a text are decoded as this text. -/
theorem decodeUtf8_flatMap_utf8Bytes (cs : List Char) :
    decodeUtf8 (cs.flatMap utf8Bytes) = cs := by
  unfold decodeUtf8
  induction cs with
  | nil => rfl
  | cons c cs ih => rw [List.flatMap_cons, decodeFrom_utf8Bytes, ih]

/-! ## Percent signs -/

theorem utf8Bytes_lt (c : Char) : ∀ b ∈ utf8Bytes c, b < 0x100 := by
  have hvalid : c.toNat < 0xD800 ∨ 0xDFFF < c.toNat ∧ c.toNat < 0x110000 := c.valid
  unfold utf8Bytes
  dsimp only
  split_ifs <;> simp only [List.forall_mem_cons, List.not_mem_nil, false_implies, implies_true,
    and_true] <;> omega

theorem hexDigit?_hexCapital {n : Nat} (h : n < 0x10) :
    Text.hexDigit? (hexCapital n) = some n := by
  have hall : ∀ n : Fin 0x10, Text.hexDigit? (hexCapital n) = some n.val := by decide
  exact hall ⟨n, h⟩

/-- A byte that was written with a percent sign is read back. -/
theorem percentBytes_percentByte {b : Nat} (h : b < 0x100) (cs : List Char) :
    percentBytes (percentByte b ++ cs) = b :: percentBytes cs := by
  have hhigh := hexDigit?_hexCapital (n := b / 16) (by omega)
  have hlow := hexDigit?_hexCapital (n := b % 16) (by omega)
  simp only [percentByte, List.cons_append, List.nil_append, percentBytes, hhigh, hlow]
  rw [Nat.div_add_mod']

theorem percentBytes_flatMap_percentByte {bs : List Nat} (h : ∀ b ∈ bs, b < 0x100)
    (cs : List Char) : percentBytes (bs.flatMap percentByte ++ cs) = bs ++ percentBytes cs := by
  induction bs with
  | nil => rfl
  | cons b bs ih =>
    rw [List.forall_mem_cons] at h
    rw [List.flatMap_cons, List.append_assoc, percentBytes_percentByte h.1, ih h.2,
      List.cons_append]

/-- A text without a percent sign is read as its bytes. -/
theorem percentBytes_append {before : List Char} (h : '%' ∉ before) (cs : List Char) :
    percentBytes (before ++ cs) = before.flatMap utf8Bytes ++ percentBytes cs := by
  induction before with
  | nil => rfl
  | cons c before ih =>
    rw [List.mem_cons, not_or] at h
    rw [List.cons_append, percentBytes, ih h.2, List.flatMap_cons, List.append_assoc]
    rintro a b rest rfl
    exact absurd rfl h.1

theorem percentBytes_encodePercent {keep : Char → Bool} (hkeep : keep '%' = false)
    (cs : List Char) : percentBytes (encodePercent keep cs) = cs.flatMap utf8Bytes := by
  unfold encodePercent
  induction cs with
  | nil => rfl
  | cons c cs ih =>
    rw [List.flatMap_cons, List.flatMap_cons, ← ih]
    split_ifs with hc
    · have hsign : '%' ∉ [c] := by
        rw [List.mem_singleton]
        rintro rfl
        rw [hkeep] at hc
        cases hc
      rw [percentBytes_append hsign, List.flatMap_singleton]
    · exact percentBytes_flatMap_percentByte (utf8Bytes_lt c) _

/-- After a text without a percent sign, one that was written with percent signs is read back, if no
percent sign was kept in it. -/
theorem decodePercent_append_encodePercent {keep : Char → Bool} (hkeep : keep '%' = false)
    {before : List Char} (hbefore : '%' ∉ before) (cs : List Char) :
    decodePercent (before ++ encodePercent keep cs) = before ++ cs := by
  rw [decodePercent, percentBytes_append hbefore, percentBytes_encodePercent hkeep,
    ← List.flatMap_append, decodeUtf8_flatMap_utf8Bytes]

end StockRegister.Web
