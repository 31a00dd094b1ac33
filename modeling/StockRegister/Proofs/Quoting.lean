import Mathlib.Algebra.Group.Nat.Defs
import Mathlib.Tactic.SplitIfs
import StockRegister.Text.Digit
import StockRegister.Text.Quoted

/-!
# Quoted text is read back

`Text.readQuotedChar` reads one character of what stands between quotes : a backslash starts an
escape, whose letter says how many hexadecimal digits it has or which character it names, and any
other character stands for itself. It reads every character as it was written, whatever follows
(`readQuotedChar_quotedChar`). The width of an escape by code point depends on its letter alone, so
no digit that follows is taken for one of its own, and a backslash is itself escaped, so no text
looks like the escape of another one. Hence different texts are quoted differently
(`quoted_injective`).

A quoted text is printable (`isPrintableText_quoted`) : none of its characters is a control
character or ends a line.
-/

namespace StockRegister.Text

/-! ## Hexadecimal digits -/

/-- The number that hexadecimal digits stand for. -/
def readHex (cs : List Char) : Option Nat := (cs.mapM hexDigit?).map (ofDigits 16)

theorem hexDigit?_digitChar {n : Nat} (h : n < 16) : hexDigit? n.digitChar = some n := by
  have hall : ∀ n : Fin 16, hexDigit? n.val.digitChar = some n.val := by decide
  exact hall ⟨n, h⟩

theorem readHex_append_digitChar {cs : List Char} {n d : Nat} (hcs : readHex cs = some n)
    (hd : d < 16) : readHex (cs ++ [d.digitChar]) = some (n * 16 + d) := by
  obtain ⟨ds, hds, rfl⟩ := Option.map_eq_some_iff.mp hcs
  have hmap : (cs ++ [d.digitChar]).mapM hexDigit? = some (ds ++ [d]) := by
    simp [List.mapM_append, hds, hexDigit?_digitChar hd]
  rw [readHex, hmap, Option.map_some, ofDigits, List.foldl_append]
  rfl

theorem readHex_nil : readHex [] = some 0 := rfl

theorem readHex_toDigits (n : Nat) : readHex (Nat.toDigits 16 n) = some n := by
  induction n using Nat.strongRecOn with
  | ind n ih =>
    rw [Nat.toDigits_eq_if (by decide)]
    split_ifs with hn
    · simpa using readHex_append_digitChar readHex_nil hn
    · rw [readHex_append_digitChar (ih (n / 16) (by omega)) (Nat.mod_lt n (by decide)),
        Nat.div_add_mod']

theorem readHex_zero_cons (cs : List Char) : readHex ('0' :: cs) = readHex cs := by
  have hzero : hexDigit? '0' = some 0 := by decide
  rw [readHex, readHex, List.mapM_cons, hzero]
  cases cs.mapM hexDigit? <;> rfl

/-- Hexadecimal digits of any width are read as the number that they were written of. -/
theorem readHex_hexDigits (width n : Nat) : readHex (hexDigits width n) = some n := by
  unfold hexDigits
  dsimp only
  induction width - (Nat.toDigits 16 n).length with
  | zero => exact readHex_toDigits n
  | succ k ih => rw [List.replicate_succ, List.cons_append, readHex_zero_cons, ih]

theorem length_hexDigits {width n : Nat} (hwidth : 0 < width) (hn : n < 16 ^ width) :
    (hexDigits width n).length = width := by
  have hle := (Nat.length_toDigits_le_iff (b := 16) (by decide) hwidth).mpr hn
  rw [hexDigits, List.length_append, List.length_replicate]
  omega

/-! ## Reading one character -/

/-- How many digits the escape with a letter has, if it is one by code point. -/
def escapeWidth? (c : Char) : Option Nat := [('x', 2), ('u', 4), ('U', 8)].lookup c

/-- The character that an escape by name stands for. -/
def namedChar (c : Char) : Char := ([('t', '\t'), ('n', '\n'), ('r', '\r')].lookup c).getD c

/-- The first character of what stands between quotes, and what follows it. -/
def readQuotedChar : List Char → Option (Char × List Char)
  | [] => none
  | ['\\'] => none
  | '\\' :: c :: cs =>
    match escapeWidth? c with
    | some width => (readHex (cs.take width)).map fun n => (Char.ofNat n, cs.drop width)
    | none => some (namedChar c, cs)
  | c :: cs => some (c, cs)

theorem readQuotedChar_named {c : Char} (h : escapeWidth? c = none) (cs : List Char) :
    readQuotedChar ('\\' :: c :: cs) = some (namedChar c, cs) := by
  rw [readQuotedChar, h]

theorem readQuotedChar_of_ne {c : Char} (h : c ≠ '\\') (cs : List Char) :
    readQuotedChar (c :: cs) = some (c, cs) := by
  unfold readQuotedChar
  split <;> simp_all

/-- An escape with as many digits as its letter asks for is read as the number that they are. -/
theorem readQuotedChar_hexDigits {letter : Char} {width : Nat}
    (hletter : escapeWidth? letter = some width) (hwidth : 0 < width) {n : Nat}
    (hn : n < 16 ^ width) (cs : List Char) :
    readQuotedChar ('\\' :: letter :: (hexDigits width n ++ cs)) = some (Char.ofNat n, cs) := by
  have hlength := length_hexDigits hwidth hn
  rw [readQuotedChar, hletter]
  dsimp only
  rw [List.take_left' hlength, List.drop_left' hlength, readHex_hexDigits, Option.map_some]

/-- Whether a character is one of the two quotes. -/
def IsQuote (q : Char) : Prop := q = '\x27' ∨ q = '\x22'

theorem isQuote_quoteFor (cs : List Char) : IsQuote (quoteFor cs) := by
  unfold quoteFor
  split_ifs
  · exact Or.inr rfl
  · exact Or.inl rfl

/-- Every character is read as it was written, whatever follows. -/
theorem readQuotedChar_quotedChar {q : Char} (hq : IsQuote q) (c : Char) (cs : List Char) :
    readQuotedChar (quotedChar q c ++ cs) = some (c, cs) := by
  have hmost : c.toNat < 0x110000 := by
    have hvalid : c.toNat < 0xD800 ∨ 0xDFFF < c.toNat ∧ c.toNat < 0x110000 := c.valid
    omega
  have hescaped {letter : Char} {width : Nat} (hletter : escapeWidth? letter = some width)
      (hwidth : 0 < width) (hc : c.toNat < 16 ^ width) :
      readQuotedChar ('\\' :: letter :: (hexDigits width c.toNat ++ cs)) = some (c, cs) := by
    rw [readQuotedChar_hexDigits hletter hwidth hc, Char.ofNat_toNat]
  unfold quotedChar
  simp only [Bool.or_eq_true, beq_iff_eq]
  split_ifs with hself htab hfeed hreturn hprintable htwo hfour
  · have hnamed : escapeWidth? c = none ∧ namedChar c = c := by
      rcases hself with rfl | rfl
      · rcases hq with rfl | rfl <;> decide
      · decide
    rw [List.cons_append, List.singleton_append, readQuotedChar_named hnamed.1, hnamed.2]
  · exact htab ▸ rfl
  · exact hfeed ▸ rfl
  · exact hreturn ▸ rfl
  · exact readQuotedChar_of_ne (not_or.mp hself).2 cs
  · exact hescaped rfl (by decide) (by omega)
  · exact hescaped rfl (by decide) (by omega)
  · exact hescaped rfl (by decide) (by omega)

/-! ## Whole texts -/

/-- Lists that are written item by item are written alike only if they are the same, if the first
item can always be read. -/
theorem eq_of_flatMap_eq {α β : Type} {f : α → List β} {read : List β → Option (α × List β)}
    (hnil : read [] = none) (hread : ∀ x ys, read (f x ++ ys) = some (x, ys)) {xs xs' : List α}
    (h : xs.flatMap f = xs'.flatMap f) : xs = xs' := by
  induction xs generalizing xs' with
  | nil =>
    cases xs' with
    | nil => rfl
    | cons x xs' =>
      have hfirst := hread x (xs'.flatMap f)
      rw [← List.flatMap_cons, ← h, List.flatMap_nil, hnil] at hfirst
      cases hfirst
  | cons x xs ih =>
    have hfirst := hread x (xs.flatMap f)
    rw [← List.flatMap_cons, h] at hfirst
    cases xs' with
    | nil =>
      rw [List.flatMap_nil, hnil] at hfirst
      cases hfirst
    | cons x' xs' =>
      rw [List.flatMap_cons, hread] at hfirst
      obtain ⟨rfl, htail⟩ := Prod.mk.inj (Option.some.inj hfirst)
      rw [ih htail.symm]

/-- Different texts are quoted differently, whatever escapes they look like. -/
theorem quotedChars_injective {cs ds : List Char} (h : quotedChars cs = quotedChars ds) :
    cs = ds := by
  unfold quotedChars at h
  obtain ⟨hquote, hbody⟩ := List.cons.inj h
  rw [← hquote] at hbody
  exact eq_of_flatMap_eq rfl (readQuotedChar_quotedChar (isQuote_quoteFor cs))
    (List.append_cancel_right hbody)

theorem quoted_injective {s t : String} (h : quoted s = quoted t) : s = t :=
  String.toList_inj.mp (quotedChars_injective (String.ofList_inj.mp h))

/-- A backslash and a letter are not taken for the line break that they look like. -/
example : quotedChars ['\\', 'n'] = ['\x27', '\\', '\\', 'n', '\x27'] ∧
    quotedChars ['\n'] = ['\x27', '\\', 'n', '\x27'] := by decide +kernel

/-! ## Printable characters -/

/-- Whether a character is a control character. -/
def isControl (c : Char) : Bool := c.toNat < 0x20 || 0x7F ≤ c.toNat && c.toNat < 0xA0

/-- Whether a character ends a line : a line feed, a tabulation or feed of lines, a return, a
separator of files, groups or records, the next line, or a separator of lines or paragraphs. -/
def isLineBreak (c : Char) : Bool :=
  [0x0A, 0x0B, 0x0C, 0x0D, 0x1C, 0x1D, 0x1E, 0x85, 0x2028, 0x2029].contains c.toNat

theorem isPrintable_eq_true_iff {c : Char} : isPrintable c = true ↔
    ∀ r ∈ unprintableRanges, ¬(r.1 ≤ c.toNat ∧ c.toNat ≤ r.2) := by
  simp [isPrintable]

/-- All other characters of ASCII are printable. -/
theorem isPrintable_of_ascii {c : Char} (hleast : 0x20 ≤ c.toNat) (hmost : c.toNat < 0x7F) :
    isPrintable c = true := by
  have htable : ∀ r ∈ unprintableRanges, r.2 < 0x20 ∨ 0x7F ≤ r.1 := by decide +kernel
  rw [isPrintable_eq_true_iff]
  intro r hr
  have := htable r hr
  omega

theorem isControl_of_isPrintable {c : Char} (h : isPrintable c = true) : isControl c = false := by
  rw [isPrintable_eq_true_iff] at h
  have hlow := h (0, 31) (by decide +kernel)
  have hhigh := h (127, 160) (by decide +kernel)
  simp only [isControl, Bool.or_eq_false_iff, Bool.and_eq_false_iff, decide_eq_false_iff_not]
  omega

theorem isLineBreak_of_isPrintable {c : Char} (h : isPrintable c = true) :
    isLineBreak c = false := by
  have hcontrol := isControl_of_isPrintable h
  rw [isPrintable_eq_true_iff] at h
  have hseparators := h (8232, 8239) (by decide +kernel)
  simp only [isControl, Bool.or_eq_false_iff, Bool.and_eq_false_iff, decide_eq_false_iff_not]
    at hcontrol
  simp only [isLineBreak, List.contains_eq_mem, List.mem_cons, List.not_mem_nil, or_false,
    decide_eq_false_iff_not]
  omega

theorem isPrintable_digitChar {n : Nat} (h : n < 16) : isPrintable n.digitChar = true := by
  have hall : ∀ n : Fin 16, 0x20 ≤ n.val.digitChar.toNat ∧ n.val.digitChar.toNat < 0x7F := by
    decide
  exact isPrintable_of_ascii (hall ⟨n, h⟩).1 (hall ⟨n, h⟩).2

theorem isPrintable_of_mem_toDigits {base : Nat} (hbase : 1 < base) (hmost : base ≤ 16) {n : Nat}
    {c : Char} (hc : c ∈ Nat.toDigits base n) : isPrintable c = true := by
  induction n using Nat.strongRecOn with
  | ind n ih =>
    rw [Nat.toDigits_eq_if hbase] at hc
    split_ifs at hc with hn
    · obtain rfl := List.mem_singleton.mp hc
      exact isPrintable_digitChar (by omega)
    · rcases List.mem_append.mp hc with hc | hc
      · exact ih _ (Nat.div_lt_self (by omega) hbase) hc
      · obtain rfl := List.mem_singleton.mp hc
        have := Nat.mod_lt n (show 0 < base by omega)
        exact isPrintable_digitChar (by omega)

theorem isPrintable_of_mem_hexDigits {width n : Nat} {c : Char} (hc : c ∈ hexDigits width n) :
    isPrintable c = true := by
  rcases List.mem_append.mp hc with hc | hc
  · rw [List.eq_of_mem_replicate hc]
    exact isPrintable_of_ascii (by decide) (by decide)
  · exact isPrintable_of_mem_toDigits (by decide) (by decide) hc

theorem IsQuote.isPrintable {q : Char} (hq : IsQuote q) : isPrintable q = true := by
  rcases hq with rfl | rfl
  · exact isPrintable_of_ascii (by decide) (by decide)
  · exact isPrintable_of_ascii (by decide) (by decide)

theorem isPrintable_backslash : isPrintable '\\' = true :=
  isPrintable_of_ascii (by decide) (by decide)

/-- Whatever a character is, it is written with printable ones. -/
theorem isPrintable_of_mem_quotedChar {q c d : Char} (hq : IsQuote q) (hd : d ∈ quotedChar q c) :
    isPrintable d = true := by
  -- An escape is a backslash, a letter, and the digits of the code point if there are any.
  have hescape {letter : Char} {digits : List Char} (hletter : isPrintable letter = true)
      (hdigits : ∀ d ∈ digits, isPrintable d = true) (hd : d ∈ '\\' :: letter :: digits) :
      isPrintable d = true := by
    rcases List.mem_cons.mp hd with rfl | hd
    · exact isPrintable_backslash
    · rcases List.mem_cons.mp hd with rfl | hd
      · exact hletter
      · exact hdigits d hd
  have hdigits (width : Nat) : ∀ d ∈ hexDigits width c.toNat, isPrintable d = true :=
    fun _ => isPrintable_of_mem_hexDigits
  unfold quotedChar at hd
  simp only [Bool.or_eq_true, beq_iff_eq] at hd
  split_ifs at hd with hself htab hfeed hreturn hprintable htwo hfour
  · have hc : isPrintable c = true := by
      rcases hself with rfl | rfl
      · exact hq.isPrintable
      · exact isPrintable_backslash
    exact hescape hc (List.forall_mem_nil _) hd
  · exact hescape (isPrintable_of_ascii (by decide) (by decide)) (List.forall_mem_nil _) hd
  · exact hescape (isPrintable_of_ascii (by decide) (by decide)) (List.forall_mem_nil _) hd
  · exact hescape (isPrintable_of_ascii (by decide) (by decide)) (List.forall_mem_nil _) hd
  · exact List.mem_singleton.mp hd ▸ hprintable
  · exact hescape (isPrintable_of_ascii (by decide) (by decide)) (hdigits 2) hd
  · exact hescape (isPrintable_of_ascii (by decide) (by decide)) (hdigits 4) hd
  · exact hescape (isPrintable_of_ascii (by decide) (by decide)) (hdigits 8) hd

/-! ## Printable texts -/

/-- All characters of a text are printable. -/
def IsPrintableText (s : String) : Prop := ∀ c ∈ s.toList, isPrintable c = true

theorem isPrintableText_ofList {cs : List Char} :
    IsPrintableText (String.ofList cs) ↔ ∀ c ∈ cs, isPrintable c = true := by
  rw [IsPrintableText, String.toList_ofList]

theorem isPrintableText_of_ascii {s : String}
    (h : ∀ c ∈ s.toList, 0x20 ≤ c.toNat ∧ c.toNat < 0x7F) : IsPrintableText s :=
  fun c hc => isPrintable_of_ascii (h c hc).1 (h c hc).2

theorem IsPrintableText.append {s t : String} (hs : IsPrintableText s) (ht : IsPrintableText t) :
    IsPrintableText (s ++ t) := by
  intro c hc
  rw [String.toList_append] at hc
  exact (List.mem_append.mp hc).elim (hs c) (ht c)

theorem IsPrintableText.ite {p : Prop} [Decidable p] {s t : String} (hs : IsPrintableText s)
    (ht : IsPrintableText t) : IsPrintableText (if p then s else t) := by
  split_ifs
  · exact hs
  · exact ht

/-- A quoted text is printable, whatever the text is. -/
theorem isPrintableText_quoted (s : String) : IsPrintableText (quoted s) := by
  have hquote := isQuote_quoteFor s.toList
  refine isPrintableText_ofList.mpr fun c hc => ?_
  rcases List.mem_append.mp hc with hc | hc
  · rcases List.mem_cons.mp hc with rfl | hc
    · exact hquote.isPrintable
    · obtain ⟨d, -, hd⟩ := List.mem_flatMap.mp hc
      exact isPrintable_of_mem_quotedChar hquote hd
  · exact List.mem_singleton.mp hc ▸ hquote.isPrintable

end StockRegister.Text
