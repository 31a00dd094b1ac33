import StockRegister.Proofs.CommandLine
import StockRegister.Proofs.Quoting

/-!
# The listing of the rules

The conditions of the rule are listed with the sentinels in them, ids as decimal numbers and symbols
in quotes. Both can be read off again, so the conditions tell all sentinels apart
(`Sentinels.eq_of_conditions`). All conditions are printable, whatever the symbols are
(`isPrintableText_of_mem_sentinelTable`), so that each is printed on one line : cutting what a
report prints at every character that ends a line gives back its lines (`Report.splitOnP_output`).

Only an id of too many digits has no decimal text, and then nothing is listed. `TellsRules` puts
together what the listing tells, and `Command.tellsRules` proves it of all sentinels and of all
command lines that ask for the rules.
-/

namespace StockRegister

open Text

/-! ## Printable numbers -/

theorem isPrintableText_toString_nat (n : Nat) : IsPrintableText (toString n) :=
  isPrintableText_ofList.mpr fun _ => isPrintable_of_mem_toDigits (by decide) (by decide)

theorem isPrintableText_toString (n : Int) : IsPrintableText (toString n) := by
  cases n with
  | ofNat n => exact isPrintableText_toString_nat n
  | negSucc n =>
    exact (isPrintableText_of_ascii (by simp)).append (isPrintableText_toString_nat (n + 1))

theorem isPrintable_of_mem_zeros {n : Nat} {c : Char} (hc : c ∈ List.replicate n '0') :
    isPrintable c = true := by
  rw [List.eq_of_mem_replicate hc]
  exact isPrintable_of_ascii (by decide) (by decide)

theorem isPrintableText_padDigits (width n : Nat) : IsPrintableText (padDigits width n) :=
  (isPrintableText_ofList.mpr fun _ => isPrintable_of_mem_zeros).append
    (isPrintableText_toString_nat n)

/-- Digits with an exponent are printable in every layout. -/
theorem Scientific.isPrintableText_text (layout : DecimalLayout) (x : Scientific) :
    IsPrintableText (x.text layout) := by
  have hpoint : isPrintable '.' = true := isPrintable_of_ascii (by decide) (by decide)
  have hdigits : ∀ c ∈ Nat.toDigits 10 x.digits, isPrintable c = true :=
    fun _ => isPrintable_of_mem_toDigits (by decide) (by decide)
  have hzeros (n : Nat) : ∀ c ∈ List.replicate n '0', isPrintable c = true :=
    fun _ => isPrintable_of_mem_zeros
  unfold Scientific.text
  dsimp only
  refine .ite (.append (.append (.append ?mantissa ?mark) (.ite ?minus ?plus))
    (isPrintableText_padDigits _ _)) (.ite (.append ?zero ?fraction)
      (.ite (.append ?whole (.ite ?ending ?none)) ?both))
  case mantissa =>
    split
    · exact isPrintableText_of_ascii (by simp)
    · rename_i hone
      rw [hone] at hdigits
      exact isPrintableText_ofList.mpr hdigits
    · rename_i hmore
      rw [hmore, List.forall_mem_cons] at hdigits
      exact isPrintableText_ofList.mpr (List.forall_mem_cons.mpr
        ⟨hdigits.1, List.forall_mem_cons.mpr ⟨hpoint, hdigits.2⟩⟩)
  case fraction =>
    exact isPrintableText_ofList.mpr (List.forall_mem_append.mpr ⟨hzeros _, hdigits⟩)
  case whole =>
    exact isPrintableText_ofList.mpr (List.forall_mem_append.mpr ⟨hdigits, hzeros _⟩)
  case both =>
    exact isPrintableText_ofList.mpr (List.forall_mem_append.mpr
      ⟨fun c hc => hdigits c (List.mem_of_mem_take hc), List.forall_mem_cons.mpr
        ⟨hpoint, fun c hc => hdigits c (List.mem_of_mem_drop hc)⟩⟩)
  all_goals exact isPrintableText_of_ascii (by simp)

theorem Double.isPrintableText_text (layout : DecimalLayout) (x : Double) :
    IsPrintableText (x.text layout) := by
  have hbody := IsPrintableText.ite (p := x.isInfinite = true)
    (isPrintableText_of_ascii (s := "inf") (by simp)) (x.shortest.isPrintableText_text layout)
  exact .ite (isPrintableText_of_ascii (by simp))
    (.ite (.append (isPrintableText_of_ascii (by simp)) hbody) hbody)

theorem Injector.isPrintableText_probabilityText (v : Value) :
    IsPrintableText (probabilityText v) := by
  unfold probabilityText
  split
  · exact isPrintableText_of_ascii (by simp)
  · exact isPrintableText_of_ascii (by simp)
  · exact isPrintableText_toString _
  · exact Double.isPrintableText_text _ _
  · exact isPrintableText_of_ascii (by simp)

/-! ## The conditions -/

namespace Sentinels

/-- The first conditions of the listing, those with a sentinel in them. -/
def conditions (s : Sentinels) (i : Injector) : List String :=
  ((sentinelTable s i).map Prod.fst).take 6

/-- Sentinels are the same if all of them are written alike. -/
theorem eq_of_texts {s s' : Sentinels} (hpenny : toString s.pennyId = toString s'.pennyId)
    (hupdate : toString s.updateId = toString s'.updateId)
    (hprice : toString s.priceUpdateId = toString s'.priceUpdateId)
    (hdelete : toString s.deleteId = toString s'.deleteId)
    (hlookup : quoted s.pennySymbol = quoted s'.pennySymbol)
    (hcreate : quoted s.testSymbol = quoted s'.testSymbol) : s = s' := by
  cases s
  cases s'
  rw [mk.injEq]
  exact ⟨eq_of_toString hpenny, eq_of_toString hupdate, eq_of_toString hprice,
    eq_of_toString hdelete, quoted_injective hlookup, quoted_injective hcreate⟩

/-- The conditions tell all sentinels apart. -/
theorem eq_of_conditions {s s' : Sentinels} {i i' : Injector}
    (h : s.conditions i = s'.conditions i') : s = s' := by
  simp only [conditions, sentinelTable, List.map_cons, List.take_succ_cons, List.cons.injEq,
    String.append_left_inj, String.append_right_inj] at h
  obtain ⟨hpenny, hupdate, hprice, hdelete, hlookup, hcreate, -⟩ := h
  exact eq_of_texts hpenny hupdate hprice hdelete hlookup hcreate

end Sentinels

theorem isPrintableText_sentinelMessage (purpose : IdPurpose) :
    IsPrintableText (sentinelMessage purpose) := by
  cases purpose <;> exact isPrintableText_of_ascii (by simp [sentinelMessage])

/-- All conditions and messages of the listing are printable, whatever the symbols are. -/
theorem isPrintableText_of_mem_sentinelTable {s : Sentinels} {i : Injector}
    {row : String × String} (hrow : row ∈ sentinelTable s i) :
    IsPrintableText row.1 ∧ IsPrintableText row.2 := by
  have hid {ending : String} (n : Int) (hending : IsPrintableText ending) :
      IsPrintableText ("id == " ++ toString n ++ ending) :=
    ((isPrintableText_of_ascii (by simp)).append (isPrintableText_toString n)).append hending
  simp only [sentinelTable, List.mem_cons, List.not_mem_nil, or_false] at hrow
  rcases hrow with rfl | rfl | rfl | rfl | rfl | rfl | rfl
  · exact ⟨hid _ (isPrintableText_of_ascii (by simp)), isPrintableText_sentinelMessage _⟩
  · exact ⟨hid _ (isPrintableText_of_ascii (by simp)), isPrintableText_sentinelMessage _⟩
  · exact ⟨hid _ (isPrintableText_of_ascii (by simp)), isPrintableText_sentinelMessage _⟩
  · exact ⟨hid _ (isPrintableText_of_ascii (by simp)), isPrintableText_sentinelMessage _⟩
  · exact ⟨(isPrintableText_of_ascii (by simp)).append (isPrintableText_quoted _),
      isPrintableText_of_ascii (by simp [pennyMessage])⟩
  · exact ⟨(isPrintableText_of_ascii (by simp)).append (isPrintableText_quoted _),
      isPrintableText_of_ascii (by simp [testMessage])⟩
  · exact ⟨(isPrintableText_of_ascii (by simp)).append (Injector.isPrintableText_probabilityText _),
      isPrintableText_of_ascii (by simp [bulkMessage])⟩

/-! ## The lines -/

namespace Command

/-- The lines of the listing that come before the rules. -/
def listingHead : List String := ruleLines []

/-- The line of a rule. -/
def ruleLine (row : String × String) : String := "  " ++ row.1 ++ ": " ++ row.2

theorem ruleLines_eq (table : List (String × String)) :
    ruleLines table = listingHead ++ table.map ruleLine := rfl

/-- The lines in which the conditions are printed tell all sentinels apart, as well. -/
theorem eq_of_ruleLines {s s' : Sentinels} {i i' : Injector}
    (h : ((sentinelTable s i).map ruleLine).take 6 =
      ((sentinelTable s' i').map ruleLine).take 6) : s = s' := by
  simp only [sentinelTable, ruleLine, List.map_cons, List.take_succ_cons, List.cons.injEq,
    String.append_left_inj, String.append_right_inj] at h
  obtain ⟨hpenny, hupdate, hprice, hdelete, hlookup, hcreate, -⟩ := h
  exact Sentinels.eq_of_texts hpenny hupdate hprice hdelete hlookup hcreate

theorem isPrintableText_of_mem_stageLines {names : List (String × String)}
    (hnames : ∀ n ∈ names, IsPrintableText n.1) {rank : Nat} {line : String}
    (hline : line ∈ stageLines rank names) : IsPrintableText line := by
  induction names generalizing rank with
  | nil => cases hline
  | cons n names ih =>
    rw [List.forall_mem_cons] at hnames
    rcases List.mem_cons.mp hline with rfl | hline
    · have hrank : IsPrintableText ("  " ++ toString rank) :=
        (isPrintableText_of_ascii (by simp)).append (isPrintableText_toString_nat rank)
      exact (hrank.append (isPrintableText_of_ascii (by simp))).append hnames.1
    · exact ih hnames.2 hline

theorem isPrintableText_of_mem_listingHead {line : String} (hline : line ∈ listingHead) :
    IsPrintableText line := by
  have hnames : ∀ n ∈ stageNames, IsPrintableText n.1 := by
    have hascii : ∀ n ∈ stageNames, ∀ c ∈ n.1.toList, 0x20 ≤ c.toNat ∧ c.toNat < 0x7F := by
      simp [stageNames]
    exact fun n hn => isPrintableText_of_ascii (hascii n hn)
  rcases List.mem_cons.mp hline with rfl | hline
  · exact isPrintableText_of_ascii (by simp)
  · rcases List.mem_append.mp hline with hline | hline
    · exact isPrintableText_of_mem_stageLines hnames hline
    · obtain rfl := List.mem_singleton.mp hline
      exact isPrintableText_of_ascii (by simp)

/-- Everything that the listing of the rules prints is printable. -/
theorem isPrintableText_of_mem_ruleLines {s : Sentinels} {i : Injector} {line : String}
    (hline : line ∈ ruleLines (sentinelTable s i)) : IsPrintableText line := by
  rw [ruleLines_eq, List.mem_append, List.mem_map] at hline
  rcases hline with hline | ⟨row, hrow, rfl⟩
  · exact isPrintableText_of_mem_listingHead hline
  · obtain ⟨hcondition, hmessage⟩ := isPrintableText_of_mem_sentinelTable hrow
    exact (((isPrintableText_of_ascii (by simp)).append hcondition).append
      (isPrintableText_of_ascii (by simp))).append hmessage

/-- What a report prints : every line, with its end. -/
def Report.output (r : Report) : List Char := r.lines.flatMap fun line => line.toList ++ ['\n']

/-- A printable line is printed on one line. -/
theorem Report.splitOnP_output {r : Report} (h : ∀ line ∈ r.lines, IsPrintableText line) :
    r.output.splitOnP isLineBreak = r.lines.map String.toList ++ [[]] := by
  unfold output
  generalize r.lines = lines at h ⊢
  induction lines with
  | nil => rfl
  | cons line lines ih =>
    rw [List.forall_mem_cons] at h
    have hline : ∀ c ∈ line.toList, isLineBreak c = false :=
      fun c hc => isLineBreak_of_isPrintable (h.1 c hc)
    rw [List.flatMap_cons, List.append_assoc, List.singleton_append,
      List.splitOnP_append_cons_of_forall_mem hline '\n' rfl, ih h.2, List.map_cons,
      List.cons_append]

/-! ## What the listing tells -/

/-- The number of decimal digits of an id of the sentinels. -/
def idLength (s : Sentinels) (purpose : IdPurpose) : Nat :=
  (Nat.toDigits 10 (s.idFor purpose).natAbs).length

theorem length_toDigits_pow (k : Nat) : (Nat.toDigits 10 (Nat.pow 10 k)).length = k + 1 := by
  rw [Nat.pow_eq]
  have hmost := (Nat.length_toDigits_le_iff (by decide) (Nat.succ_pos k)).mpr
    (Nat.pow_lt_pow_succ (show 1 < 10 by decide))
  have hleast : ¬(Nat.toDigits 10 (10 ^ k)).length ≤ k := by
    cases k with
    | zero => decide
    | succ k =>
      rw [Nat.length_toDigits_le_iff (by decide) (Nat.succ_pos k)]
      exact Nat.lt_irrefl _
  omega

theorem idLength_of_pow {s : Sentinels} {k : Nat} (h : s.pennyId = (Nat.pow 10 k : Nat)) :
    idLength s .lookup = k + 1 := by
  rw [idLength, Sentinels.idFor, h, Int.natAbs_natCast, length_toDigits_pow]

theorem areWritable_iff (s : Sentinels) :
    s.areWritable = true ↔ ∀ purpose, idLength s purpose ≤ maxIntegerDigits := by
  have hid (n : Int) : integerIsWritable n = true ↔
      (Nat.toDigits 10 n.natAbs).length ≤ maxIntegerDigits := by
    rw [integerIsWritable_iff, Nat.length_toDigits_le_iff (by decide) (by decide)]
  simp only [Sentinels.areWritable, List.all_cons, List.all_nil, Bool.and_true, Bool.and_eq_true,
    hid]
  constructor
  · rintro ⟨hpenny, hupdate, hprice, hdelete⟩ purpose
    cases purpose <;> assumption
  · intro h
    exact ⟨h .lookup, h .update, h .priceUpdate, h .delete⟩

/-- What a command for the rules prints under settings : after the stages one line for each rule,
unless an id has more digits than the text of an integer may have, and then nothing is listed. -/
structure PrintsRules (s : Settings) (report : Except RunError Report) : Prop where
  listed : (∀ purpose, idLength s.assessment.sentinels purpose ≤ maxIntegerDigits) →
    ∃ told i, report = .ok told ∧ told.exitCode = 0 ∧ told.error = none ∧
      i.given = .float s.assessment.bulkFailureProbability ∧
      told.lines = listingHead ++ (sentinelTable s.assessment.sentinels i).map ruleLine ∧
      told.output.splitOnP isLineBreak = told.lines.map String.toList ++ [[]]
  unlisted : ∀ purpose, maxIntegerDigits < idLength s.assessment.sentinels purpose →
    report = .error .unwritableNumber

/-- Under settings with a probability the rules are listed, if their ids can be written. -/
theorem exists_run_rules {s : Settings}
    (hs : Injector.isProbability (.real s.assessment.bulkFailureProbability))
    (source environment : SettingsSource) (clock : Clock) (seed : Int) :
    ∃ i : Injector, i.given = .float s.assessment.bulkFailureProbability ∧
      Action.rules.run s source environment clock seed =
        if s.assessment.sentinels.areWritable then
          .ok (.listed (sentinelTable s.assessment.sentinels i))
        else .error .unwritableNumber := by
  let draws := RandomSource.ofSeed (s.assessment.randomSeed.getD seed)
  obtain ⟨a, ha, hnew⟩ := Assessor.exists_ofSettings hs draws
  refine ⟨a.injector, ?_, ?_⟩
  · rw [(Injector.ofValue_eq_ok_iff.mp hnew.injector).2]
  · change (Except.mapError _ (Assessor.ofSettings s.assessment draws)).bind _ = _
    rw [ha]
    -- What is written has nothing to do with how long the ids may be.
    generalize s.assessment.sentinels.areWritable = writable
    rfl

/-- Every command line that asks for the rules has them printed, under the settings that it leads
to. -/
theorem printsRules_ofArguments {args : List String} {source : SettingsSource}
    (hread : Invocation.read args = .ok ⟨source, .rules⟩) {fs : Files}
    {environment : SettingsSource} {s : Settings}
    (hs : Settings.resolve fs (source.orElse environment) = .ok s) (program : String)
    (clock : Clock) (seed : Int) :
    PrintsRules s (Report.ofArguments program args fs environment clock seed) := by
  obtain ⟨i, hgiven, hrun⟩ :=
    exists_run_rules (Settings.isProbability_of_resolve hs) source environment clock seed
  have hreport : Report.ofArguments program args fs environment clock seed =
      (Action.rules.run s source environment clock seed).bind Report.ofOutcome := by
    rw [Report.ofArguments, hread]
    simp only [Invocation.run, hs]
  rw [hreport, hrun]
  refine ⟨fun hshort => ?_, fun purpose hlong => ?_⟩
  · rw [if_pos ((areWritable_iff _).mpr hshort)]
    exact ⟨_, i, rfl, rfl, rfl, hgiven, ruleLines_eq _,
      Report.splitOnP_output fun _ => isPrintableText_of_mem_ruleLines⟩
  · have hunwritable : ¬s.assessment.sentinels.areWritable = true := fun h =>
      absurd ((areWritable_iff _).mp h purpose) (Nat.not_le.mpr hlong)
    rw [if_neg hunwritable]
    rfl

/-- What the listing of the rules tells of sentinels. -/
structure TellsRules (s : Sentinels) : Prop where
  /-- No other sentinels have the same conditions, and so none for which the same is rejected. -/
  tellsApart : ∀ s' i i', s.conditions i = s'.conditions i' → s = s' ∧ ∀ o, s.hit? o = s'.hit? o
  /-- Nor is the same printed of any others. -/
  printsApart : ∀ s' i i', ((sentinelTable s i).map ruleLine).take 6 =
    ((sentinelTable s' i').map ruleLine).take 6 → s = s'
  /-- No condition has a character in it that ends a line or controls the output. -/
  oneLine : ∀ i, ∀ row ∈ sentinelTable s i, ∀ c ∈ row.1.toList,
    isLineBreak c = false ∧ isControl c = false
  printed : ∀ args source fs environment settings program clock seed,
    Invocation.read args = .ok ⟨source, .rules⟩ →
    Settings.resolve fs (source.orElse environment) = .ok settings →
    settings.assessment.sentinels = s →
      PrintsRules settings (Report.ofArguments program args fs environment clock seed)

/-- The listing tells apart whatever sentinels there are, and prints each of their rules on one
line. -/
theorem tellsRules (s : Sentinels) : TellsRules s where
  tellsApart _ _ _ h := by
    obtain rfl := Sentinels.eq_of_conditions h
    exact ⟨rfl, fun _ => rfl⟩
  printsApart _ _ _ h := eq_of_ruleLines h
  oneLine i row hrow c hc := by
    have hprintable := (isPrintableText_of_mem_sentinelTable hrow).1 c hc
    exact ⟨isLineBreak_of_isPrintable hprintable, isControl_of_isPrintable hprintable⟩
  printed _ _ _ _ _ program clock seed hread hs _ :=
    printsRules_ofArguments hread hs program clock seed

/-- A file sets a symbol with quotes of both kinds and a line break in it. A command line that names
the file has 18 lines printed, one of them for this symbol. -/
theorem tellsRules_of_quotes :
    let document := "pipeline:\n  sentinels:\n    penny_symbol: \"it's\\n\\\"A\\\"\"\n"
    let fs : Files := { texts := [(["c.yaml"], document)] }
    let args := ["--config", "c.yaml", "rules"]
    let source : SettingsSource := ⟨some "c.yaml", none⟩
    let s : Sentinels := { pennySymbol := "it's\n\"A\"" }
    let clock : Clock := ⟨⟨⟨2024, 2, 29⟩, 0, 0, 0, 0, none⟩, Double.zero⟩
    ∃ settings told, Invocation.read args = .ok ⟨source, .rules⟩ ∧
      Settings.resolve fs (source.orElse {}) = .ok settings ∧
      settings.assessment.sentinels = s ∧
      Report.ofArguments "stock-inventory" args fs {} clock 0 = .ok told ∧
      "  symbol == 'it\\'s\\n\"A\"': penny stock not recommended" ∈ told.lines ∧
      told.lines.length = 18 ∧
      told.output.splitOnP isLineBreak = told.lines.map String.toList ++ [[]] := by
  intro document fs args source s clock
  have hread : Invocation.read args = .ok ⟨source, .rules⟩ := rfl
  have hsentinels : (Settings.resolve fs (source.orElse {})).toOption.map
      (·.assessment.sentinels) = some s := by decide +kernel
  obtain ⟨settings, hs, hset⟩ : ∃ settings, Settings.resolve fs (source.orElse {}) = .ok settings ∧
      settings.assessment.sentinels = s := by
    cases hs : Settings.resolve fs (source.orElse {}) with
    | error e =>
      rw [hs] at hsentinels
      cases hsentinels
    | ok settings =>
      rw [hs] at hsentinels
      exact ⟨settings, rfl, Option.some.inj hsentinels⟩
  have hshort : ∀ purpose, idLength settings.assessment.sentinels purpose ≤ maxIntegerDigits := by
    rw [hset]
    exact (areWritable_iff s).mp (by decide +kernel)
  obtain ⟨told, i, htold, -, -, -, hlines, hsplit⟩ :=
    ((tellsRules s).printed args source fs {} settings "stock-inventory" clock 0 hread hs
      hset).listed hshort
  rw [hset] at hlines
  refine ⟨settings, told, hread, hs, hset, htold, ?_, ?_, hsplit⟩
  · have hline : ruleLine ("symbol == " ++ quoted s.pennySymbol, pennyMessage) =
        "  symbol == 'it\\'s\\n\"A\"': penny stock not recommended" := by decide +kernel
    have hrow : ("symbol == " ++ quoted s.pennySymbol, pennyMessage) ∈ sentinelTable s i := by
      simp only [sentinelTable, List.mem_cons, true_or, or_true]
    rw [hlines, ← hline]
    exact List.mem_append_right _ (List.mem_map_of_mem hrow)
  · rw [hlines, List.length_append, List.length_map]
    rfl

/-- Settings with an id of 4301 digits can be read, but no listing of the rules can be written under
them. -/
theorem not_listed_of_long_id :
    let v : Value := .object [("pipeline", .object [("sentinels",
      .object [("penny_id", .int (Nat.pow 10 4300))])])]
    ∃ s, Settings.read v = .ok s ∧ idLength s.assessment.sentinels .lookup = 4301 ∧
      ∀ source environment clock seed,
        Action.rules.run s source environment clock seed = .error .unwritableNumber := by
  intro v
  have hid : (Settings.ofValue v).toOption.map (·.assessment.sentinels.pennyId) =
      some (Nat.pow 10 4300 : Nat) := by decide +kernel
  unfold Settings.ofValue at hid
  cases hread : Settings.read v with
  | bad problems =>
    rw [hread] at hid
    cases hid
  | ok s =>
    rw [hread] at hid
    -- With the exponent as a variable nothing that follows computes the power.
    generalize hk : 4300 = k at hid
    have hlength : idLength s.assessment.sentinels .lookup = 4301 := by
      rw [idLength_of_pow (Option.some.inj hid), ← hk]
    refine ⟨s, rfl, hlength, fun source environment clock seed => ?_⟩
    obtain ⟨i, -, hrun⟩ :=
      exists_run_rules (Settings.isProbability_of_read hread) source environment clock seed
    have hunwritable : ¬s.assessment.sentinels.areWritable = true := fun h => by
      have hshort := (areWritable_iff _).mp h .lookup
      rw [hlength] at hshort
      exact absurd hshort (by decide)
    rw [hrun, if_neg hunwritable]

end Command

end StockRegister
