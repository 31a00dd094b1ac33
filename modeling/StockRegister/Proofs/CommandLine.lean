import StockRegister.Command.Run
import StockRegister.Proofs.Answers
import StockRegister.Proofs.Integers
import StockRegister.Proofs.RunEvents
import StockRegister.Proofs.Starting

/-!
# Checks at the command line

A check at the command line and an errand at the desk make their operands each in a way of its
own. `Command.StandsFor` says which errands a check stands for : those of its operation that are
given what was typed, as an integer, as a text or as the details of a record. Both then assess one
operand (`Command.operand_of_standsFor`), so that under the same settings the check tells the
verdict with which the desk rejects the errand, or lets it proceed.

An integer is read back from its decimal text (`typedInteger_toString`), as far as there may be so
many digits. What is typed for an id and is no integer is misused, and nothing is assessed.

`Command.Report.Tells` says how a report words a verdict. `Command.Agrees` puts together what the
report of a check has to do with the errands that it stands for, and
`Command.Report.agrees_ofArguments` proves it of every command line that is read as a check.
-/

namespace StockRegister

/-! ## Typed integers -/

namespace Text

theorem strip_of_forall {p : Char → Bool} {cs : List Char} (h : ∀ c ∈ cs, p c = false) :
    strip p cs = cs := by
  have hdrop {cs : List Char} (h : ∀ c ∈ cs, p c = false) : cs.dropWhile p = cs := by
    cases cs with
    | nil => rfl
    | cons c cs =>
      rw [List.dropWhile_cons, h c List.mem_cons_self, if_neg Bool.false_ne_true]
  have hreverse : ∀ c ∈ cs.reverse, p c = false := fun c hc => h c (List.mem_reverse.mp hc)
  rw [strip, hdrop h, hdrop hreverse, List.reverse_reverse]

theorem toNat_of_isDigit {c : Char} (h : c.isDigit = true) : 48 ≤ c.toNat ∧ c.toNat ≤ 57 := by
  simpa [Char.isDigit, UInt32.le_iff_toNat_le] using h

theorem isSpaceChar_of_isDigit {c : Char} (h : c.isDigit = true) : isSpaceChar c = false := by
  obtain ⟨hlow, hhigh⟩ := toNat_of_isDigit h
  simp [isSpaceChar, isSpacePoint]
  omega

end Text

theorem digitIn?_of_isDigit {c : Char} (h : c.isDigit = true) :
    digitIn? 10 c = some (c.toNat - 48) := by
  obtain ⟨-, hhigh⟩ := Text.toNat_of_isDigit h
  have hlt : c.toNat - 48 < 10 := by omega
  rw [digitIn?, Text.digit?_of_isDigit h, Text.asciiDigit?, if_pos h, Option.some_or,
    Option.filter_some, if_pos (decide_eq_true hlt)]

/-- Digits without underscores between them. -/
theorem separatedDigits_of_isDigit {cs : List Char} (hne : cs ≠ [])
    (h : ∀ c ∈ cs, c.isDigit = true) :
    separatedDigits (digitIn? 10) cs = some (cs.map fun c => c.toNat - 48) := by
  induction cs with
  | nil => contradiction
  | cons c cs ih =>
    have hc := digitIn?_of_isDigit (h c List.mem_cons_self)
    have hcs : ∀ c ∈ cs, c.isDigit = true := fun c hc => h c (List.mem_cons_of_mem _ hc)
    cases cs with
    | nil => simp only [separatedDigits, hc, Option.map_some, List.map_cons, List.map_nil]
    | cons d cs =>
      have hd : d ≠ '_' := by
        rintro rfl
        exact absurd (hcs _ List.mem_cons_self) (by decide)
      rw [separatedDigits, hc, ih (List.cons_ne_nil _ _) hcs]
      · rfl
      · simp
      · simpa using fun h => hd h

theorem splitSign_of_isDigit {cs : List Char} (h : ∀ c ∈ cs, c.isDigit = true) :
    splitSign cs = (false, cs) := by
  unfold splitSign
  split
  · exact absurd (h _ List.mem_cons_self) (by decide)
  · exact absurd (h _ List.mem_cons_self) (by decide)
  · rfl

theorem withoutBaseMark_ten (cs : List Char) : withoutBaseMark 10 cs = cs := by
  unfold withoutBaseMark
  split
  · rfl
  · rfl

theorem ofDigits_toDigits (n : Nat) :
    Text.ofDigits 10 ((Nat.toDigits 10 n).map fun c => c.toNat - 48) = n := by
  have hread := Nat.ofDigitChars_ten_toDigits (n := n)
  rw [Nat.ofDigitChars_eq_foldl] at hread
  simp only [Nat.mul_comm 10] at hread
  rw [Text.ofDigits, List.foldl_map]
  exact hread

/-- The decimal text of a natural number is digits, which are those of the number. -/
theorem separatedDigits_toDigits (n : Nat) :
    ∃ ds, separatedDigits (digitIn? 10) (Nat.toDigits 10 n) = some ds ∧
      ds.length = (Nat.toDigits 10 n).length ∧ Text.ofDigits 10 ds = n := by
  have hdigit (c : Char) (hc : c ∈ Nat.toDigits 10 n) : c.isDigit = true :=
    Nat.isDigit_of_mem_toDigits (by decide) (by decide) hc
  exact ⟨_, separatedDigits_of_isDigit Nat.toDigits_ne_nil hdigit, List.length_map _,
    ofDigits_toDigits n⟩

/-- The decimal text of an integer is that of its size, behind a sign if it is negative. -/
theorem toList_toString (n : Int) :
    (toString n).toList = (if n < 0 then ['-'] else []) ++ Nat.toDigits 10 n.natAbs := by
  cases n with
  | ofNat m => exact Nat.toList_repr
  | negSucc m =>
    change ("-" ++ Nat.repr (m + 1)).toList = _
    rw [String.toList_append, Nat.toList_repr, if_pos (Int.negSucc_lt_zero m), Int.natAbs_negSucc]
    rfl

theorem splitSign_toString (n : Int) :
    splitSign (toString n).toList = (decide (n < 0), Nat.toDigits 10 n.natAbs) := by
  rw [toList_toString]
  split_ifs with hsign
  · rw [decide_eq_true hsign]
    rfl
  · rw [decide_eq_false hsign]
    exact splitSign_of_isDigit fun c hc => Nat.isDigit_of_mem_toDigits (by decide) (by decide) hc

/-- A decimal text has no white space. -/
theorem isSpaceChar_of_mem_toString {n : Int} {c : Char} (hc : c ∈ (toString n).toList) :
    Text.isSpaceChar c = false := by
  rw [toList_toString, List.mem_append] at hc
  rcases hc with hsign | hdigit
  · have hminus : c = '-' := by
      split_ifs at hsign
      · exact List.mem_singleton.mp hsign
      · cases hsign
    rw [hminus]
    decide
  · exact Text.isSpaceChar_of_isDigit (Nat.isDigit_of_mem_toDigits (by decide) (by decide) hdigit)

theorem signedInt_natAbs (n : Int) : signedInt (decide (n < 0)) n.natAbs = n := by
  unfold signedInt
  split_ifs with hsign
  · rw [decide_eq_true_eq] at hsign
    omega
  · rw [decide_eq_true_eq] at hsign
    omega

/-- An integer is read back from its decimal text, unless that has more digits than it may have. -/
theorem typedInteger_toString {n : Int} (hn : integerIsWritable n = true) :
    typedInteger (toString n) = some n := by
  obtain ⟨ds, hds, hlength, hvalue⟩ := separatedDigits_toDigits n.natAbs
  have hshort : ds.length ≤ maxIntegerDigits := by
    rw [hlength, Nat.length_toDigits_le_iff (by decide) (by decide)]
    exact (integerIsWritable_iff n).mp hn
  rw [typedInteger, typedIntegerIn,
    Text.strip_of_forall fun _ => isSpaceChar_of_mem_toString, splitSign_toString]
  simp only [withoutBaseMark_ten, hds, hvalue]
  rw [if_neg (by simpa using hshort), signedInt_natAbs]

/-- The decimal text of an integer, however long it is, is that of no other. -/
theorem eq_of_toString {n m : Int} (h : toString n = toString m) : n = m := by
  have hsplit := congrArg (fun s : String => splitSign s.toList) h
  simp only [splitSign_toString, Prod.mk.injEq] at hsplit
  obtain ⟨hsign, hdigits⟩ := hsplit
  have hsize : n.natAbs = m.natAbs := by
    rw [← ofDigits_toDigits n.natAbs, hdigits, ofDigits_toDigits]
  rw [← signedInt_natAbs n, hsign, hsize, signedInt_natAbs]

/-! ## Settings -/

/-- No settings that a source leads to have a probability that the injector refuses. -/
theorem Settings.isProbability_of_resolve {fs : Files} {source : SettingsSource} {s : Settings}
    (h : Settings.resolve fs source = .ok s) :
    Injector.isProbability (.real s.assessment.bulkFailureProbability) := by
  have hvalue {v : Value} (hv : Settings.ofValue v = .ok s) :
      Injector.isProbability (.real s.assessment.bulkFailureProbability) := by
    unfold Settings.ofValue at hv
    split at hv
    · rename_i hread
      cases hv
      exact Settings.isProbability_of_read hread
    · cases hv
  unfold Settings.resolve at h
  split at h
  · cases h
    exact AssessmentSettings.isProbability_default
  · unfold Settings.load at h
    obtain ⟨document, -, h⟩ := exists_of_bind_eq_ok h
    split at h
    · exact hvalue h
    · obtain ⟨top, -, h⟩ := exists_of_bind_eq_ok h
      obtain ⟨whole, -, h⟩ := exists_of_bind_eq_ok h
      exact hvalue h

/-- A desk that opens has an assessor that the settings describe. -/
theorem Desk.assessor_of_start {s : Settings} {fs : Files} {draws : Option RandomSource}
    {clock : Clock} {d : Desk} (h : start s fs draws clock = .ok d) :
    Assessor.ofSettings s.assessment (s.assessment.source draws) = .ok d.assessor := by
  unfold start at h
  cases ha : Assessor.ofSettings s.assessment (s.assessment.source draws) with
  | error e =>
    rw [ha] at h
    cases h
  | ok a =>
    rw [ha] at h
    dsimp only at h
    split at h
    · cases h
      rfl
    · unfold addSeedFile at h
      split at h
      · cases h
      · split at h
        · cases h
        · rename_i hseeds
          obtain rfl := eq_of_addSeeds hseeds
          cases h
          rfl

namespace Command

/-! ## Operands -/

open Desk

/-- The errands that a check stands for : those of its operation that are given what was typed, an
id as the integer that it is, or null if nothing was typed. -/
inductive StandsFor (value companyName : Option String) : Operation → Errand → Prop
  | lookupById {id : Option Int} : readId value = .ok id →
      StandsFor value companyName .lookupById (.getStock (.ofInt? id))
  | lookupBySymbol : StandsFor value companyName .lookupBySymbol
      (.getStockBySymbol (.ofText? (value.map Text.ofString)))
  | bulkLookup {r : Errand} : r.isCollectionRead = true →
      StandsFor value companyName .bulkLookup r
  | create : StandsFor value companyName .create
      (.createStock (some ⟨value.map Text.ofString, companyName.map Text.ofString, none, none,
        none, none, none⟩))
  | update {id : Option Int} (details : StockDetails) : readId value = .ok id →
      StandsFor value companyName .update (.updateStock (.ofInt? id) details)
  | priceUpdate {id : Option Int} (p : PriceUpdate) : readId value = .ok id →
      StandsFor value companyName .priceUpdate (.updateStockPrice (.ofInt? id) p)
  | delete {id : Option Int} : readId value = .ok id →
      StandsFor value companyName .delete (.deleteStock (.ofInt? id))

variable {op : Operation} {value companyName : Option String}

theorem ofValue_ofInt? (op : Operation) {purpose : IdPurpose}
    (hop : op.operandShape = (.entity, some purpose)) (id : Option Int) :
    Operand.ofValue op (.ofInt? id) = .ok (.entity id purpose) := by
  rw [Operand.ofValue, hop]
  cases id <;> rfl

/-- A check and an errand that it stands for are about the same operand. -/
theorem operand_of_standsFor {r : Errand} (h : StandsFor value companyName op r) :
    ∃ o, checkOperand op value companyName = .ok o ∧ r.operand = .ok o ∧ op.IsAbout o := by
  have hid {op : Operation} {purpose : IdPurpose} {id : Option Int}
      (hop : op.operandShape = (.entity, some purpose)) (hid : readId value = .ok id) :
      checkOperand op value companyName = .ok (.entity id purpose) := by
    rw [checkOperand, hop]
    simp only [hid]
    rfl
  cases h with
  | lookupById h => exact ⟨_, hid rfl h, ofValue_ofInt? .lookupById rfl _, rfl, rfl⟩
  | lookupBySymbol =>
    refine ⟨_, rfl, ?_, rfl, rfl⟩
    cases value <;> rfl
  | bulkLookup h => exact ⟨_, rfl, r.operand_eq_ok_bulk_iff.mpr h, rfl, rfl⟩
  | create => exact ⟨_, rfl, rfl, rfl, rfl⟩
  | update details h => exact ⟨_, hid rfl h, ofValue_ofInt? .update rfl _, rfl, rfl⟩
  | priceUpdate p h => exact ⟨_, hid rfl h, ofValue_ofInt? .priceUpdate rfl _, rfl, rfl⟩
  | delete h => exact ⟨_, hid rfl h, ofValue_ofInt? .delete rfl _, rfl, rfl⟩

/-! ## Reports -/

/-- A report tells a verdict : by its exit code, and in words. -/
inductive Report.Tells : Report → Verdict → Prop
  | proceed : Tells { exitCode := 0, lines := ["PROCEED"] } .proceed
  | rejected {r : Rejection} (stage message : String) : r.stageName = stage → r.message = message →
      Tells
        { exitCode := 1
          lines := ["REJECTED stage=" ++ toString r.stageRank ++ " (" ++ stage ++ ") kind=" ++
            r.failure.name ++ ": " ++ message] }
        (.rejected r)

/-- A verdict of strings can be told. -/
theorem exists_tells {v : Verdict} (hv : ∀ r, v = .rejected r →
    ∃ stage message : String, r.stageName = stage ∧ r.message = message) :
    ∃ report, Report.ofOutcome (.assessed v) = .ok report ∧ report.Tells v := by
  cases v with
  | proceed => exact ⟨_, rfl, .proceed⟩
  | rejected r =>
    obtain ⟨stage, message, hstage, hmessage⟩ := hv r rfl
    refine ⟨_, ?_, .rejected stage message hstage hmessage⟩
    simp only [Report.ofOutcome, Report.ofLines, verdictLine, hstage, hmessage,
      Text.ofString_append, List.mapM_cons, Text.toString?_ofString]
    simp [Verdict.isRejected, String.append_assoc]

/-- The two checks name the stage and what is wrong in strings. -/
theorem exists_strings_of_twoChecks {s : AssessmentSettings} {draw : Double} {o : Operand}
    {r : Rejection} (h : s.twoChecks draw o = .rejected r) :
    ∃ stage message : String, r.stageName = stage ∧ r.message = message := by
  unfold AssessmentSettings.twoChecks at h
  split_ifs at h
  · split at h
    · cases h
    · cases h
      exact ⟨_, _, rfl, rfl⟩
  · cases h
    exact ⟨_, _, rfl, rfl⟩

/-- A value makes an operand, unless it is for an id and is no integer. -/
theorem checkOperand_cases (op : Operation) (value companyName : Option String) :
    (∃ o, checkOperand op value companyName = .ok o) ∨
      ∃ text, op.operandShape.1 = .entity ∧ value = some text ∧ typedInteger text = none := by
  unfold checkOperand
  split
  · rename_i hshape
    cases value with
    | none => exact Or.inl ⟨_, rfl⟩
    | some text =>
      cases htext : typedInteger text with
      | none => exact Or.inr ⟨text, congrArg Prod.fst hshape, rfl, htext⟩
      | some n =>
        rw [readId, htext]
        exact Or.inl ⟨_, rfl⟩
  · exact Or.inl ⟨_, rfl⟩
  · exact Or.inl ⟨_, rfl⟩
  · exact Or.inl ⟨_, rfl⟩

/-- What is typed for an id and is no integer is misused, and the trail shows no run. -/
theorem checkRequest_of_no_integer {text : String} (hop : op.operandShape.1 = .entity)
    (htext : typedInteger text = none) (a : Assessor) (clock : Clock)
    (companyName : Option String) (t : Trail) :
    checkRequest a clock op (some text) companyName t = (.misused (.notId text), t) := by
  have hoperand : checkOperand op (some text) companyName = .error (.notId text) := by
    obtain ⟨purpose, hshape⟩ : ∃ purpose, op.operandShape = (.entity, purpose) :=
      ⟨_, Prod.ext hop rfl⟩
    rw [checkOperand, hshape]
    simp only [readId, htext]
    rfl
  rw [checkRequest, hoperand]

/-- What the report of a check has to do with the desks that open under the same settings. What is
typed for an id and is no integer is misused, and nothing is assessed. Anything else has a verdict,
which the report tells, and which every errand that the check stands for meets at every such desk,
whatever was done there before. Only a read of the whole collection has to be the first one there,
with draws from the same seed. -/
structure Agrees (s : Settings) (seed : Int) (op : Operation) (value companyName : Option String)
    (report : Except RunError Report) : Prop where
  notId : ∀ text, op.operandShape.1 = .entity → value = some text → typedInteger text = none →
    report = .ok { exitCode := 2, error := some (.notId text) } ∧
      ∀ a clock t, checkRequest a clock op value companyName t = (.misused (.notId text), t)
  verdict : (∀ text, op.operandShape.1 = .entity → value = some text → typedInteger text ≠ none) →
    ∃ v told, report = .ok told ∧ told.Tells v ∧
      (op = .bulkLookup → v = s.assessment.bulkVerdict
        (RandomSource.ofSeed (s.assessment.randomSeed.getD seed)).next.1) ∧
      ∀ r, StandsFor value companyName op r → ∀ fs draws clock d,
        Desk.start s fs draws clock = .ok d → ∀ errands,
          (op = .bulkLookup → countReads errands = 0 ∧ s.assessment.source draws =
            RandomSource.ofSeed (s.assessment.randomSeed.getD seed)) →
          ∀ clock', rejection? ((d.after errands).handle clock' r).2 = v.rejection?
  decimal : ∀ n : Int, integerIsWritable n = true → readId (some (toString n)) = .ok (some n)

/-- An errand is rejected as its operand is with a draw, which has to be the next one there if the
errand reads the whole collection. -/
theorem rejection?_after {s : AssessmentSettings} {d : Desk} (hd : d.assessor.Follows s)
    {r : Errand} {o : Operand} (hr : r.operand = .ok o) (errands : List (Clock × Errand))
    {draw : Double} (hdraw : o = .bulk → countReads errands = 0 ∧ d.assessor.nextDraw = draw)
    (clock : Clock) :
    rejection? ((d.after errands).handle clock r).2 = (s.twoChecks draw o).rejection? := by
  have hafter := follows_after hd errands
  rw [(assessed_handle hafter clock r).rejection?, hr, AssessmentSettings.rejection?]
  by_cases hbulk : o = .bulk
  · obtain ⟨hcount, hnext⟩ := hdraw hbulk
    have hdrawn : (d.after errands).assessor.nextDraw = d.assessor.nextDraw := by
      rw [assessor_after hd, hcount]
      rfl
    rw [hdrawn, hnext]
  · rw [s.twoChecks_of_ne_bulk hbulk]

/-- Every command line that is read as a check agrees with the desks that open under the settings
that it leads to. -/
theorem Report.agrees_ofArguments {args : List String} {source : SettingsSource}
    (hread : Invocation.read args = .ok ⟨source, .check op value companyName⟩) {fs : Files}
    {environment : SettingsSource} {s : Settings}
    (hs : Settings.resolve fs (source.orElse environment) = .ok s) (program : String)
    (clock : Clock) (seed : Int) :
    Agrees s seed op value companyName
      (Report.ofArguments program args fs environment clock seed) := by
  let draws := RandomSource.ofSeed (s.assessment.randomSeed.getD seed)
  obtain ⟨a, ha, -⟩ := Assessor.exists_ofSettings (Settings.isProbability_of_resolve hs) draws
  have hfollows := Assessor.follows_ofSettings ha
  have hnext : a.nextDraw = draws.next.1 := by
    rw [Assessor.nextDraw, (Assessor.injector_of_ofSettings ha).1]
  have hreport : Report.ofArguments program args fs environment clock seed =
      Report.ofOutcome (checkRequest a clock op value companyName {}).1 := by
    rw [Report.ofArguments, hread]
    simp only [Invocation.run, hs, Action.run]
    change ((Except.mapError _ (Assessor.ofSettings s.assessment draws)).map _).bind _ = _
    rw [ha]
    rfl
  rw [hreport]
  refine ⟨fun text hop hvalue htext => ?_, fun hvalue => ?_, fun n hn => ?_⟩
  · subst hvalue
    have hrequest (a : Assessor) (clock : Clock) (t : Trail) :=
      checkRequest_of_no_integer hop htext a clock companyName t
    refine ⟨?_, hrequest⟩
    rw [hrequest]
    rfl
  · rcases checkOperand_cases op value companyName with ⟨o, ho⟩ | ⟨text, hop, htyped, htext⟩
    · obtain ⟨t, hassess⟩ := Assessor.conclude_eq_twoChecks hfollows clock op o {}
      have hverdict : (checkRequest a clock op value companyName {}).1 =
          .assessed (s.assessment.twoChecks a.nextDraw o) := by
        rw [checkRequest, ho]
        simp only [hassess]
      have hstrings (r : Rejection) (hr : s.assessment.twoChecks a.nextDraw o = .rejected r) :=
        exists_strings_of_twoChecks hr
      obtain ⟨told, htold, htells⟩ := exists_tells hstrings
      refine ⟨_, told, hverdict ▸ htold, htells, ?_, ?_⟩
      · rintro rfl
        obtain rfl := Except.ok.inj ho
        rw [s.assessment.twoChecks_bulk, hnext]
      · intro r hr fs' draws' clock' d hd errands hbulk clock''
        obtain ⟨o', ho', hoperand, habout⟩ := operand_of_standsFor hr
        obtain rfl := Except.ok.inj (ho.symm.trans ho')
        have hassessor := Desk.assessor_of_start hd
        refine rejection?_after (Assessor.follows_ofSettings hassessor) hoperand errands
          (fun ho => ?_) clock''
        have hop : op = .bulkLookup := by
          have htype := habout.type
          rw [ho] at htype
          cases op <;> first
            | rfl
            | cases htype
        obtain ⟨hcount, hsource⟩ := hbulk hop
        refine ⟨hcount, ?_⟩
        rw [hnext, Assessor.nextDraw, (Assessor.injector_of_ofSettings hassessor).1, hsource]
    · exact absurd htext (hvalue text hop htyped)
  · rw [readId, typedInteger_toString hn]

/-- Under the default settings the id 999 is rejected at the command line, with white space around
it, as it is at the desk. With a letter in it it is no integer. -/
theorem Report.agrees_ofArguments_of_padded_id :
    let clock : Clock := ⟨⟨⟨2024, 2, 29⟩, 0, 0, 0, 0, none⟩, Double.zero⟩
    let report (value : String) :=
      Report.ofArguments "stock-inventory" ["check", "lookup_by_id", value] {} {} clock 0
    Settings.resolve {} (({} : SettingsSource).orElse {}) = .ok {} ∧
      (∃ v told, report " 999 " = .ok told ∧ told.Tells v ∧ told.exitCode = 1 ∧
        ∃ d, Desk.start {} {} none clock = .ok d ∧
          rejection? (d.handle clock (.getStock (.int 999))).2 = v.rejection?) ∧
      report "9x9" = .ok { exitCode := 2, error := some (.notId "9x9") } := by
  intro clock report
  have hread (value : String) (hvalue : value = " 999 " ∨ value = "9x9") :
      Invocation.read ["check", "lookup_by_id", value] =
        .ok ⟨{}, .check .lookupById (some value) none⟩ := by
    rcases hvalue with rfl | rfl <;> rfl
  have hs : Settings.resolve {} (({} : SettingsSource).orElse {}) = .ok {} := rfl
  obtain ⟨-, hverdict, -⟩ :=
    Report.agrees_ofArguments (hread " 999 " (Or.inl rfl)) hs "stock-inventory" clock 0
  obtain ⟨hmisused, -, -⟩ :=
    Report.agrees_ofArguments (hread "9x9" (Or.inr rfl)) hs "stock-inventory" clock 0
  have htyped : typedInteger " 999 " = some 999 := by decide +kernel
  have hid : readId (some " 999 ") = .ok (some 999) := by rw [readId, htyped]
  obtain ⟨v, told, htold, htells, -, hdesk⟩ := hverdict fun text _ htext => by
    obtain rfl := Option.some.inj htext
    rw [htyped]
    nofun
  obtain ⟨d, hd⟩ : ∃ d, Desk.start {} {} none clock = .ok d := ⟨_, rfl⟩
  have hrejection := hdesk _ (.lookupById hid) {} none clock d hd [] nofun clock
  have hobjection : rejection? (d.handle clock (.getStock (.int 999))).2 =
      some ⟨9, "recommendation", .domain, "penny stock not recommended"⟩ := by
    cases hd
    rfl
  refine ⟨hs, ⟨v, told, htold, htells, ?_, d, hd, hrejection⟩, ?_⟩
  · cases htells with
    | proceed => cases hobjection.symm.trans hrejection
    | rejected => rfl
  · exact (hmisused "9x9" rfl rfl (by decide +kernel)).1

end Command

end StockRegister
