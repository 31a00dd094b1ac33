import StockRegister.Proofs.Fields
import StockRegister.Proofs.RunEvents
import StockRegister.Startup

/-!
# Settings that open a desk

The probability of random failures is checked twice : when settings are read
(`AssessmentSettings.readProbability`), and again when the injector is made
(`Injector.isProbability`). Both let through the same numbers
(`readProbability_eq_ok_iff`), so no settings that were read are refused later
(`isProbability_of_read`). The stages of the table have the ranks that an assessor must have, and
the level of a log is one that a trail may start from.

A desk is new (`Desk.IsNew`) if it has the nine stages, the injector and the length of top lists
that its settings describe, and no records. `start_of_read` says that all settings that were read
and name no file of records open a new desk.
-/

namespace StockRegister

open Schema

/-! ## The probability -/

theorem Double.ofInt_zero : Double.ofInt 0 = Double.zero := by decide

theorem Double.ofInt_one : Double.ofInt 1 = Double.one := by decide

namespace AssessmentSettings

/-- The two checks of a probability let through the same numbers. -/
theorem readProbability_eq_ok_iff {v : Value} {p : Double} :
    readProbability v = .ok p ↔ readNumber v = .ok p ∧ Injector.isProbability (.real p) := by
  simp only [readProbability, Injector.isProbability, Checked.bind_eq_ok, numberAtMost_eq_ok,
    numberAtLeast_eq_ok, Double.ofInt_zero, Double.ofInt_one, Bool.and_eq_true]
  constructor
  · rintro ⟨x, ⟨y, hread, hmost, rfl⟩, hleast, rfl⟩
    exact ⟨hread, hleast, hmost⟩
  · rintro ⟨hread, hleast, hmost⟩
    exact ⟨p, ⟨p, hread, hmost, rfl⟩, hleast, rfl⟩

theorem isProbability_default :
    Injector.isProbability (.real ({} : AssessmentSettings).bulkFailureProbability) := by
  decide +kernel

theorem isProbability_of_readFields {fields : Fields} {s : AssessmentSettings}
    (h : readFields fields = .ok s) : Injector.isProbability (.real s.bulkFailureProbability) := by
  simp only [readFields, Checked.seq_eq_ok, Checked.map_eq_ok] at h
  obtain ⟨_, _, ⟨_, _, ⟨p, hp, rfl⟩, -, rfl⟩, -, rfl⟩ := h
  exact Checked.Ensures.orElse (P := fun p => Injector.isProbability (.real p))
    isProbability_default (fun _ _ hread => (readProbability_eq_ok_iff.mp hread).2) _ _ p hp

end AssessmentSettings

/-- No settings that were read have a probability that the injector refuses. -/
theorem Settings.isProbability_of_read {v : Value} {s : Settings} (h : Settings.read v = .ok s) :
    Injector.isProbability (.real s.assessment.bulkFailureProbability) := by
  obtain ⟨fields, -, h⟩ := readModel_eq_ok.mp h
  simp only [readFields, Checked.seq_eq_ok, Checked.map_eq_ok] at h
  obtain ⟨_, _, ⟨_, _, ⟨_, _, ⟨_, _, ⟨_, -, rfl⟩, ha, rfl⟩, -, rfl⟩, -, rfl⟩, -, rfl⟩ := h
  refine Checked.Ensures.orElse
    (P := fun a : AssessmentSettings => Injector.isProbability (.real a.bulkFailureProbability))
    AssessmentSettings.isProbability_default (fun w a hread => ?_) _ _ _ ha
  obtain ⟨parts, -, hparts⟩ := readModel_eq_ok.mp hread
  exact AssessmentSettings.isProbability_of_readFields hparts

/-! ## The stages and the log -/

/-- The stages of the table are ranked from 1 to 9, whatever the rule of the last one is. -/
theorem ranks_stageTable (rule : Option TerminalRule) :
    (stageTable rule).map (·.rank) = Assessor.expectedRanks :=
  rfl

/-- The injector takes a floating-point number exactly if it is a probability. -/
theorem Injector.ofValue_eq_ok_iff {p : Double} {source : RandomSource} {i : Injector} :
    ofValue (.float p) source = .ok i ↔
      isProbability (.real p) ∧ i = ⟨.float p, p, source, 0⟩ := by
  simp only [ofValue, Value.toAmount?, Amount.toDouble]
  split_ifs with h <;> simp [h, eq_comm]

/-- The level of a log is a severity that a trail may have as its threshold. -/
theorem Trail.readThreshold_severity (level : LogLevel) :
    readThreshold (.int level.severity) = .ok level.severity := by
  cases level <;> rfl

/-! ## Opening -/

/-- An assessor as settings describe it : with nine stages that it may have, and an injector that
no draw was taken from. -/
structure Assessor.IsNew (a : Assessor) (s : AssessmentSettings) (source : RandomSource) :
    Prop where
  stages : a.stages = stageTable (some (recommendationRule s.sentinels))
  nine : a.stages.map (·.rank) = [1, 2, 3, 4, 5, 6, 7, 8, 9]
  accepted : ofStages a.stages a.injector = .ok a
  injector : Injector.ofValue (.float s.bulkFailureProbability) source = .ok a.injector
  probability : a.injector.probability = s.bulkFailureProbability
  unused : a.injector.used = 0

theorem Assessor.exists_ofSettings {s : AssessmentSettings}
    (h : Injector.isProbability (.real s.bulkFailureProbability)) (source : RandomSource) :
    ∃ a, ofSettings s source = .ok a ∧ a.IsNew s source := by
  have hinjector : Injector.ofValue (.float s.bulkFailureProbability) source = .ok _ :=
    Injector.ofValue_eq_ok_iff.mpr ⟨h, rfl⟩
  refine ⟨_, congrArg (Except.map _) hinjector, rfl, rfl, ?_, hinjector, rfl, rfl⟩
  exact ofStages_eq_ok_iff.mpr ⟨ranks_stageTable _, rfl⟩

/-- A desk as settings describe it, with no records and an empty trail. -/
structure Desk.IsNew (d : Desk) (s : Settings) (source : RandomSource) : Prop where
  store : d.store = Store.empty
  assessor : d.assessor.IsNew s.assessment source
  topCount : d.topCount = s.web.topCount
  trail : d.trail = { threshold := s.log.level.severity }
  threshold : Trail.readThreshold (.int d.trail.threshold) = .ok d.trail.threshold

/-- Settings that were read and name no file of records open a new desk, whatever files there are
and whether or not draws are given : the assessor that they describe can be made with any source
of draws, since its injector takes exactly the probabilities that can be read. -/
theorem start_of_read {v : Value} {s : Settings} (hread : Settings.read v = .ok s)
    (hseed : SettingsSource.given s.storage.seedFile = none) :
    (∀ source, ∃ a, Assessor.ofSettings s.assessment source = .ok a ∧
      a.IsNew s.assessment source) ∧
    (∀ fs draws clock, ∃ d, Desk.start s fs draws clock = .ok d ∧
      d.IsNew s (s.assessment.source draws)) ∧
    ∀ w p, AssessmentSettings.readProbability w = .ok p ↔
      readNumber w = .ok p ∧ ∀ source, ∃ i, Injector.ofValue (.float p) source = .ok i := by
  have hprobability := Settings.isProbability_of_read hread
  refine ⟨Assessor.exists_ofSettings hprobability, fun fs draws clock => ?_, fun w p => ?_⟩
  · obtain ⟨a, ha, hnew⟩ :=
      Assessor.exists_ofSettings hprobability (s.assessment.source draws)
    refine ⟨⟨Store.empty, a, s.trail, s.web.topCount⟩, ?_, rfl, hnew, rfl, rfl,
      Trail.readThreshold_severity _⟩
    simp only [Desk.start, ha, hseed]
  · rw [AssessmentSettings.readProbability_eq_ok_iff]
    refine and_congr_right fun _ => ⟨fun h source => ?_, fun h => ?_⟩
    · exact ⟨_, Injector.ofValue_eq_ok_iff.mpr ⟨h, rfl⟩⟩
    · obtain ⟨i, hi⟩ := h (.cycle Double.zero [])
      exact (Injector.ofValue_eq_ok_iff.mp hi).1

/-- A probability may be given as a truth value and the file of records as an empty text : the desk
that opens has no records, and rejects every read of the collection whose draw is below one. -/
theorem start_of_true :
    let v : Value := .object [("pipeline", .object [("bulk_failure_probability", .bool true)]),
      ("storage", .object [("seed_file", .text "")])]
    let clock : Clock := ⟨⟨⟨2024, 2, 29⟩, 0, 0, 0, 0, none⟩, Double.zero⟩
    let source := RandomSource.cycle Double.zero []
    ∃ s, Settings.read v = .ok s ∧ SettingsSource.given s.storage.seedFile = none ∧
      ∃ d, Desk.start s {} (some source) clock = .ok d ∧ d.store.toList = [] ∧
        d.assessor.stages.length = 9 ∧ d.assessor.injector.probability = Double.one := by
  intro v clock source
  have hread : Settings.read v = .ok _ := rfl
  have hseed : SettingsSource.given (some ("" : Text)) = none := rfl
  refine ⟨_, hread, hseed, ?_⟩
  obtain ⟨d, hstart, hnew⟩ := (start_of_read hread hseed).2.1 {} (some source) clock
  refine ⟨d, hstart, ?_, ?_, hnew.assessor.probability⟩
  · rw [hnew.store]
    rfl
  · rw [hnew.assessor.stages]
    rfl

end StockRegister
