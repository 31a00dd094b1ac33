import StockRegister.Proofs.Merging
import StockRegister.Settings.Loading

/-!
# Settings laid over settings

Each section of the settings has a function that says what it is when it is laid over another
(`Settings.laidOver`) : setting by setting the upper one if it is set there, and else the lower one.
That is what the merged object is read as (`Settings.laysOver`), whatever other keys there are
(`Settings.ignores`).

`read_withProfile` says so of the document of a profile that is laid over another document. It
leaves out documents that both go on without end, since these cannot be merged
(`not_load_of_endless`).
-/

namespace StockRegister

open Schema

/-! ## The settings -/

namespace Sentinels

/-- Sentinels laid over others : of each the upper one if it is named. -/
def laidOver (top : Fields) (x y : Sentinels) : Sentinels where
  pennyId := pennyIdField.choose top x.pennyId y.pennyId
  updateId := updateIdField.choose top x.updateId y.updateId
  priceUpdateId := priceUpdateIdField.choose top x.priceUpdateId y.priceUpdateId
  deleteId := deleteIdField.choose top x.deleteId y.deleteId
  pennySymbol := pennySymbolField.choose top x.pennySymbol y.pennySymbol
  testSymbol := testSymbolField.choose top x.testSymbol y.testSymbol

theorem laysOver : LaysOver readFields {} laidOver where
  nil := rfl
  congr _ _ h := by simp only [readFields, Field.orElse_congr h]
  merges base top hkeyed := by
    unfold readFields
    refine .seq (.seq (.seq (.seq (.seq (.map (.leaf rfl hkeyed nofun) ?_)
      (.leaf rfl hkeyed nofun)) (.leaf rfl hkeyed nofun)) (.leaf rfl hkeyed nofun))
      (.leaf rfl hkeyed nofun)) (.leaf rfl hkeyed nofun)
    rintro _ _ _ rfl _ _ _ rfl _ _ _ rfl _ _ _ rfl _ _ _ rfl _ _ _ rfl
    rfl

/-- The settings of the section. -/
def sections : Sections :=
  [(pennyIdField, id), (updateIdField, id), (priceUpdateIdField, id), (deleteIdField, id),
    (pennySymbolField, id), (testSymbolField, id)]

theorem ignores : Ignores sections readFields laidOver where
  read fields := by
    unfold readFields
    dsimp only
    rw [pennyIdField.orElse_restrict rfl rfl, updateIdField.orElse_restrict rfl rfl,
      priceUpdateIdField.orElse_restrict rfl rfl, deleteIdField.orElse_restrict rfl rfl,
      pennySymbolField.orElse_restrict rfl rfl, testSymbolField.orElse_restrict rfl rfl]
  laid top x y := by
    unfold laidOver
    rw [pennyIdField.choose_restrict rfl rfl, updateIdField.choose_restrict rfl rfl,
      priceUpdateIdField.choose_restrict rfl rfl, deleteIdField.choose_restrict rfl rfl,
      pennySymbolField.choose_restrict rfl rfl, testSymbolField.choose_restrict rfl rfl]
  keyed _ hkeyed := Sections.fieldsAreKeyed_restrict (by simp [sections]) hkeyed

end Sentinels

namespace AssessmentSettings

@[inherit_doc Sentinels.laidOver]
def laidOver (top : Fields) (x y : AssessmentSettings) : AssessmentSettings where
  bulkFailureProbability :=
    probabilityField.choose top x.bulkFailureProbability y.bulkFailureProbability
  randomSeed := seedField.choose top x.randomSeed y.randomSeed
  sentinels := Sentinels.laidOver (sentinelsField.part top) x.sentinels y.sentinels

theorem laysOver : LaysOver readFields {} laidOver where
  nil := rfl
  congr _ _ h := by simp only [readFields, Field.orElse_congr h]
  merges base top hkeyed := by
    unfold readFields
    refine .seq (.seq (.map (.leaf rfl hkeyed nofun) ?_) (.leaf rfl hkeyed nofun))
      (Sentinels.laysOver.field rfl hkeyed _)
    rintro _ _ _ rfl _ _ _ rfl _ _ _ rfl
    rfl

/-- The settings of the section. -/
def sections : Sections :=
  [(probabilityField, id), (seedField, id), (sentinelsField, Sentinels.sections.restrict)]

theorem ignores : Ignores sections readFields laidOver where
  read fields := by
    unfold readFields
    dsimp only
    rw [probabilityField.orElse_restrict rfl rfl, seedField.orElse_restrict rfl rfl,
      sentinelsField.orElse_readModel_restrict rfl rfl Sentinels.ignores.read]
  laid top x y := by
    unfold laidOver
    rw [probabilityField.choose_restrict rfl rfl, seedField.choose_restrict rfl rfl,
      sentinelsField.part_restrict rfl rfl rfl, Sentinels.ignores.laid]
  keyed _ hkeyed := by
    refine Sections.fieldsAreKeyed_restrict ?_ hkeyed
    simpa [sections] using Sentinels.ignores.keyed

end AssessmentSettings

namespace WebSettings

@[inherit_doc Sentinels.laidOver]
def laidOver (top : Fields) (x y : WebSettings) : WebSettings where
  title := titleField.choose top x.title y.title
  host := hostField.choose top x.host y.host
  port := portField.choose top x.port y.port
  topCount := topCountField.choose top x.topCount y.topCount

theorem laysOver : LaysOver readFields {} laidOver where
  nil := rfl
  congr _ _ h := by simp only [readFields, Field.orElse_congr h]
  merges base top hkeyed := by
    unfold readFields
    refine .seq (.seq (.seq (.map (.leaf rfl hkeyed nofun) ?_) (.leaf rfl hkeyed nofun))
      (.leaf rfl hkeyed nofun)) (.leaf rfl hkeyed nofun)
    rintro _ _ _ rfl _ _ _ rfl _ _ _ rfl _ _ _ rfl
    rfl

/-- The settings of the section. -/
def sections : Sections :=
  [(titleField, id), (hostField, id), (portField, id), (topCountField, id)]

theorem ignores : Ignores sections readFields laidOver where
  read fields := by
    unfold readFields
    dsimp only
    rw [titleField.orElse_restrict rfl rfl, hostField.orElse_restrict rfl rfl,
      portField.orElse_restrict rfl rfl, topCountField.orElse_restrict rfl rfl]
  laid top x y := by
    unfold laidOver
    rw [titleField.choose_restrict rfl rfl, hostField.choose_restrict rfl rfl,
      portField.choose_restrict rfl rfl, topCountField.choose_restrict rfl rfl]
  keyed _ hkeyed := Sections.fieldsAreKeyed_restrict (by simp [sections]) hkeyed

end WebSettings

namespace LogSettings

@[inherit_doc Sentinels.laidOver]
def laidOver (top : Fields) (x y : LogSettings) : LogSettings where
  level := levelField.choose top x.level y.level
  useJson := useJsonField.choose top x.useJson y.useJson

theorem laysOver : LaysOver readFields {} laidOver where
  nil := rfl
  congr _ _ h := by simp only [readFields, Field.orElse_congr h]
  merges base top hkeyed := by
    unfold readFields
    refine .seq (.map (.leaf rfl hkeyed nofun) ?_) (.leaf rfl hkeyed nofun)
    rintro _ _ _ rfl _ _ _ rfl
    rfl

/-- The settings of the section. -/
def sections : Sections :=
  [(levelField, id), (useJsonField, id)]

theorem ignores : Ignores sections readFields laidOver where
  read fields := by
    unfold readFields
    dsimp only
    rw [levelField.orElse_restrict rfl rfl, useJsonField.orElse_restrict rfl rfl]
  laid top x y := by
    unfold laidOver
    rw [levelField.choose_restrict rfl rfl, useJsonField.choose_restrict rfl rfl]
  keyed _ hkeyed := Sections.fieldsAreKeyed_restrict (by simp [sections]) hkeyed

end LogSettings

namespace StorageSettings

@[inherit_doc Sentinels.laidOver]
def laidOver (top : Fields) (x y : StorageSettings) : StorageSettings where
  seedFile := seedFileField.choose top x.seedFile y.seedFile

theorem laysOver : LaysOver readFields {} laidOver where
  nil := rfl
  congr _ _ h := by simp only [readFields, Field.orElse_congr h]
  merges base top hkeyed := by
    unfold readFields
    refine .map (.leaf rfl hkeyed nofun) ?_
    rintro _ _ _ rfl
    rfl

/-- The settings of the section. -/
def sections : Sections :=
  [(seedFileField, id)]

theorem ignores : Ignores sections readFields laidOver where
  read fields := by
    unfold readFields
    rw [seedFileField.orElse_restrict rfl rfl]
  laid top x y := by
    unfold laidOver
    rw [seedFileField.choose_restrict rfl rfl]
  keyed _ hkeyed := Sections.fieldsAreKeyed_restrict (by simp [sections]) hkeyed

end StorageSettings

namespace Settings

@[inherit_doc Sentinels.laidOver]
def laidOver (top : Fields) (x y : Settings) : Settings where
  version := versionField.choose top x.version y.version
  assessment := AssessmentSettings.laidOver (assessmentField.part top) x.assessment y.assessment
  web := WebSettings.laidOver (webField.part top) x.web y.web
  log := LogSettings.laidOver (logField.part top) x.log y.log
  storage := StorageSettings.laidOver (storageField.part top) x.storage y.storage

theorem laysOver : LaysOver readFields {} laidOver where
  nil := rfl
  congr _ _ h := by simp only [readFields, Field.orElse_congr h]
  merges base top hkeyed := by
    unfold readFields
    refine .seq (.seq (.seq (.seq (.map (.leaf rfl hkeyed nofun) ?_)
      (AssessmentSettings.laysOver.field rfl hkeyed _)) (WebSettings.laysOver.field rfl hkeyed _))
      (LogSettings.laysOver.field rfl hkeyed _)) (StorageSettings.laysOver.field rfl hkeyed _)
    rintro _ _ _ rfl _ _ _ rfl _ _ _ rfl _ _ _ rfl _ _ _ rfl
    rfl

/-- The settings of the section. -/
def sections : Sections :=
  [(versionField, id), (assessmentField, AssessmentSettings.sections.restrict),
    (webField, WebSettings.sections.restrict), (logField, LogSettings.sections.restrict),
    (storageField, StorageSettings.sections.restrict)]

theorem ignores : Ignores sections readFields laidOver where
  read fields := by
    unfold readFields
    dsimp only
    rw [versionField.orElse_restrict rfl rfl,
      assessmentField.orElse_readModel_restrict rfl rfl AssessmentSettings.ignores.read,
      webField.orElse_readModel_restrict rfl rfl WebSettings.ignores.read,
      logField.orElse_readModel_restrict rfl rfl LogSettings.ignores.read,
      storageField.orElse_readModel_restrict rfl rfl StorageSettings.ignores.read]
  laid top x y := by
    unfold laidOver
    rw [versionField.choose_restrict rfl rfl, assessmentField.part_restrict rfl rfl rfl,
      webField.part_restrict rfl rfl rfl, logField.part_restrict rfl rfl rfl,
      storageField.part_restrict rfl rfl rfl, AssessmentSettings.ignores.laid,
      WebSettings.ignores.laid, LogSettings.ignores.laid, StorageSettings.ignores.laid]
  keyed _ hkeyed := by
    refine Sections.fieldsAreKeyed_restrict ?_ hkeyed
    simpa [sections] using ⟨AssessmentSettings.ignores.keyed, WebSettings.ignores.keyed,
      LogSettings.ignores.keyed, StorageSettings.ignores.keyed⟩

end Settings

/-! ## Laying settings over settings -/

/-- If two objects are read as settings and, as in every mapping, no key of the upper one finds a
later one, the upper one laid over the other is read as settings, unless both go on without end
under the same keys. Every setting is that of the upper object if it is set there, in whatever
section it stands, and else that of the lower one. Keys that name no setting can be left out of
both. -/
theorem read_withProfile {base top : Fields} {b t : Settings}
    (hb : Settings.read (.object base) = .ok b) (ht : Settings.read (.object top) = .ok t)
    (hkeyed : Value.fieldsAreKeyed top) (hends : Value.overlaysAreEndless base top = false) :
    (Value.object base).withProfile (.object top) = .ok (.object (base.overlay top)) ∧
      Settings.read (.object (base.overlay top)) = .ok (Settings.laidOver top b t) ∧
      Settings.read (.object (Fields.overlay (Settings.sections.restrict base)
        (Settings.sections.restrict top))) = .ok (Settings.laidOver top b t) := by
  have hread {lower upper : Fields} (hupper : Value.fieldsAreKeyed upper)
      (hb : Settings.readFields lower = .ok b) (ht : Settings.readFields upper = .ok t) :
      Settings.read (.object (lower.overlay upper)) = .ok (Settings.laidOver upper b t) := by
    obtain ⟨s, hs, rfl⟩ := Settings.laysOver.merges lower upper hupper b t hb ht
    exact hs
  refine ⟨?_, hread hkeyed hb ht, ?_⟩
  · simp only [Value.withProfile, Value.toFields, bind, Except.bind, hends]
    rfl
  · rw [← Settings.ignores.laid]
    refine hread (Settings.ignores.keyed top hkeyed) ?_ ?_
    · exact (Settings.ignores.read base).trans hb
    · exact (Settings.ignores.read top).trans ht

/-- The port of the lower object and the length of top lists of the upper one stand together, a
null seed is set but is the default, and keys that name no setting do not matter. -/
theorem read_withProfile_of_ports :
    let base : Fields := [("api", .object [("port", .int 90), ("extra", .null)]),
      ("logging", .object [("level", .text "DEBUG")])]
    let top : Fields := [("api", .object [("extra", .object []), ("top_n", .bool true)]),
      ("pipeline", .object [("random_seed", .null)]), ("other", .list [])]
    ∃ b t, Settings.read (.object base) = .ok b ∧ Settings.read (.object top) = .ok t ∧
      Value.fieldsAreKeyed top ∧ Value.overlaysAreEndless base top = false ∧
      Settings.read (.object (base.overlay top)) =
        .ok { web := { port := 90, topCount := 1 }, log := { level := .debug } } := by
  intro base top
  have hb : Settings.read (.object base) = .ok _ := rfl
  have ht : Settings.read (.object top) = .ok _ := rfl
  have hkeyed : Value.fieldsAreKeyed top := by decide
  have hends : Value.overlaysAreEndless base top = false :=
    Value.overlaysAreEndless_of_finite (.inl rfl)
  exact ⟨_, _, hb, ht, hkeyed, hends, (read_withProfile hb ht hkeyed hends).2.1⟩

theorem isOk_eq_true_iff {ε α : Type} {result : Except ε α} :
    result.isOk = true ↔ ∃ a, result = .ok a := by
  cases result <;> simp [Except.isOk, Except.toBool]

/-- A document that contains itself is read as settings, but it cannot be laid over another one that
does so under the same key. -/
theorem Settings.not_load_of_endless :
    let document := "&r \x7btop_n: 3, port: 90, api: *r\x7d\n"
    let fs : Files := { texts := [(["c.yaml"], document),
      (["config", "profiles", "p.yaml"], document)] }
    (∃ s, Settings.load fs .here "c.yaml" none = .ok s) ∧
      (∃ s, Settings.load fs .here "config/profiles/p.yaml" none = .ok s) ∧
      ¬∃ s, Settings.load fs .here "c.yaml" (some "p") = .ok s := by
  simp only [← isOk_eq_true_iff]
  decide +kernel

end StockRegister
