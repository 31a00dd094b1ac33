import StockRegister.Schema.Field

/-!
# Settings

The settings of the register, section by section: the sentinels that are always rejected,
the assessment of requests, the web interface, the log and the storage. Every setting has a
default, so an empty object is a complete configuration; keys that name no setting are
ignored.
-/

namespace StockRegister

open Schema

/-- Ids and symbols that are always rejected. -/
structure Sentinels where
  pennyId : Int := 999
  updateId : Int := 888
  priceUpdateId : Int := 777
  deleteId : Int := 666
  pennySymbol : String := "PENNY"
  testSymbol : String := "TEST"
deriving DecidableEq

/-- How requests are assessed. -/
structure AssessmentSettings where
  bulkFailureProbability : Double := Double.ofDecimal false 1 (-1)
  randomSeed : Option Int := none
  sentinels : Sentinels := {}
deriving DecidableEq

/-- The web interface. -/
structure WebSettings where
  title : Text := "Stock Inventory"
  host : Text := "127.0.0.1"
  port : Int := 8000
  topCount : Int := 10
deriving DecidableEq

/-- How severe a log entry is. -/
inductive LogLevel where
  | debug
  | info
  | warning
  | error
  | critical
deriving DecidableEq

/-- The levels that a log may be set to, with their names. -/
def LogLevel.settings : List (String × LogLevel) :=
  [("DEBUG", .debug), ("INFO", .info), ("WARNING", .warning), ("ERROR", .error)]

/-- The name of a level among the settings. -/
def LogLevel.settingName : LogLevel → String
  | debug => "DEBUG"
  | info => "INFO"
  | warning => "WARNING"
  | error => "ERROR"
  | critical => "CRITICAL"

/-- The severity of a level as a number. -/
def LogLevel.severity : LogLevel → Int
  | debug => 10
  | info => 20
  | warning => 30
  | error => 40
  | critical => 50

/-- The log. -/
structure LogSettings where
  level : LogLevel := .info
  useJson : Bool := false
deriving DecidableEq

/-- The storage: a file with the records it starts with. -/
structure StorageSettings where
  seedFile : Option Text := none
deriving DecidableEq

/-- All settings. -/
structure Settings where
  version : Text := "1.0"
  assessment : AssessmentSettings := {}
  web : WebSettings := {}
  log : LogSettings := {}
  storage : StorageSettings := {}
deriving DecidableEq

/-! ## Reading and writing -/

namespace Sentinels

/-- The title under which problems with the sentinels are reported. -/
def modelTitle : String := "SentinelConfig"

/-- The id that is rejected in a lookup. -/
def pennyIdField : Field := .plain "penny_id"

/-- The id that is rejected in an update. -/
def updateIdField : Field := .plain "update_id"

/-- The id that is rejected in a price update. -/
def priceUpdateIdField : Field := .plain "price_update_id"

/-- The id that is rejected in a deletion. -/
def deleteIdField : Field := .plain "delete_id"

/-- The symbol that is rejected in a lookup. -/
def pennySymbolField : Field := .plain "penny_symbol"

/-- The symbol that is rejected in a creation. -/
def testSymbolField : Field := .plain "test_symbol"

/-- The sentinels in an object. -/
def readFields (fields : Fields) : Checked Sentinels :=
  let base : Sentinels := {}
  Sentinels.mk
    <$> pennyIdField.orElse base.pennyId (readIntFrom 1) fields
    <*> updateIdField.orElse base.updateId (readIntFrom 1) fields
    <*> priceUpdateIdField.orElse base.priceUpdateId (readIntFrom 1) fields
    <*> deleteIdField.orElse base.deleteId (readIntFrom 1) fields
    <*> pennySymbolField.orElse base.pennySymbol readNonEmptyString fields
    <*> testSymbolField.orElse base.testSymbol readNonEmptyString fields

/-- Sentinels as the fields of an object. -/
def entries (s : Sentinels) : List (Field × Value) :=
  [(pennyIdField, .int s.pennyId), (updateIdField, .int s.updateId),
    (priceUpdateIdField, .int s.priceUpdateId), (deleteIdField, .int s.deleteId),
    (pennySymbolField, .text s.pennySymbol), (testSymbolField, .text s.testSymbol)]

end Sentinels

namespace AssessmentSettings

/-- The title under which problems with these settings are reported. -/
def modelTitle : String := "PipelineConfig"

/-- How likely a bulk lookup is to fail. -/
def probabilityField : Field := .plain "bulk_failure_probability"

/-- The seed of the random source; without one it is seeded from outside. -/
def seedField : Field := .plain "random_seed"

/-- The section of the sentinels. -/
def sentinelsField : Field := .plain "sentinels"

/-- A probability: a number from 0 to 1. -/
def readProbability (v : Value) : Checked Double :=
  ((readNumber v).bind (numberAtMost 1)).bind (numberAtLeast 0)

/-- The settings in an object. -/
def readFields (fields : Fields) : Checked AssessmentSettings :=
  let base : AssessmentSettings := {}
  AssessmentSettings.mk
    <$> probabilityField.orElse base.bulkFailureProbability readProbability fields
    <*> seedField.orElse base.randomSeed (readOptional readInt) fields
    <*> sentinelsField.orElse base.sentinels
      (readModel Sentinels.modelTitle Sentinels.readFields) fields

/-- The settings as the fields of an object. -/
def entries (naming : Naming) (s : AssessmentSettings) : List (Field × Value) :=
  [(probabilityField, .float s.bulkFailureProbability), (seedField, .ofInt? s.randomSeed),
    (sentinelsField, writeModel naming s.sentinels.entries)]

end AssessmentSettings

namespace WebSettings

/-- The title under which problems with these settings are reported. -/
def modelTitle : String := "ApiConfig"

/-- The title of the interface. -/
def titleField : Field := .plain "title"

/-- The host that is listened on. -/
def hostField : Field := .plain "host"

/-- The port that is listened on. -/
def portField : Field := .plain "port"

/-- How many records a top list has at most. -/
def topCountField : Field := .plain "top_n"

/-- The settings in an object. -/
def readFields (fields : Fields) : Checked WebSettings :=
  let base : WebSettings := {}
  WebSettings.mk
    <$> titleField.orElse base.title readText fields
    <*> hostField.orElse base.host readText fields
    <*> portField.orElse base.port
      (fun v => ((readInt v).bind (atMost 65535)).bind (atLeast 1)) fields
    <*> topCountField.orElse base.topCount (readIntFrom 1) fields

/-- The settings as the fields of an object. -/
def entries (s : WebSettings) : List (Field × Value) :=
  [(titleField, .text s.title), (hostField, .text s.host), (portField, .int s.port),
    (topCountField, .int s.topCount)]

end WebSettings

namespace LogSettings

/-- The title under which problems with these settings are reported. -/
def modelTitle : String := "LoggingConfig"

/-- The level from which on lines are printed. -/
def levelField : Field := .plain "level"

/-- Whether lines are printed in JSON and not for the console. -/
def useJsonField : Field := .plain "use_json"

/-- The settings in an object. -/
def readFields (fields : Fields) : Checked LogSettings :=
  let base : LogSettings := {}
  LogSettings.mk
    <$> levelField.orElse base.level (readLiteral LogLevel.settings) fields
    <*> useJsonField.orElse base.useJson readBool fields

/-- The settings as the fields of an object. -/
def entries (s : LogSettings) : List (Field × Value) :=
  [(levelField, .text s.level.settingName), (useJsonField, .bool s.useJson)]

end LogSettings

namespace StorageSettings

/-- The title under which problems with these settings are reported. -/
def modelTitle : String := "StorageConfig"

/-- The file with the records that the storage starts with, if there is one. -/
def seedFileField : Field := .plain "seed_file"

/-- The settings in an object. -/
def readFields (fields : Fields) : Checked StorageSettings :=
  StorageSettings.mk <$> seedFileField.orElse none (readOptional readText) fields

/-- The settings as the fields of an object. -/
def entries (s : StorageSettings) : List (Field × Value) := [(seedFileField, .ofText? s.seedFile)]

end StorageSettings

namespace Settings

/-- The title under which problems with the settings are reported. -/
def modelTitle : String := "InventoryConfig"

/-- The version of the settings. -/
def versionField : Field := .plain "version"

/-- The section of the assessment. -/
def assessmentField : Field := .plain "pipeline"

/-- The section of the web interface. -/
def webField : Field := .plain "api"

/-- The section of the log. -/
def logField : Field := .plain "logging"

/-- The section of the storage. -/
def storageField : Field := .plain "storage"

/-- The settings in an object. -/
def readFields (fields : Fields) : Checked Settings :=
  let base : Settings := {}
  Settings.mk
    <$> versionField.orElse base.version readText fields
    <*> assessmentField.orElse base.assessment
      (readModel AssessmentSettings.modelTitle AssessmentSettings.readFields) fields
    <*> webField.orElse base.web (readModel WebSettings.modelTitle WebSettings.readFields) fields
    <*> logField.orElse base.log (readModel LogSettings.modelTitle LogSettings.readFields) fields
    <*> storageField.orElse base.storage
      (readModel StorageSettings.modelTitle StorageSettings.readFields) fields

/-- The settings as a value. -/
def read (v : Value) : Checked Settings := readModel modelTitle readFields v

/-- The settings as the fields of an object. -/
def entries (naming : Naming) (s : Settings) : List (Field × Value) :=
  [(versionField, .text s.version),
    (assessmentField, writeModel naming (s.assessment.entries naming)),
    (webField, writeModel naming s.web.entries),
    (logField, writeModel naming s.log.entries),
    (storageField, writeModel naming s.storage.entries)]

/-- The settings as an object. -/
def toValue (s : Settings) : Value := writeModel .plain (s.entries .plain)

end Settings

end StockRegister
