import StockRegister.Files
import StockRegister.Settings
import StockRegister.Yaml.Document

/-!
# Loading settings

Settings are loaded from a YAML file (`Settings.load`), over which the file of a profile may
be laid. A `SettingsSource` says which file and which profile; it is given on the command
line or in the environment, the former taking precedence (`SettingsSource.orElse`). Without a
file all settings have their defaults (`Settings.resolve`). An empty document counts as an
empty object.

Where a profile is laid over a document that is no object, the document must consist of
pairs, and stands for the object with these fields (`Value.toFields`).
-/

namespace StockRegister

open Schema

/-- Why settings or records are not loaded. -/
inductive LoadError where
  | file (e : FileError)
  | noProfile (name : Text)
  | yaml (e : Yaml.YamlError)
  /-- A part of a document that should be a pair has not two parts. -/
  | notPair
  /-- A document, or a part of one that should be a pair, has no parts at all. -/
  | noParts
  /-- The first part of a pair is no key. -/
  | notKey
  | profileNotObject
  /-- A document and its profile go on without end, and so would the one laid over the other. -/
  | endlessOverlay
  | invalid (problems : List Problem)
  | notRecords (path : Text)

/-- The wording of an error that has one of its own. -/
def LoadError.message : LoadError → Text
  | noProfile name => ("Profile not found: " : Text) ++ name
  | notRecords path => ("Seed file " : Text) ++ path ++ (" must contain a list of records" : Text)
  | _ => ""

/-- The value of a YAML file. -/
def Files.readYaml (fs : Files) (p : Path) : Except LoadError Value :=
  match fs.read p with
  | .error e => .error (.file e)
  | .ok text =>
    match Yaml.Document.read text with
    | .error e => .error (.yaml e)
    | .ok v => .ok v

/-! ## Documents as objects -/

/-- The parts of a value: the items of a list, the two of a pair, the keys of a set or an
object, the code points of a text, or the numbers of bytes. -/
def Value.parts? : Value → Option (List Value)
  | .list items => some items
  | .pair v w => some [v, w]
  | .set keys => some (keys.map Key.toValue)
  | .object fields => some (fields.map (·.1.toValue))
  | .text t => some (t.points.map fun n => .text ⟨[n]⟩)
  | .bytes octets => some (octets.map fun (n : Nat) => .int n)
  | _ => none

/-- Write the field that two parts stand for: a key and a value. A pair of keys may stand in the
place of a key; no setting has such a key, and the field is left out. -/
def Fields.putPair (fields : Fields) (parts : Value) : Except LoadError Fields :=
  match parts.parts? with
  | none => .error .noParts
  | some [.pair v w, _] =>
    if v.toKey?.isSome && w.toKey?.isSome then .ok fields else .error .notKey
  | some [key, v] =>
    match key.toKey? with
    | some key => .ok (fields.put key v)
    | none => .error .notKey
  | some _ => .error .notPair

/-- The fields of the object that a document stands for. -/
def Value.toFields (v : Value) : Except LoadError Fields :=
  match v with
  | .object fields => .ok fields
  | v =>
    match v.parts? with
    | none => .error .noParts
    | some pairs => pairs.foldlM Fields.putPair []

/-- The document of a profile laid over another document. -/
def Value.withProfile (base profile : Value) : Except LoadError Value := do
  let fields ← base.toFields
  match profile with
  | .object top =>
    if Value.overlaysAreEndless fields top then throw .endlessOverlay
    return .object (fields.overlay top)
  | _ => throw .profileNotObject

/-! ## Sources -/

/-- Where settings are loaded from: a file and a profile, of which each may be missing. An
empty text counts as missing. -/
structure SettingsSource where
  path : Option Text := none
  profile : Option Text := none
deriving DecidableEq

namespace SettingsSource

/-- The variables of the environment that name the file and the profile. -/
def pathVariable : String := "STOCK_INVENTORY_CONFIG"

@[inherit_doc pathVariable] def profileVariable : String := "STOCK_INVENTORY_PROFILE"

/-- A text, if it is given and not empty. -/
def given (s : Option Text) : Option Text := s.filter (!·.isEmpty)

/-- What the first source gives, and else what the second one gives. -/
def orElse (first second : SettingsSource) : SettingsSource :=
  ⟨(given first.path).or (given second.path), (given first.profile).or (given second.profile)⟩

/-- The second source with what the first one gives written over it. -/
def writtenOver (first second : SettingsSource) : SettingsSource :=
  ⟨(given first.path).or second.path, (given first.profile).or second.profile⟩

end SettingsSource

/-! ## Settings -/

namespace Settings

/-- The settings in a value. -/
def ofValue (v : Value) : Except LoadError Settings :=
  match Settings.read v with
  | .ok s => .ok s
  | .bad problems => .error (.invalid problems)

/-- The path of the file of a profile. -/
def profilePath (base : Path) (profile : Text) : Path :=
  ((base.under (Path.ofText "config")).under (Path.ofText "profiles")).under
    (Path.ofText (profile ++ (".yaml" : Text)))

/-- The document of a profile, which must exist. -/
def loadProfile (fs : Files) (base : Path) (profile : Text) : Except LoadError Value :=
  match fs.hasTarget (profilePath base profile) with
  | .error e => .error (.file e)
  | .ok false => .error (.noProfile profile)
  | .ok true => Value.orEmptyObject <$> fs.readYaml (profilePath base profile)

/-- The settings in the file at a path seen from a directory, with a profile laid over them
if one is given. -/
def load (fs : Files) (base : Path) (path : Text) (profile : Option Text) :
    Except LoadError Settings := do
  let document ← Value.orEmptyObject <$> fs.readYaml (base.under (Path.ofText path))
  match SettingsSource.given profile with
  | none => ofValue document
  | some name => ofValue (← document.withProfile (← loadProfile fs base name))

end Settings

/-- The settings that a source leads to: the defaults if it gives no file. -/
def Settings.resolve (fs : Files) (source : SettingsSource) : Except LoadError Settings :=
  match SettingsSource.given source.path with
  | none => .ok {}
  | some path => Settings.load fs .here path source.profile

/-! ## Records -/

/-- The records in the file at a path seen from a directory: a list, or nothing. -/
def loadRecords (fs : Files) (base : Path) (path : Text) : Except LoadError (List Value) := do
  match ← fs.readYaml (base.under (Path.ofText path)) with
  | .null => return []
  | .list records => return records
  | _ => throw (.notRecords path)

end StockRegister
