import StockRegister.Text.Pieces

/-!
# Files

`Files` is the part of a file system that settings and records are read from: the texts of
files under their places, and the place of the working directory. A directory is every place
on the way to a file or to the working directory.

A `Path` is followed name by name (`Files.follow`), `..` leading back one name, so that a path
through a file or through a directory that does not exist leads nowhere, whatever stands
behind.
-/

namespace StockRegister

/-- Why a file is not read. -/
inductive FileError where
  | notFound
  | isDirectory
  | notDirectory
  | nameTooLong
  | unusableName
  | unwritableName
deriving DecidableEq

/-- The names on the way from the root to a file or directory. -/
abbrev Place := List Text

/-- A path as it is written: names, starting from the root or from some directory. -/
structure Path where
  absolute : Bool
  names : List Text
deriving DecidableEq

namespace Path

/-- The code point of the mark between names. -/
def slash : Nat := 47

/-- The path that a text names; empty names and single points lead nowhere. -/
def ofText (t : Text) : Path :=
  ⟨t.points.head? == some slash,
    ((Text.pieces slash t.points).map Text.mk).filter fun name =>
      !name.isEmpty && name != ("." : Text)⟩

/-- The working directory. -/
def here : Path := ⟨false, []⟩

/-- A path seen from the directory at another path. -/
def under (base p : Path) : Path :=
  if p.absolute then p else ⟨base.absolute, base.names ++ p.names⟩

/-- The names of a path in one text, with marks between them. -/
def joined : List Text → Text
  | [] => ""
  | [name] => name
  | name :: rest => name ++ ⟨[slash]⟩ ++ joined rest

/-- A path as it is written; the working directory is a point. -/
def text (p : Path) : Text :=
  if p.absolute then (⟨[slash]⟩ : Text) ++ joined p.names
  else if p.names.isEmpty then "." else joined p.names

@[simp] theorem here_under (p : Path) : here.under p = p := by
  cases p with
  | mk absolute names => cases absolute <;> rfl

end Path

/-- The texts of files under their places, and the place of the working directory. -/
structure Files where
  texts : List (Place × String) := []
  workPlace : Place := []

/-- What a path leads to. -/
inductive Target where
  | directory (place : Place)
  | file (text : String)

namespace Files

/-- The most bytes that a name may have. -/
def maxNameBytes : Nat := 255

/-- The most bytes that a path may have. -/
def maxPathBytes : Nat := 4095

/-- Whether a place is on the way to a file or to the working directory. -/
def hasDirectory (fs : Files) (place : Place) : Bool :=
  place.isPrefixOf fs.workPlace || fs.texts.any fun f => place.isPrefixOf f.1

/-- What a name in a directory stands for. -/
def step (fs : Files) (target : Target) (name : Text) : Except FileError Target :=
  match target with
  | .file _ => .error .notDirectory
  | .directory place =>
    if name == (".." : Text) then .ok (.directory place.dropLast)
    else if maxNameBytes < name.byteCount then .error .nameTooLong
    else
      match fs.texts.lookup (place ++ [name]) with
      | some text => .ok (.file text)
      | none =>
        if fs.hasDirectory (place ++ [name]) then .ok (.directory (place ++ [name]))
        else .error .notFound

/-- Whether a code point can be written in a path: a character, or a half that stands for one
byte. -/
def isWritablePoint (n : Nat) : Bool := (Text.char? n).isSome || (0xDC80 ≤ n && n ≤ 0xDCFF)

/-- What a path leads to; no name has a null character. -/
def follow (fs : Files) (p : Path) : Except FileError Target :=
  if !p.text.points.all isWritablePoint then .error .unwritableName
  else if p.text.points.contains 0 then .error .unusableName
  else if maxPathBytes < p.text.byteCount then .error .nameTooLong
  else p.names.foldlM fs.step (.directory (if p.absolute then [] else fs.workPlace))

/-- The text of the file at a path. -/
def read (fs : Files) (p : Path) : Except FileError String :=
  match fs.follow p with
  | .ok (.file text) => .ok text
  | .ok (.directory _) => .error .isDirectory
  | .error e => .error e

/-- Whether a path leads to something; a name that is too long fails the question. -/
def hasTarget (fs : Files) (p : Path) : Except FileError Bool :=
  match fs.follow p with
  | .ok _ => .ok true
  | .error .nameTooLong => .error .nameTooLong
  | .error _ => .ok false

/-- Files with the given texts under paths that are seen from the working directory. -/
def ofTexts (workPlace : Place) (texts : List (Text × String)) : Files :=
  ⟨texts.map fun f => (workPlace ++ (Path.ofText f.1).names, f.2), workPlace⟩

end Files

end StockRegister
