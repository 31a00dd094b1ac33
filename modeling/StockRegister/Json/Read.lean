import StockRegister.Number.Numeral
import StockRegister.Value

/-!
# Reading JSON text

`Json.read` reads a text as one JSON value. Besides the standard forms it accepts `NaN`,
`Infinity` and `-Infinity`; of fields with one name the last counts. A syntax error names
the position at which reading stopped, counted in code points: where a value or a mark was
expected, at the quote that opens an unfinished string, or at the escape that is not one.
Lists and objects may stand in each other only to a certain depth.

The readers work on the code points that are left, the marks among them being named by their
numbers (`Mark`), and report an error by how many are left, so that a position is the length of
the whole text less that number. A string may hold halves of pairs. Two escapes that spell the
halves of one pair are joined (`joinPieces`); halves that stand in the text itself are not.
-/

namespace StockRegister.Json

/-- Why a text is not read. -/
inductive ReadError where
  | syntaxAt (position : Nat)
  | numberTooLong
  | tooDeep
deriving DecidableEq

/-- Why reading stopped: at a number of code points from the end, at too long a number, or at
too deep a list or object. -/
inductive Stop where
  | before (left : Nat)
  | tooLong
  | tooDeep

/-- How many lists and objects may stand in each other: a call reads one with all that is in it. -/
def maxDepth : Nat := Value.maxDepth 1

/-! ## Marks -/

namespace Mark

/-- The mark at both ends of a string. -/
@[match_pattern] abbrev quote : Nat := 0x22

/-- The mark before an escape. -/
@[match_pattern] abbrev escape : Nat := 0x5C

/-- The letter behind the mark of an escape that four digits follow. -/
@[match_pattern] abbrev unit : Nat := 0x75

/-- The mark before the fields of an object. -/
@[match_pattern] abbrev objectStart : Nat := 0x7B

/-- The mark behind the fields of an object. -/
@[match_pattern] abbrev objectEnd : Nat := 0x7D

/-- The mark before the items of a list. -/
@[match_pattern] abbrev listStart : Nat := 0x5B

/-- The mark behind the items of a list. -/
@[match_pattern] abbrev listEnd : Nat := 0x5D

/-- The mark between the name and the value of a field. -/
@[match_pattern] abbrev colon : Nat := 0x3A

/-- The mark between two fields or items. -/
@[match_pattern] abbrev comma : Nat := 0x2C

/-- The sign that an exponent may have. -/
@[match_pattern] abbrev plus : Nat := 0x2B

/-- The sign of a negative number or exponent. -/
@[match_pattern] abbrev minus : Nat := 0x2D

/-- The mark before the fraction of a number. -/
@[match_pattern] abbrev point : Nat := 0x2E

/-- The digit that no other one may follow at the head of a number. -/
@[match_pattern] abbrev zero : Nat := 0x30

end Mark

/-- Whether a code point is a blank of JSON. -/
def isBlank (n : Nat) : Bool := n == 0x20 || n == 9 || n == 10 || n == 13

/-- The rest of a text after its leading blanks. -/
def skipBlanks (ps : List Nat) : List Nat := ps.dropWhile isBlank

/-- Whether a code point is a decimal digit. -/
def isDigit (n : Nat) : Bool := 0x30 ≤ n && n ≤ 0x39

/-- The digits at the head of a text, and the rest. -/
def splitDigits (ps : List Nat) : List Nat × List Nat :=
  ((ps.takeWhile isDigit).map (· - 0x30), ps.dropWhile isDigit)

/-! ## Strings -/

/-- A piece of a string: a code point that stands in it, or the number of an escape. -/
inductive Piece where
  | plain (n : Nat)
  | escaped (n : Nat)

/-- The code points of pieces: escapes that spell the halves of one pair are joined. -/
def joinPieces : List Piece → List Nat
  | [] => []
  | .plain n :: rest => n :: joinPieces rest
  | .escaped m :: .escaped n :: rest =>
    if Text.isHighHalf m && Text.isLowHalf n then Text.joinHalves m n :: joinPieces rest
    else m :: joinPieces (.escaped n :: rest)
  | .escaped m :: rest => m :: joinPieces rest

/-- The text of pieces. -/
def pieceText (ps : List Piece) : Text := ⟨joinPieces ps⟩

/-- The code point that a one-letter escape stands for. -/
def shortEscape? (n : Nat) : Option Nat :=
  match Text.char? n with
  | some 'b' => some 8
  | some 'f' => some 12
  | some 'n' => some 10
  | some 'r' => some 13
  | some 't' => some 9
  | some '/' => some 47
  | some '\\' => some 92
  | some '\x22' => some 34
  | _ => none

/-- The number that four hexadecimal digits make. -/
def escapeNumber? (ps : List Nat) : Option Nat :=
  (ps.mapM fun n => (Text.char? n).bind Text.hexDigit?).map (Text.ofDigits 16)

/-- The pieces of a string up to its closing quote, and the rest. `opening` is the number of
code points left at the opening quote. -/
def readPieces (opening : Nat) : List Nat → Except Stop (List Piece × List Nat)
  | [] => .error (.before opening)
  | Mark.quote :: rest => .ok ([], rest)
  | Mark.escape :: Mark.unit :: a :: b :: c :: d :: rest =>
    match escapeNumber? [a, b, c, d], rest with
    | some n, _ :: _ => do
      let (pieces, rest) ← readPieces opening rest
      pure (.escaped n :: pieces, rest)
    | _, _ => .error (.before (rest.length + 5))
  | [Mark.escape] => .error (.before opening)
  | Mark.escape :: Mark.unit :: rest => .error (.before (rest.length + 1))
  | Mark.escape :: n :: rest =>
    match shortEscape? n with
    | some point => do
      let (pieces, rest) ← readPieces opening rest
      pure (.plain point :: pieces, rest)
    | none => .error (.before (rest.length + 2))
  | n :: rest =>
    if n < 32 then .error (.before (rest.length + 1))
    else do
      let (pieces, rest) ← readPieces opening rest
      pure (.plain n :: pieces, rest)

/-! ## Numbers -/

/-- Split digits off a text: one if the first is zero, else as many as there are. -/
def splitWhole : List Nat → List Nat × List Nat
  | Mark.zero :: rest => ([0], rest)
  | ps => splitDigits ps

/-- A fraction at the head of a text: a point and at least one digit. -/
def splitFraction : List Nat → List Nat × List Nat
  | Mark.point :: rest =>
    let (ds, rest') := splitDigits rest
    if ds.isEmpty then ([], Mark.point :: rest) else (ds, rest')
  | ps => ([], ps)

/-- The sign at the head of a text, and the rest. -/
def splitMark : List Nat → Bool × List Nat
  | Mark.minus :: rest => (true, rest)
  | Mark.plus :: rest => (false, rest)
  | ps => (false, ps)

/-- An exponent at the head of a text: `e`, perhaps a sign, and at least one digit. -/
def splitExponent (ps : List Nat) : Option (Int × List Nat) :=
  match ps with
  | [] => none
  | n :: rest =>
    if n == 0x65 || n == 0x45 then
      let (negative, body) := splitMark rest
      let (ds, rest) := splitDigits body
      if ds.isEmpty then none else some (signedInt negative (Text.ofDigits 10 ds), rest)
    else none

/-- A number at the head of a text. -/
def readNumber (ps : List Nat) : Except Stop (Value × List Nat) :=
  let negative := ps.head? == some Mark.minus
  let (whole, rest) := splitWhole (if negative then ps.drop 1 else ps)
  if whole.isEmpty then .error (.before ps.length)
  else
    let (fraction, rest) := splitFraction rest
    let exponent := splitExponent rest
    if fraction.isEmpty && exponent.isNone then
      if maxIntegerDigits < whole.length then .error .tooLong
      else .ok (.int (signedInt negative (Text.ofDigits 10 whole)), rest)
    else
      let (e, rest) := exponent.getD (0, rest)
      let digits := Text.ofDigits 10 (whole ++ fraction)
      .ok (.float (Double.ofDecimal negative digits (e - fraction.length)), rest)

/-! ## Values -/

/-- The words that are values. -/
def words : List (String × Value) :=
  [("null", .null), ("true", .bool true), ("false", .bool false), ("NaN", .float Double.nan),
    ("Infinity", .float (Double.infinity false)), ("-Infinity", .float (Double.infinity true))]

/-- A word at the head of a text, and the rest. -/
def readWord (ps : List Nat) : Option (Value × List Nat) :=
  words.findSome? fun w =>
    let word := (Text.ofString w.1).points
    if word.isPrefixOf ps then some (w.2, ps.drop word.length) else none

mutual

/-- A value at the head of a text, and the rest. `depth` is the number of lists and objects
that may still be opened; `fuel` bounds the steps. -/
def readValue : Nat → Nat → List Nat → Except Stop (Value × List Nat)
  | 0, _, ps => .error (.before ps.length)
  | fuel + 1, depth, ps =>
    match ps with
    | [] => .error (.before 0)
    | Mark.quote :: rest => do
      let (pieces, rest) ← readPieces (rest.length + 1) rest
      pure (.text (pieceText pieces), rest)
    | Mark.objectStart :: rest =>
      match depth, skipBlanks rest with
      | 0, _ => .error .tooDeep
      | _, Mark.objectEnd :: rest => .ok (.object [], rest)
      | depth + 1, rest => readFields fuel depth [] rest
    | Mark.listStart :: rest =>
      match depth, skipBlanks rest with
      | 0, _ => .error .tooDeep
      | _, Mark.listEnd :: rest => .ok (.list [], rest)
      | depth + 1, rest => readItems fuel depth [] rest
    | ps =>
      match readWord ps with
      | some r => .ok r
      | none => readNumber ps

/-- The fields of an object from a name on, after those in `done`. -/
def readFields : Nat → Nat → Fields → List Nat → Except Stop (Value × List Nat)
  | 0, _, _, ps => .error (.before ps.length)
  | fuel + 1, depth, done, ps =>
    match ps with
    | Mark.quote :: rest => do
      let (name, rest) ← readPieces (rest.length + 1) rest
      match skipBlanks rest with
      | Mark.colon :: rest =>
        let (v, rest) ← readValue fuel depth (skipBlanks rest)
        let done := done.put (pieceText name) v
        match skipBlanks rest with
        | Mark.objectEnd :: rest => pure (.object done, rest)
        | Mark.comma :: rest => readFields fuel depth done (skipBlanks rest)
        | rest => .error (.before rest.length)
      | rest => .error (.before rest.length)
    | ps => .error (.before ps.length)

/-- The items of a list from a value on, after those in `done`, which are in reverse. -/
def readItems : Nat → Nat → List Value → List Nat → Except Stop (Value × List Nat)
  | 0, _, _, ps => .error (.before ps.length)
  | fuel + 1, depth, done, ps => do
    let (v, rest) ← readValue fuel depth ps
    match skipBlanks rest with
    | Mark.listEnd :: rest => pure (.list (v :: done).reverse, rest)
    | Mark.comma :: rest => readItems fuel depth (v :: done) (skipBlanks rest)
    | rest => .error (.before rest.length)

end

/-- The value that code points are. -/
def readPoints (ps : List Nat) : Except ReadError Value :=
  let place (left : Nat) : ReadError := .syntaxAt (ps.length - left)
  match readValue (2 * ps.length + 2) maxDepth (skipBlanks ps) with
  | .error (.before left) => .error (place left)
  | .error .tooLong => .error .numberTooLong
  | .error .tooDeep => .error .tooDeep
  | .ok (v, rest) =>
    match skipBlanks rest with
    | [] => .ok v
    | rest => .error (place rest.length)

/-- The value that a text is; a byte order mark may stand at its head. -/
def read (t : Text) : Except ReadError Value := readPoints t.withoutMark.points

end StockRegister.Json
