import StockRegister.Calendar.Timestamp
import StockRegister.Number.Numeral
import StockRegister.Schema.Checked
import StockRegister.Value

/-!
# Reading scalars

How a dynamic value is read as a text, an integer, a number, a truth value, a moment or one
of several words. Numbers are read from any form that loses nothing: an integer from a
number without a fraction, a number from an integer, and both from their text. Bytes count as
the text of which they are the UTF-8 form. Bounds are checked from above first, and what is
not a number meets no bound.
-/

namespace StockRegister.Schema

open Checked

/-- The string of bytes, if they are the UTF-8 form of one. -/
def utf8String? (octets : List Nat) : Option String :=
  String.fromUTF8? ⟨(octets.map Nat.toUInt8).toArray⟩

/-- A text, also from the bytes of its UTF-8 form. -/
def readText : Value → Checked Text
  | .text t => ok t
  | .bytes octets =>
    match utf8String? octets with
    | some s => ok s
    | none => fail .notUnicode
  | _ => fail .notText

/-- A text that is a string. -/
def readString (v : Value) : Checked String :=
  (readText v).bind fun t =>
    match t.toString? with
    | some s => ok s
    | none => fail .notUnicode

/-- A string that is not empty. -/
def readNonEmptyString (v : Value) : Checked String :=
  (readString v).bind fun s => if s.isEmpty then fail .textTooShort else ok s

/-- What a text is read as, also from the bytes of its UTF-8 form; other bytes are unreadable. -/
def readFromText {α : Type} (unreadable other : Fault) (read : String → Checked α) :
    Value → Checked α
  | .text t =>
    match t.toString? with
    | some s => read s
    | none => fail .notUnicode
  | .bytes octets =>
    match utf8String? octets with
    | some s => read s
    | none => fail unreadable
  | _ => fail other

/-- An integer as its text. -/
def readIntText (s : String) : Checked Int :=
  match wholeNumeral s with
  | .ok n => ok n
  | .error .tooLong => fail .integerTooLong
  | .error .unreadable => fail .unreadableInteger

/-- An integer, also from a truth value, a number without a fraction, or a text. -/
def readInt : Value → Checked Int
  | .int n => ok n
  | .bool b => ok (if b then 1 else 0)
  | .float x =>
    if !x.isFinite then fail .notFinite
    else
      match x.toInt? with
      | none => fail .fractionalInteger
      | some n => if n.natAbs < Nat.pow 2 63 then ok n else fail .integerTooLong
  | v => readFromText .unreadableInteger .notInteger readIntText v

/-- A floating-point number as its text. -/
def readNumberText (s : String) : Checked Double :=
  match floatNumeral s with
  | some x => ok x
  | none => fail .unreadableNumber

/-- A floating-point number, also from a truth value, an integer, or a text. -/
def readNumber : Value → Checked Double
  | .float x => ok x
  | .int n => if (Double.ofInt n).isFinite then ok (Double.ofInt n) else fail .notNumber
  | .bool b => ok (if b then Double.one else Double.zero)
  | v => readFromText .unreadableNumber .notNumber readNumberText v

/-- The words for false and for true. -/
def falseWords : List String := ["0", "off", "f", "false", "n", "no"]

@[inherit_doc falseWords] def trueWords : List String := ["1", "on", "t", "true", "y", "yes"]

/-- A truth value as a word in any case. -/
def readBoolText (s : String) : Checked Bool :=
  let word := String.ofList (lowerAscii s.toList)
  if falseWords.contains word then ok false
  else if trueWords.contains word then ok true
  else fail .unreadableBoolean

/-- A truth value, also from 0 and 1 and from a word in any case. -/
def readBool : Value → Checked Bool
  | .bool b => ok b
  | .int n =>
    if n == 0 then ok false
    else if n == 1 then ok true
    else if -(Int.pow 2 63) ≤ n && n < Int.pow 2 63 then fail .unreadableBoolean
    else fail .notBoolean
  | .float x =>
    if x.isZero then ok false
    else if x = Double.one then ok true
    else if x.isFinite && (x.toInt?.any fun n => n.natAbs < Nat.pow 2 63) then
      fail .unreadableBoolean
    else fail .notBoolean
  | v => readFromText .unreadableBoolean .notBoolean readBoolText v

/-- A moment; no calendar has the year 0. -/
def checkMoment (m : Moment) : Checked Moment :=
  if m.date.year = 0 then fail (.unusableMoment .yearZero) else ok m

/-- The moment of a time stamp that is a number. -/
def readMomentNumber : Except MomentError Moment → Checked Moment
  | .ok m => checkMoment m
  | .error e => fail (.unusableMoment e)

/-- The moment of a text. -/
def readMomentText (s : String) : Checked Moment :=
  match Moment.read s with
  | .ok m => checkMoment m
  | .error e => fail (.unreadableMoment e)

/-- A moment, as itself, as its text, or as a number of seconds. An integer that is too large
for a floating-point number is none. -/
def readMoment : Value → Checked Moment
  | .moment m => ok m
  | .date d => ok ⟨d, 0, 0, 0, 0, none⟩
  | .int n =>
    if (Double.ofInt n).isFinite then readMomentNumber (Moment.ofTimestamp n 0)
    else fail .notMoment
  | .float x => readMomentNumber (Moment.ofDouble x)
  | .text t =>
    match t.toString? with
    | some s => readMomentText s
    | none => fail .notUnicode
  | _ => fail .notMoment

/-- One of the named members of a finite type; `fault` is that of every other value. -/
def readMember {α : Type} (fault : Fault) (members : List (String × α)) : Value → Checked α
  | .text t =>
    match t.toString? with
    | none => fail .notUnicode
    | some s =>
      match members.lookup s with
      | some a => ok a
      | none => fail fault
  | _ => fail fault

/-- One of the given words, with what it stands for. -/
def readLiteral {α : Type} (members : List (String × α)) (v : Value) : Checked α :=
  readMember (.notLiteral (members.map Prod.fst)) members v

/-- One of the named members of a finite type. -/
def readChoice {α : Type} (members : List (String × α)) (v : Value) : Checked α :=
  readMember (.notChoice (members.map Prod.fst)) members v

/-- Null, or what `read` reads. -/
def readOptional {α : Type} (read : Value → Checked α) : Value → Checked (Option α)
  | .null => ok none
  | v => some <$> read v

/-! ## Bounds -/

/-- An integer from `least` up. -/
def atLeast (least n : Int) : Checked Int := if least ≤ n then ok n else fail (.below least)

/-- An integer up to `most`. -/
def atMost (most n : Int) : Checked Int := if n ≤ most then ok n else fail (.above most)

/-- A number from `least` up. -/
def numberAtLeast (least : Int) (x : Double) : Checked Double :=
  if (Double.ofInt least).le x then ok x else fail (.below least)

/-- A number above `bound`. -/
def numberAbove (bound : Int) (x : Double) : Checked Double :=
  if (Double.ofInt bound).lt x then ok x else fail (.notAbove bound)

/-- A number up to `most`. -/
def numberAtMost (most : Int) (x : Double) : Checked Double :=
  if x.le (Double.ofInt most) then ok x else fail (.above most)

/-- An integer that is at least `least`. -/
def readIntFrom (least : Int) (v : Value) : Checked Int := (readInt v).bind (atLeast least)

/-- A number that is not below zero. -/
def readPrice (v : Value) : Checked Double := (readNumber v).bind (numberAtLeast 0)

end StockRegister.Schema
