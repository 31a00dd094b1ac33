import StockRegister.Calendar
import StockRegister.Text

/-!
# Keys

A `Key` is what a field of an object is found by: a text in most cases, but documents may
have keys of any type that has no parts. Two keys are the same (`Key.same`) if they have one
normal form (`Key.normal`): the truth values are the numbers 0 and 1, a number is the same as
the integer that it equals, and moments with an offset are the same at one point in time.
-/

namespace StockRegister

/-- What a field of an object is found by. -/
inductive Key where
  | null
  | bool (b : Bool)
  | int (n : Int)
  | float (x : Double)
  | text (t : Text)
  | bytes (octets : List Nat)
  | date (d : Date)
  | moment (m : Moment)
deriving DecidableEq, Inhabited

namespace Key

instance : Coe Text Key := ⟨text⟩

instance : Coe String Key := ⟨fun s => text s⟩

/-- The form that all keys have that are the same. -/
def normal : Key → Key
  | bool b => int (if b then 1 else 0)
  | float x =>
    match x.toInt? with
    | some n => int n
    | none => float x
  | moment m =>
    match m.instant with
    | some micros => moment (Moment.ofSeconds (micros / 1000000) (micros % 1000000).toNat)
    | none => moment m
  | k => k

/-- Whether two keys find the same field. -/
def same (k l : Key) : Bool := k.normal == l.normal

/-- Whether a key is the floating-point value that is no number. -/
def isNaN : Key → Bool
  | float x => x.isNaN
  | _ => false

/-- Whether a name finds what was kept under a name: what is no number finds nothing. -/
def finds (k l : Key) : Bool := k.same l && !k.isNaN

theorem same_refl (k : Key) : k.same k = true := by simp [same]

theorem same_comm (k l : Key) : k.same l = l.same k := by
  simp [same, Bool.beq_comm]

theorem same_trans {k l m : Key} (h : k.same l = true) (h' : l.same m = true) :
    k.same m = true := by
  simp only [same, beq_iff_eq] at *
  exact h.trans h'

/-- Keys that are texts are the same only if they are equal. -/
theorem same_text (s t : Text) : (text s).same (text t) = (s == t) := by
  rw [Bool.eq_iff_iff]
  simp [same, normal]

/-- A name that is a text finds itself alone among the texts. -/
theorem finds_text (s t : Text) : (text s).finds (text t) = (s == t) := by
  simp [finds, isNaN, same_text]

end Key

end StockRegister
