/-!
# Six-bit digits

Bytes can be written in digits of six bits each: capital letters, small letters, decimal
digits, `+` and `/` in this order, with `=` to fill up the last group of four. `decode` reads
them; characters that are no digits are passed over.
-/

namespace StockRegister.Yaml.SixBit

/-- The value of a digit. -/
def digit? (n : Nat) : Option Nat :=
  if 65 ≤ n && n ≤ 90 then some (n - 65)
  else if 97 ≤ n && n ≤ 122 then some (n - 71)
  else if 48 ≤ n && n ≤ 57 then some (n + 4)
  else if n = 43 then some 62
  else if n = 47 then some 63
  else none

/-- The bytes of digits, given the digits of the present group, the last first, and how many
filling characters followed them. Digits that are left over make no byte. -/
def decodeFrom (group : List Nat) (fillers : Nat) : List Nat → Option (List Nat)
  | [] => if group.isEmpty then some [] else none
  | n :: rest =>
    if n = 61 then
      if 2 ≤ group.length && 4 ≤ group.length + fillers + 1 then some (groupBytes group)
      else decodeFrom group (if 2 ≤ group.length then fillers + 1 else fillers) rest
    else
      match digit? n with
      | none => decodeFrom group fillers rest
      | some d =>
        match group with
        | [c, b, a] => (decodeFrom [] 0 rest).map (groupBytes [d, c, b, a] ++ ·)
        | _ => decodeFrom (d :: group) 0 rest
where
  /-- The whole bytes of the digits of a group, the last digit first. -/
  groupBytes : List Nat → List Nat
    | [d, c, b, a] => [a * 4 + b / 16, b % 16 * 16 + c / 4, c % 4 * 64 + d]
    | [c, b, a] => [a * 4 + b / 16, b % 16 * 16 + c / 4]
    | [b, a] => [a * 4 + b / 16]
    | _ => []

/-- The bytes that ASCII text stands for, if it has no part of a group left over. -/
def decode (codes : List Nat) : Option (List Nat) :=
  if codes.all (· < 128) then decodeFrom [] 0 codes else none

end StockRegister.Yaml.SixBit
