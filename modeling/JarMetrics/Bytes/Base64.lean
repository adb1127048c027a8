/-!
# Base-64 texts

Four digits stand for three bytes. The last group may have two or three digits and is filled up by
equals signs. Line breaks may stand anywhere. What does not belong into such a text is told by its
place.
-/

namespace JarMetrics.Base64

/-- The value of a digit. -/
def digit? (c : UInt8) : Option Nat :=
  if 0x41 ≤ c && c ≤ 0x5A then some (c.toNat - 0x41)
  else if 0x61 ≤ c && c ≤ 0x7A then some (c.toNat - 0x61 + 26)
  else if 0x30 ≤ c && c ≤ 0x39 then some (c.toNat - 0x30 + 52)
  else if c == 0x2B then some 62
  else if c == 0x2F then some 63
  else none

/-- Whether a byte is part of a line break. -/
def isBreak (c : UInt8) : Bool := c == 0x0A || c == 0x0D

/-- The bytes that a group of digits stands for, one fewer than there are digits. -/
def bytes : List Nat → List UInt8
  | a :: b :: rest => UInt8.ofNat (a * 4 + b / 16) :: match rest with
      | [] => []
      | c :: rest => UInt8.ofNat (b * 16 + c / 4) :: match rest with
          | [] => []
          | d :: _ => [UInt8.ofNat (c * 64 + d)]
  | _ => []

/-- The bytes of the last group, after which only line breaks may follow. -/
def finish (position : Nat) (group : List Nat) (rest : List UInt8) : Except Nat (List UInt8) :=
  let after := rest.dropWhile isBreak
  if after.isEmpty then .ok (bytes group) else .error (position + rest.length - after.length)

/-- The bytes of the last group after its first equals sign; a group of two digits has a second
one. -/
def fill (position : Nat) (group : List Nat) (rest : List UInt8) : Except Nat (List UInt8) :=
  if group.length == 2 then
    let after := rest.dropWhile isBreak
    let place := position + rest.length - after.length
    match after with
    | [] => .error place
    | c :: after => if c == 0x3D then finish (place + 1) group after else .error (place - 1)
  else finish position group rest

/-- The bytes of a text from a position on, with the digits of the group that has begun, or the
place of what does not belong there. -/
def decodeFrom (position : Nat) (group : List Nat) : List UInt8 → Except Nat (List UInt8)
  | [] => if group.isEmpty then .ok [] else .error (position - group.length)
  | c :: rest =>
      match digit? c with
      | some d =>
          if group.length < 3 then decodeFrom (position + 1) (group ++ [d]) rest
          else (decodeFrom (position + 1) [] rest).map (bytes (group ++ [d]) ++ ·)
      | none =>
          if isBreak c then decodeFrom (position + 1) group rest
          else if c == 0x3D && 2 ≤ group.length then fill (position + 1) group rest
          else .error position

/-- The bytes of a text. -/
def decode (text : String) : Except Nat (List UInt8) := decodeFrom 0 [] text.toUTF8.toList

end JarMetrics.Base64
