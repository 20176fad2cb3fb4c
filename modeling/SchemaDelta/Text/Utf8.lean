import SchemaDelta.Text.Basic

/-!
# UTF-8

Texts as bytes. Decoding is a machine that takes one byte at a time; between characters it is at
rest, and inside a sequence it knows how many bytes are still owed and which values the next one
may have. A refusal says where the sequence at fault starts and how many of its bytes are
certain, which is unknown where the bytes end inside a sequence.
-/

namespace SchemaDelta.Text.Utf8

/-- A sequence of which the first bytes have come. -/
structure Pending where
  /-- How many bytes have come. -/
  taken : Nat
  /-- How many bytes are still owed after the next one. -/
  owed : Nat
  /-- The least value of the next byte. -/
  low : Nat
  /-- The greatest value of the next byte. -/
  high : Nat
  /-- The bits that have come. -/
  bits : Nat
  deriving DecidableEq

/-- Why bytes are not UTF-8. -/
inductive DecodeError where
  /-- The sequence at `index` goes wrong after `length` bytes. -/
  | invalid (index length : Nat)
  /-- The bytes end inside the sequence at `index`. -/
  | incomplete (index : Nat)
  deriving DecidableEq

/-- The error in words. -/
def DecodeError.message : DecodeError → Text
  | .invalid index length =>
    "invalid utf-8 sequence of " ++ ofNat length ++ " bytes from index " ++ ofNat index
  | .incomplete index => "incomplete utf-8 byte sequence from index " ++ ofNat index

/-- What the first byte of a sequence of two to four bytes begins. -/
def Pending.first? (b : Nat) : Option Pending :=
  if 0xC2 ≤ b ∧ b ≤ 0xDF then some ⟨1, 0, 0x80, 0xBF, b - 0xC0⟩
  else if b = 0xE0 then some ⟨1, 1, 0xA0, 0xBF, 0⟩
  else if b = 0xED then some ⟨1, 1, 0x80, 0x9F, 0xD⟩
  else if 0xE1 ≤ b ∧ b ≤ 0xEF then some ⟨1, 1, 0x80, 0xBF, b - 0xE0⟩
  else if b = 0xF0 then some ⟨1, 2, 0x90, 0xBF, 0⟩
  else if 0xF1 ≤ b ∧ b ≤ 0xF3 then some ⟨1, 2, 0x80, 0xBF, b - 0xF0⟩
  else if b = 0xF4 then some ⟨1, 2, 0x80, 0x8F, 4⟩
  else none

/-- The text that bytes spell, from the byte at `index` on; `pending` is the sequence that the
bytes before began. -/
def decodeFrom (index : Nat) : Option Pending → List UInt8 → Except DecodeError Text
  | none, [] => .ok []
  | some pending, [] => .error (.incomplete (index - pending.taken))
  | none, byte :: rest =>
    let b := byte.toNat
    if b < 0x80 then (decodeFrom (index + 1) none rest).map (Char.ofNat b :: ·)
    else match Pending.first? b with
      | none => .error (.invalid index 1)
      | some pending => decodeFrom (index + 1) (some pending) rest
  | some pending, byte :: rest =>
    let b := byte.toNat
    if pending.low ≤ b ∧ b ≤ pending.high then
      let bits := pending.bits * 0x40 + (b - 0x80)
      match pending.owed with
      | 0 => (decodeFrom (index + 1) none rest).map (Char.ofNat bits :: ·)
      | owed + 1 =>
        decodeFrom (index + 1) (some ⟨pending.taken + 1, owed, 0x80, 0xBF, bits⟩) rest
    else .error (.invalid (index - pending.taken) pending.taken)

/-- The text that bytes spell. -/
def decode (bytes : List UInt8) : Except DecodeError Text := decodeFrom 0 none bytes

/-- The bytes of a character. -/
def encodeChar (c : Char) : List UInt8 :=
  let n := c.toNat
  if n < 0x80 then [n.toUInt8]
  else if n < 0x800 then [(0xC0 + n / 0x40).toUInt8, (0x80 + n % 0x40).toUInt8]
  else if n < 0x10000 then
    [(0xE0 + n / 0x1000).toUInt8, (0x80 + n / 0x40 % 0x40).toUInt8, (0x80 + n % 0x40).toUInt8]
  else
    [(0xF0 + n / 0x40000).toUInt8, (0x80 + n / 0x1000 % 0x40).toUInt8,
      (0x80 + n / 0x40 % 0x40).toUInt8, (0x80 + n % 0x40).toUInt8]

/-- The bytes of a text. -/
def encode (t : Text) : List UInt8 := t.flatMap encodeChar

/-- Bytes below 0x80 spell the characters of the same number. -/
theorem decodeFrom_cons_ascii {index : Nat} {byte : UInt8} (h : byte.toNat < 0x80)
    (rest : List UInt8) :
    decodeFrom index none (byte :: rest) =
      (decodeFrom (index + 1) none rest).map (Char.ofNat byte.toNat :: ·) := by
  simp [decodeFrom, h]

end SchemaDelta.Text.Utf8
