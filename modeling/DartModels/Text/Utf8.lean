/-!
# UTF-8

Files hold bytes; sources and options are read as strict UTF-8.

* `Utf8.decode`: the characters, or the first span of bytes that is not UTF-8.
* `Utf8.encode`: the bytes of a text.
* `Utf8.encode_inj`: texts with the same bytes are the same.
* `Utf8.universalLines`: every line end becomes a line feed.
-/

namespace DartModels

namespace Utf8

/-- Why bytes are not UTF-8. -/
inductive Cause where
  | startByte
  | continuationByte
  | endOfData
  deriving DecidableEq, Inhabited

/-- The wording of a cause. -/
def Cause.text : Cause → String
  | .startByte => "invalid start byte"
  | .continuationByte => "invalid continuation byte"
  | .endOfData => "unexpected end of data"

/-- A span of bytes that cannot be read: its first byte, place and length. -/
structure Fault where
  cause : Cause
  byte : UInt8
  offset : Nat
  length : Nat
  deriving DecidableEq, Inhabited

/-- The two hexadecimal digits of a byte. -/
def hexByte (b : UInt8) : String :=
  let digit (n : Nat) : Char := if n < 10 then Char.ofNat (48 + n) else Char.ofNat (87 + n)
  String.ofList [digit (b.toNat / 16), digit (b.toNat % 16)]

/-- The wording of a fault. -/
def Fault.message (f : Fault) : String :=
  if f.length = 1 then
    s!"'utf-8' codec can't decode byte 0x{hexByte f.byte} in position {f.offset}: {f.cause.text}"
  else
    let last := f.offset + f.length - 1
    s!"'utf-8' codec can't decode bytes in position {f.offset}-{last}: {f.cause.text}"

/-- How many bytes follow a first byte, with the bounds of the one after it. -/
def shape? (b : Nat) : Option (Nat × Nat × Nat) :=
  if b < 0x80 then some (0, 0, 0)
  else if b < 0xC2 then none
  else if b < 0xE0 then some (1, 0x80, 0xBF)
  else if b = 0xE0 then some (2, 0xA0, 0xBF)
  else if b = 0xED then some (2, 0x80, 0x9F)
  else if b < 0xF0 then some (2, 0x80, 0xBF)
  else if b = 0xF0 then some (3, 0x90, 0xBF)
  else if b < 0xF4 then some (3, 0x80, 0xBF)
  else if b = 0xF4 then some (3, 0x80, 0x8F)
  else none

/-- The value bits of a first byte with `n` bytes to follow. -/
def firstBits (n b : Nat) : Nat :=
  match n with
  | 0 => b
  | 1 => b % 0x20
  | 2 => b % 0x10
  | _ => b % 0x08

/-- Reads `n` more bytes of a character, the next one between `low` and `high`.  A fault has a
cause and the number of good bytes, starting from `seen`. -/
def continuation : Nat → Nat → Nat → Nat → Nat → List UInt8 →
    Except (Cause × Nat) (Nat × List UInt8)
  | 0, _, _, value, _, rest => .ok (value, rest)
  | _ + 1, _, _, _, seen, [] => .error (.endOfData, seen)
  | n + 1, low, high, value, seen, b :: rest =>
    if low ≤ b.toNat ∧ b.toNat ≤ high then
      continuation n 0x80 0xBF (value * 64 + b.toNat % 64) (seen + 1) rest
    else .error (.continuationByte, seen)

/-- Decodes from an offset, with one unit of fuel a character. -/
def decodeFrom : Nat → Nat → List UInt8 → List Char → Except Fault (List Char)
  | 0, _, _, acc => .ok acc.reverse
  | _, _, [], acc => .ok acc.reverse
  | fuel + 1, offset, b :: rest, acc =>
    match shape? b.toNat with
    | none => .error ⟨.startByte, b, offset, 1⟩
    | some (n, low, high) =>
      match continuation n low high (firstBits n b.toNat) 1 rest with
      | .ok (value, rest') => decodeFrom fuel (offset + n + 1) rest' (Char.ofNat value :: acc)
      | .error (cause, seen) => .error ⟨cause, b, offset, seen⟩

/-- The characters of bytes. -/
def decode (bytes : List UInt8) : Except Fault (List Char) :=
  decodeFrom bytes.length 0 bytes []

/-- The bytes of one character. -/
def encodeChar (c : Char) : List UInt8 :=
  let n := c.toNat
  if n < 0x80 then [n.toUInt8]
  else if n < 0x800 then [(0xC0 + n / 64).toUInt8, (0x80 + n % 64).toUInt8]
  else if n < 0x10000 then
    [(0xE0 + n / 4096).toUInt8, (0x80 + n / 64 % 64).toUInt8, (0x80 + n % 64).toUInt8]
  else
    [(0xF0 + n / 262144).toUInt8, (0x80 + n / 4096 % 64).toUInt8, (0x80 + n / 64 % 64).toUInt8,
      (0x80 + n % 64).toUInt8]

/-- The bytes of a text. -/
def encode (s : String) : List UInt8 := s.toList.flatMap encodeChar

/-- The encoding is the one in which strings are kept. -/
theorem encodeChar_eq (c : Char) : encodeChar c = String.utf8EncodeChar c := by
  have hbound : c.val.toNat < 0x110000 := by
    have h := c.valid
    unfold UInt32.isValidChar Nat.isValidChar at h
    omega
  unfold encodeChar String.utf8EncodeChar Char.toNat
  generalize c.val.toNat = n at hbound ⊢
  have hone : (n < 0x80) = (n ≤ 0x7f) := by grind
  have htwo : (n < 0x800) = (n ≤ 0x7ff) := by grind
  have hthree : (n < 0x10000) = (n ≤ 0xffff) := by grind
  simp only [hone, htwo, hthree]
  split
  · rfl
  · split
    · have h : n / 64 % 0x20 = n / 64 := by omega
      rw [h, Nat.add_comm, Nat.add_comm (n % 0x40)]
    · split
      · have h : n / 4096 % 0x10 = n / 4096 := by omega
        rw [h, Nat.add_comm, Nat.add_comm (n % 0x40), Nat.add_comm (n / 64 % 0x40)]
      · have h : n / 262144 % 0x08 = n / 262144 := by omega
        rw [h, Nat.add_comm, Nat.add_comm (n % 0x40), Nat.add_comm (n / 64 % 0x40),
          Nat.add_comm (n / 4096 % 0x40)]

/-- Texts with the same bytes are the same. -/
theorem encode_inj {s t : String} (h : encode s = encode t) : s = t := by
  have hbytes : s.toList.utf8Encode = t.toList.utf8Encode := by
    unfold encode at h
    simp only [funext encodeChar_eq] at h
    unfold List.utf8Encode
    rw [h]
  rw [String.utf8Encode_toList, String.utf8Encode_toList] at hbytes
  exact String.toByteArray_inj.mp hbytes

/-- Every line end, a carriage return with or without a line feed, as a line feed. -/
def universalLines : List Char → List Char
  | [] => []
  | '\r' :: '\n' :: rest => '\n' :: universalLines rest
  | '\r' :: rest => '\n' :: universalLines rest
  | c :: rest => c :: universalLines rest

end Utf8

end DartModels
