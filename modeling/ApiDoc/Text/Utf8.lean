import ApiDoc.Text.Basic

/-!
# UTF-8

Reading bytes as UTF-8 text. A fault tells the bytes that cannot be read: from the first byte of a
character up to the byte that cannot continue it.
-/

namespace ApiDoc.Utf8

/-- Why bytes are no character. -/
inductive Reason where
  /-- No character starts with the byte. -/
  | badStart
  /-- A byte that should continue a character does not. -/
  | badContinuation
  /-- The bytes end within a character. -/
  | unexpectedEnd
  deriving DecidableEq, Repr

/-- The wording of a reason. -/
def Reason.message : Reason → String
  | badStart => "invalid start byte"
  | badContinuation => "invalid continuation byte"
  | unexpectedEnd => "unexpected end of data"

/-- Bytes that cannot be read. -/
structure Fault where
  /-- Why they cannot. -/
  reason : Reason
  /-- How many bytes come before them. -/
  offset : Nat
  /-- How many they are; one or more. -/
  count : Nat
  /-- The first of them. -/
  byte : UInt8
  deriving DecidableEq, Repr

/-- The wording of a fault. -/
def Fault.message (f : Fault) : String :=
  let what :=
    if f.count = 1 then
      s!"byte 0x{Text.toString (Text.ofHex 2 f.byte.toNat)} in position {f.offset}"
    else s!"bytes in position {f.offset}-{f.offset + f.count - 1}"
  s!"'utf-8' codec can't decode {what}: {f.reason.message}"

/-- How many bytes follow a first byte, the bits that it gives, and the least and the greatest byte
that may come second. -/
def lead? (b : UInt8) : Option (Nat × Nat × UInt8 × UInt8) :=
  let n := b.toNat
  if b < 0x80 then some (0, n, 0x80, 0xBF)
  else if b < 0xC2 then none
  else if b < 0xE0 then some (1, n - 0xC0, 0x80, 0xBF)
  else if b = 0xE0 then some (2, 0, 0xA0, 0xBF)
  else if b = 0xED then some (2, 0xD, 0x80, 0x9F)
  else if b < 0xF0 then some (2, n - 0xE0, 0x80, 0xBF)
  else if b = 0xF0 then some (3, 0, 0x90, 0xBF)
  else if b < 0xF4 then some (3, n - 0xF0, 0x80, 0xBF)
  else if b = 0xF4 then some (3, 4, 0x80, 0x8F)
  else none

/-- The code point of a character whose first byte was read: `taken` bytes were read, `missing`
bytes have to come, the next one between `low` and `high`. A failure gives the reason and how many
bytes it is about. -/
def continue? (taken bits : Nat) (low high : UInt8) :
    (missing : Nat) → List UInt8 → Except (Reason × Nat) (Nat × List UInt8)
  | 0, bytes => .ok (bits, bytes)
  | _ + 1, [] => .error (.unexpectedEnd, taken)
  | missing + 1, b :: bytes =>
    if low ≤ b && b ≤ high then
      continue? (taken + 1) (bits * 64 + (b.toNat - 0x80)) 0x80 0xBF missing bytes
    else .error (.badContinuation, taken)

theorem continue?_length {taken bits : Nat} {low high : UInt8} {missing : Nat}
    {bytes rest : List UInt8} {n : Nat}
    (h : continue? taken bits low high missing bytes = .ok (n, rest)) :
    rest.length ≤ bytes.length := by
  induction missing generalizing taken bits low high bytes with
  | zero =>
    cases h
    exact Nat.le_refl _
  | succ missing ih =>
    cases bytes with
    | nil => simp [continue?] at h
    | cons b bytes =>
      simp only [continue?] at h
      split at h
      · exact Nat.le_succ_of_le (ih h)
      · simp at h

/-- The text that bytes write, where so many bytes came before. -/
def decodeFrom (offset : Nat) (bytes : List UInt8) : Except Fault Text :=
  match bytes with
  | [] => .ok []
  | b :: bytes =>
    match lead? b with
    | none => .error { reason := .badStart, offset, count := 1, byte := b }
    | some (missing, bits, low, high) =>
      match _h : continue? 1 bits low high missing bytes with
      | .error (reason, count) => .error { reason, offset, count, byte := b }
      | .ok (n, rest) =>
        (decodeFrom (offset + 1 + missing) rest).map (Char.ofNat n :: ·)
termination_by bytes.length
decreasing_by exact Nat.lt_succ_of_le (continue?_length _h)

/-- The text that bytes write. -/
def decode (bytes : List UInt8) : Except Fault Text :=
  decodeFrom 0 bytes

end ApiDoc.Utf8
