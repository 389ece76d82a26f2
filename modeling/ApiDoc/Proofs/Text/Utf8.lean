import Mathlib
import ApiDoc.Text.Utf8

/-!
# Bytes that write a text

Every text is written by bytes, and only these bytes are read back as the text
(`Utf8.decode_eq_ok_iff`). So bytes cannot be read if and only if no text is written by them. What
the reader takes for a character is its first byte and the tail that this byte asks for
(`Utf8.Spells`); these are the bytes of the character, with no second way to write it
(`Utf8.spells_iff`).
-/

namespace ApiDoc.Utf8

/-- The bytes that write a text. -/
def encode (t : Text) : List UInt8 :=
  t.flatMap String.utf8EncodeChar

/-- Bytes may follow the first byte of a character: the next one lies between the given bounds, and
all others between the bounds of any such byte. -/
def IsTail (low high : UInt8) : List UInt8 → Prop
  | [] => True
  | b :: tail => (low.toNat ≤ b.toNat ∧ b.toNat ≤ high.toNat) ∧ IsTail 0x80 0xBF tail

/-- The number that the bits of a first byte and those of the bytes behind it make. -/
def value (bits : Nat) (tail : List UInt8) : Nat :=
  tail.foldl (fun n b => n * 64 + (b.toNat - 0x80)) bits

section
variable {b : UInt8} {bytes rest tail : List UInt8} {taken bits missing n offset : Nat}
  {low high : UInt8} {t : Text}

/-! ## What is read as a character -/

theorem value_cons (bits : Nat) (b : UInt8) (tail : List UInt8) :
    value bits (b :: tail) = value (bits * 64 + (b.toNat - 0x80)) tail :=
  List.foldl_cons ..

/-- The bytes that start a character, by how many bytes have to follow. -/
theorem lead?_eq_some_iff : lead? b = some (missing, bits, low, high) ↔
    (missing = 0 ∧ b.toNat < 0x80 ∧ bits = b.toNat ∧ low = 0x80 ∧ high = 0xBF) ∨
    (missing = 1 ∧ (0xC2 ≤ b.toNat ∧ b.toNat < 0xE0) ∧ bits = b.toNat - 0xC0 ∧
      low = 0x80 ∧ high = 0xBF) ∨
    (missing = 2 ∧ (0xE0 ≤ b.toNat ∧ b.toNat < 0xF0) ∧ bits = b.toNat - 0xE0 ∧
      low = (if b.toNat = 0xE0 then 0xA0 else 0x80) ∧
      high = if b.toNat = 0xED then 0x9F else 0xBF) ∨
    (missing = 3 ∧ (0xF0 ≤ b.toNat ∧ b.toNat < 0xF5) ∧ bits = b.toNat - 0xF0 ∧
      low = (if b.toNat = 0xF0 then 0x90 else 0x80) ∧
      high = if b.toNat = 0xF4 then 0x8F else 0xBF) := by
  have heq (c : UInt8) : b = c ↔ b.toNat = c.toNat := UInt8.toNat_inj.symm
  simp only [lead?, UInt8.lt_iff_toNat_lt, heq, UInt8.reduceToNat]
  grind

/-- What is read behind a first byte: as many bytes as are missing, all of which may stand there. -/
theorem continue?_eq_ok_iff : continue? taken bits low high missing bytes = .ok (n, rest) ↔
    ∃ tail, bytes = tail ++ rest ∧ tail.length = missing ∧ IsTail low high tail ∧
      n = value bits tail := by
  induction missing generalizing taken bits low high bytes with
  | zero =>
    simp only [continue?, Except.ok.injEq, Prod.mk.injEq, List.length_eq_zero_iff]
    constructor
    · rintro ⟨rfl, rfl⟩
      exact ⟨[], rfl, rfl, trivial, rfl⟩
    · rintro ⟨_, rfl, rfl, -, rfl⟩
      exact ⟨rfl, rfl⟩
  | succ missing ih =>
    cases bytes with
    | nil => simp [continue?]
    | cons b bytes =>
      simp only [continue?, UInt8.le_iff_toNat_le, Bool.and_eq_true, decide_eq_true_eq]
      split
      · next hb =>
        rw [ih]
        constructor
        · rintro ⟨tail, rfl, rfl, htail, rfl⟩
          exact ⟨b :: tail, rfl, rfl, ⟨hb, htail⟩, (value_cons bits b tail).symm⟩
        · rintro ⟨_ | ⟨b₁, tail⟩, heq, hlength, htail, hn⟩
          · cases hlength
          · cases heq
            exact ⟨tail, rfl, Nat.succ.inj hlength, htail.2, value_cons bits b tail ▸ hn⟩
      · next hb =>
        refine iff_of_false (fun h => by cases h) ?_
        rintro ⟨_ | ⟨b₁, tail⟩, heq, hlength, htail, -⟩
        · cases hlength
        · cases heq
          exact hb htail.1

/-! ## The bytes of a character -/

/-- The bytes of the character with a number, as numbers. -/
theorem map_toNat_utf8EncodeChar (hn : n.isValidChar) :
    (String.utf8EncodeChar (Char.ofNat n)).map UInt8.toNat =
      if n < 0x80 then [n]
      else if n < 0x800 then [0xC0 + n / 64, 0x80 + n % 64]
      else if n < 0x10000 then [0xE0 + n / 4096, 0x80 + n / 64 % 64, 0x80 + n % 64]
      else [0xF0 + n / 262144, 0x80 + n / 4096 % 64, 0x80 + n / 64 % 64, 0x80 + n % 64] := by
  have hval : (Char.ofNat n).val.toNat = n := by
    rw [Char.toNat_val, Char.toNat_ofNat, if_pos hn]
  have hlt : n < 0x110000 := by
    unfold Nat.isValidChar at hn
    omega
  simp only [String.utf8EncodeChar, hval, ← Nat.lt_succ_iff]
  split_ifs <;>
    simp only [List.map_cons, List.map_nil, UInt8.toNat_ofNat', List.cons.injEq, and_true] <;> omega

/-- A first byte and a tail write the character with a number. -/
def Spells (b : UInt8) (tail : List UInt8) (n : Nat) : Prop :=
  ∃ bits low high, lead? b = some (tail.length, bits, low, high) ∧ IsTail low high tail ∧
    n = value bits tail

/-- One byte writes its own number. -/
theorem spells_one : Spells b [] n ↔ b.toNat < 0x80 ∧ n = b.toNat := by
  simp [Spells, lead?_eq_some_iff, IsTail, value]

/-- Two bytes write what needs more than seven bits: no first byte is below `0xC2`. -/
theorem spells_two {b₁ : UInt8} : Spells b [b₁] n ↔ (0xC2 ≤ b.toNat ∧ b.toNat < 0xE0) ∧
    (0x80 ≤ b₁.toNat ∧ b₁.toNat ≤ 0xBF) ∧ n = (b.toNat - 0xC0) * 64 + (b₁.toNat - 0x80) := by
  simp [Spells, lead?_eq_some_iff, IsTail, value]

/-- Three bytes write what needs more than eleven bits and is not left to pairs of surrogates. -/
theorem spells_three {b₁ b₂ : UInt8} : Spells b [b₁, b₂] n ↔
    (0xE0 ≤ b.toNat ∧ b.toNat < 0xF0) ∧
    ((if b.toNat = 0xE0 then 0xA0 else 0x80) ≤ b₁.toNat ∧
      b₁.toNat ≤ if b.toNat = 0xED then 0x9F else 0xBF) ∧
    (0x80 ≤ b₂.toNat ∧ b₂.toNat ≤ 0xBF) ∧
    n = ((b.toNat - 0xE0) * 64 + (b₁.toNat - 0x80)) * 64 + (b₂.toNat - 0x80) := by
  simp [Spells, lead?_eq_some_iff, IsTail, value, apply_ite UInt8.toNat, and_assoc]

/-- Four bytes write what needs more than sixteen bits, up to the last character. -/
theorem spells_four {b₁ b₂ b₃ : UInt8} : Spells b [b₁, b₂, b₃] n ↔
    (0xF0 ≤ b.toNat ∧ b.toNat < 0xF5) ∧
    ((if b.toNat = 0xF0 then 0x90 else 0x80) ≤ b₁.toNat ∧
      b₁.toNat ≤ if b.toNat = 0xF4 then 0x8F else 0xBF) ∧
    (0x80 ≤ b₂.toNat ∧ b₂.toNat ≤ 0xBF) ∧ (0x80 ≤ b₃.toNat ∧ b₃.toNat ≤ 0xBF) ∧
    n = (((b.toNat - 0xF0) * 64 + (b₁.toNat - 0x80)) * 64 + (b₂.toNat - 0x80)) * 64 +
      (b₃.toNat - 0x80) := by
  simp [Spells, lead?_eq_some_iff, IsTail, value, apply_ite UInt8.toNat, and_assoc]

/-- At most three bytes follow a first byte. -/
theorem Spells.length_le (h : Spells b tail n) : tail.length ≤ 3 := by
  obtain ⟨bits, low, high, hlead, -⟩ := h
  rw [lead?_eq_some_iff] at hlead
  omega

/-- A first byte and a tail write a number if and only if it is that of a character and they are its
bytes. -/
theorem spells_iff : Spells b tail n ↔
    n.isValidChar ∧ b :: tail = String.utf8EncodeChar (Char.ofNat n) := by
  have hbytes : b :: tail = String.utf8EncodeChar (Char.ofNat n) ↔
      (b :: tail).map UInt8.toNat = (String.utf8EncodeChar (Char.ofNat n)).map UInt8.toNat :=
    (List.map_injective_iff.2 fun _ _ => UInt8.toNat_inj.1).eq_iff.symm
  rw [hbytes, and_congr_right fun hn : n.isValidChar => by rw [map_toNat_utf8EncodeChar hn]]
  unfold Nat.isValidChar
  -- Both sides are now bounds on the bytes as numbers, by how many they are.
  match tail with
  | [] =>
    rw [spells_one]
    split_ifs <;> simp <;> omega
  | [b₁] =>
    rw [spells_two]
    split_ifs <;> simp <;> omega
  | [b₁, b₂] =>
    rw [spells_three]
    split_ifs <;> simp <;> omega
  | [b₁, b₂, b₃] =>
    rw [spells_four]
    split_ifs <;> simp <;> omega
  | _ :: _ :: _ :: _ :: _ =>
    refine iff_of_false (fun h => ?_) ?_
    · have hlength := h.length_le
      simp only [List.length_cons] at hlength
      omega
    · split_ifs <;> simp

/-! ## Reading what was written -/

/-- What is read from a first byte on: the byte and a tail of it that write a number. -/
theorem exists_spells_iff : (∃ missing bits low high, lead? b = some (missing, bits, low, high) ∧
      continue? 1 bits low high missing bytes = .ok (n, rest)) ↔
    ∃ tail, bytes = tail ++ rest ∧ Spells b tail n := by
  simp only [continue?_eq_ok_iff]
  constructor
  · rintro ⟨_, bits, low, high, hlead, tail, rfl, rfl, htail, hn⟩
    exact ⟨tail, rfl, bits, low, high, hlead, htail, hn⟩
  · rintro ⟨tail, rfl, bits, low, high, hlead, htail, hn⟩
    exact ⟨_, bits, low, high, hlead, tail, rfl, rfl, htail, hn⟩

/-- A character is read off the front of the bytes that begin with its own. -/
theorem reads_iff (c : Char) : (∃ missing bits low high,
      lead? b = some (missing, bits, low, high) ∧
      continue? 1 bits low high missing bytes = .ok (c.toNat, rest)) ↔
    b :: bytes = String.utf8EncodeChar c ++ rest := by
  have hspells (tail : List UInt8) :
      Spells b tail c.toNat ↔ b :: tail = String.utf8EncodeChar c := by
    rw [spells_iff, Char.ofNat_toNat]
    exact and_iff_right c.valid
  simp only [exists_spells_iff, hspells]
  constructor
  · rintro ⟨tail, rfl, heq⟩
    exact heq ▸ rfl
  · intro heq
    cases hchar : String.utf8EncodeChar c with
    | nil => exact absurd hchar String.utf8EncodeChar_ne_nil
    | cons b₁ tail =>
      rw [hchar] at heq
      cases heq
      exact ⟨tail, rfl, rfl⟩

/-- The number that is read is that of a character. -/
theorem toNat_ofNat_of_continue? (hlead : lead? b = some (missing, bits, low, high))
    (hcontinue : continue? 1 bits low high missing bytes = .ok (n, rest)) :
    (Char.ofNat n).toNat = n := by
  obtain ⟨tail, -, hspells⟩ := exists_spells_iff.1 ⟨missing, bits, low, high, hlead, hcontinue⟩
  rw [Char.toNat_ofNat, if_pos (spells_iff.1 hspells).1]

/-- Bytes write a text with a first character if and only if this is the one that is read, and the
bytes behind it write the others. -/
theorem cons_eq_encode_iff : b :: bytes = encode t ↔ ∃ c t₁, t = c :: t₁ ∧
    ∃ missing bits low high, lead? b = some (missing, bits, low, high) ∧
      continue? 1 bits low high missing bytes = .ok (c.toNat, encode t₁) := by
  simp only [reads_iff]
  cases t <;> simp [encode]

theorem decodeFrom_eq_ok_iff : decodeFrom offset bytes = .ok t ↔ bytes = encode t := by
  fun_induction decodeFrom offset bytes generalizing t with
  | case1 offset => cases t <;> simp [encode]
  | case2 offset b bytes hlead =>
    refine iff_of_false nofun fun heq => ?_
    obtain ⟨_, _, -, _, _, _, _, hlead₁, -⟩ := cons_eq_encode_iff.1 heq
    cases hlead.symm.trans hlead₁
  | case3 offset b bytes missing bits low high hlead reason count hcontinue =>
    refine iff_of_false nofun fun heq => ?_
    obtain ⟨_, _, -, _, _, _, _, hlead₁, hcontinue₁⟩ := cons_eq_encode_iff.1 heq
    cases hlead.symm.trans hlead₁
    cases hcontinue.symm.trans hcontinue₁
  | case4 offset b bytes missing bits low high hlead n rest hcontinue ih =>
    rw [cons_eq_encode_iff]
    constructor
    · intro h
      cases hrest : decodeFrom (offset + 1 + missing) rest with
      | error f =>
        rw [hrest] at h
        cases h
      | ok t₁ =>
        rw [hrest] at h
        cases h
        refine ⟨Char.ofNat n, t₁, rfl, missing, bits, low, high, hlead, ?_⟩
        rw [toNat_ofNat_of_continue? hlead hcontinue, ← ih.1 hrest]
        exact hcontinue
    · rintro ⟨c, t₁, rfl, _, _, _, _, hlead₁, hcontinue₁⟩
      cases hlead.symm.trans hlead₁
      cases hcontinue.symm.trans hcontinue₁
      rw [Char.ofNat_toNat, ih.2 rfl]
      rfl

/-- Bytes are read as a text if and only if they write it. -/
theorem decode_eq_ok_iff : decode bytes = .ok t ↔ bytes = encode t :=
  decodeFrom_eq_ok_iff

/-- Bytes write one text at most. -/
theorem encode_injective : Function.Injective encode := by
  intro t t₁ h
  have hdecode := (decode_eq_ok_iff (t := t)).2 rfl
  rw [h, decode_eq_ok_iff.2 rfl] at hdecode
  exact (Except.ok.inj hdecode).symm

/-- Bytes cannot be read if and only if they write no text. -/
theorem exists_decode_eq_error_iff :
    (∃ f, decode bytes = .error f) ↔ ∀ t, bytes ≠ encode t := by
  cases hdecode : decode bytes with
  | ok t => exact iff_of_false nofun fun hbad => hbad t (decode_eq_ok_iff.1 hdecode)
  | error f =>
    refine iff_of_true ⟨f, rfl⟩ fun t ht => ?_
    cases hdecode.symm.trans (decode_eq_ok_iff.2 ht)

end

end ApiDoc.Utf8

