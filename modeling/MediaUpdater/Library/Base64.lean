import Mathlib

/-!
# Base64

The encoder takes three bytes to four letters and pads the last group with `=`.
The decoder is a shift register: it takes six bits from every letter, gives out a
byte whenever it holds eight, and passes over everything that is not a letter, so
over the padding.

## Main results

* `decode_encode` — the decoder undoes the encoder.
* `encode_ascii` — a code is ASCII text.
-/

namespace Library.Base64

/-- The letter of a six-bit value. -/
def letter (n : ℕ) : UInt8 :=
  if n < 26 then .ofNat (65 + n)
  else if n < 52 then .ofNat (97 + (n - 26))
  else if n < 62 then .ofNat (48 + (n - 52))
  else if n = 62 then 43 else 47

/-- The value of a letter. -/
def value? (c : UInt8) : Option ℕ :=
  let n := c.toNat
  if 65 ≤ n ∧ n ≤ 90 then some (n - 65)
  else if 97 ≤ n ∧ n ≤ 122 then some (n - 97 + 26)
  else if 48 ≤ n ∧ n ≤ 57 then some (n - 48 + 52)
  else if n = 43 then some 62
  else if n = 47 then some 63
  else none

/-- The padding, `=`. -/
def pad : UInt8 := 61

/-- The code of a byte string. -/
def encode : List UInt8 → List UInt8
  | a :: b :: c :: rest =>
      letter (a.toNat / 4) :: letter (a.toNat % 4 * 16 + b.toNat / 16) ::
        letter (b.toNat % 16 * 4 + c.toNat / 64) :: letter (c.toNat % 64) :: encode rest
  | [a, b] =>
      [letter (a.toNat / 4), letter (a.toNat % 4 * 16 + b.toNat / 16),
      letter (b.toNat % 16 * 4), pad]
  | [a] => [letter (a.toNat / 4), letter (a.toNat % 4 * 16), pad, pad]
  | [] => []

/-- The decoder, with `bits` bits in its register `buffer`. -/
def decodeFrom : ℕ → ℕ → List UInt8 → List UInt8
  | _, _, [] => []
  | buffer, bits, c :: rest =>
      match value? c with
      | none => decodeFrom buffer bits rest
      | some d =>
          if bits + 6 < 8 then decodeFrom (buffer * 64 + d) (bits + 6) rest
          else
            .ofNat ((buffer * 64 + d) / 2 ^ (bits - 2)) ::
              decodeFrom ((buffer * 64 + d) % 2 ^ (bits - 2)) (bits - 2) rest

/-- The byte string of a code. -/
def decode (code : List UInt8) : List UInt8 := decodeFrom 0 0 code

/-! ### Letters -/

theorem value?_letter : ∀ n < 64, value? (letter n) = some n := by decide

theorem value?_pad : value? pad = none := by decide

theorem letter_ascii : ∀ n < 64, letter n ≠ 0 ∧ (letter n).toNat < 128 := by decide

/-- A letter with fewer than two bits waiting goes into the register. -/
theorem decodeFrom_letter {d : ℕ} (small : d < 64) (rest : List UInt8) :
    decodeFrom 0 0 (letter d :: rest) = decodeFrom d 6 rest := by
  rw [decodeFrom, value?_letter d small]
  simp

/-- Any other letter completes a byte `b` and leaves `l` in the register. -/
theorem decodeFrom_byte {buffer bits d : ℕ} (m : ℕ) (b : UInt8) (l : ℕ) (small : d < 64)
    (full : 2 ≤ bits) (size : 2 ^ (bits - 2) = m) (byte : (buffer * 64 + d) / m = b.toNat)
    (left : (buffer * 64 + d) % m = l) (rest : List UInt8) :
    decodeFrom buffer bits (letter d :: rest) = b :: decodeFrom l (bits - 2) rest := by
  rw [decodeFrom, value?_letter d small]
  simp only
  rw [if_neg (by omega), size, byte, left, UInt8.ofNat_toNat]

theorem decodeFrom_pad (buffer bits : ℕ) (rest : List UInt8) :
    decodeFrom buffer bits (pad :: rest) = decodeFrom buffer bits rest := by
  rw [decodeFrom, value?_pad]

/-! ### The code of a byte string -/

/-- **The decoder undoes the encoder.** -/
theorem decode_encode (bytes : List UInt8) : decode (encode bytes) = bytes := by
  unfold decode
  induction bytes using encode.induct with
  | case1 a b c rest ih =>
      have boundA := a.toNat_lt
      have boundB := b.toNat_lt
      have boundC := c.toNat_lt
      rw [encode, decodeFrom_letter (by omega),
        decodeFrom_byte 16 a (b.toNat / 16) (by omega) (by omega) rfl (by omega) (by omega),
        decodeFrom_byte 4 b (c.toNat / 64) (by omega) (by omega) rfl (by omega) (by omega),
        decodeFrom_byte 1 c 0 (by omega) (by omega) rfl (by omega) (by omega), ih]
  | case2 a b =>
      have boundA := a.toNat_lt
      have boundB := b.toNat_lt
      rw [encode, decodeFrom_letter (by omega),
        decodeFrom_byte 16 a (b.toNat / 16) (by omega) (by omega) rfl (by omega) (by omega),
        decodeFrom_byte 4 b 0 (by omega) (by omega) rfl (by omega) (by omega), decodeFrom_pad]
      rfl
  | case3 a =>
      have boundA := a.toNat_lt
      rw [encode, decodeFrom_letter (by omega),
        decodeFrom_byte 16 a 0 (by omega) (by omega) rfl (by omega) (by omega), decodeFrom_pad,
        decodeFrom_pad]
      rfl
  | case4 => rfl

/-- **A code is ASCII text**, and no NUL is in it. -/
theorem encode_ascii (bytes : List UInt8) : ∀ c ∈ encode bytes, c ≠ 0 ∧ c.toNat < 128 := by
  have padded : pad ≠ 0 ∧ pad.toNat < 128 := by decide
  induction bytes using encode.induct with
  | case1 a b c rest ih =>
      have boundA := a.toNat_lt
      have boundB := b.toNat_lt
      have boundC := c.toNat_lt
      simp only [encode, List.mem_cons]
      rintro x (rfl | rfl | rfl | rfl | mem)
      · exact letter_ascii _ (by omega)
      · exact letter_ascii _ (by omega)
      · exact letter_ascii _ (by omega)
      · exact letter_ascii _ (by omega)
      · exact ih x mem
  | case2 a b =>
      have boundA := a.toNat_lt
      have boundB := b.toNat_lt
      simp only [encode, List.mem_cons, List.not_mem_nil, or_false]
      rintro x (rfl | rfl | rfl | rfl)
      · exact letter_ascii _ (by omega)
      · exact letter_ascii _ (by omega)
      · exact letter_ascii _ (by omega)
      · exact padded
  | case3 a =>
      have boundA := a.toNat_lt
      simp only [encode, List.mem_cons, List.not_mem_nil, or_false]
      rintro x (rfl | rfl | rfl | rfl)
      · exact letter_ascii _ (by omega)
      · exact letter_ascii _ (by omega)
      · exact padded
      · exact padded
  | case4 => simp [encode]

end Library.Base64
