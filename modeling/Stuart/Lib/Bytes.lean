/-
Byte strings as they go over a wire: a slice at a position, integers of fixed width with the most
significant byte first, and UTF-8 text whose malformed parts are replaced.
-/
import Mathlib.Data.Nat.Digits.Defs

namespace Lib

open List

/-! ### Slices -/

/-- The `len` bytes from position `pos` on, if there are so many. -/
def readAt (pos len : ℕ) (bytes : List UInt8) : Option (List UInt8) :=
  if pos + len ≤ bytes.length then some ((bytes.drop pos).take len) else none

lemma readAt_append (pre bytes : List UInt8) (len : ℕ) :
    readAt pre.length len (pre ++ bytes) =
      if len ≤ bytes.length then some (bytes.take len) else none := by
  simp only [readAt, length_append, Nat.add_le_add_iff_left, drop_left]

lemma readAt_append_left (pre mid suf : List UInt8) :
    readAt pre.length mid.length (pre ++ (mid ++ suf)) = some mid := by
  have hfits : mid.length ≤ (mid ++ suf).length := by
    rw [length_append]
    omega
  rw [readAt_append, if_pos hfits, take_left]

/-! ### Integers -/

/-- The last `width` digits of `n` to the base 256, the most significant one first. -/
def bigEndian : ℕ → ℕ → List UInt8
  | 0, _ => []
  | width + 1, n => bigEndian width (n / 256) ++ [UInt8.ofNat n]

/-- The number with these digits to the base 256. -/
def ofBigEndian (bytes : List UInt8) : ℕ :=
  Nat.ofDigits 256 (bytes.reverse.map UInt8.toNat)

@[simp] lemma length_bigEndian (width n : ℕ) : (bigEndian width n).length = width := by
  induction width generalizing n with
  | zero => rfl
  | succ width ih => simp only [bigEndian, length_append, ih, length_singleton]

lemma ofBigEndian_concat (bytes : List UInt8) (b : UInt8) :
    ofBigEndian (bytes ++ [b]) = b.toNat + 256 * ofBigEndian bytes := by
  simp only [ofBigEndian, reverse_append, reverse_singleton, singleton_append, map_cons,
    Nat.ofDigits_cons]

lemma ofBigEndian_bigEndian (width n : ℕ) :
    ofBigEndian (bigEndian width n) = n % 256 ^ width := by
  induction width generalizing n with
  | zero => simp [bigEndian, ofBigEndian, Nat.mod_one]
  | succ width ih =>
      have hdigit : (UInt8.ofNat n).toNat = n % 256 := UInt8.toNat_ofNat'
      rw [bigEndian, ofBigEndian_concat, ih, hdigit, pow_succ', Nat.mod_mul]

/-- The four bytes of a signed integer of 32 bits. -/
def int32Bytes (n : ℤ) : List UInt8 := bigEndian 4 (n % 2 ^ 32).toNat

def int32Of (bytes : List UInt8) : ℤ := Int.bmod (ofBigEndian bytes) (2 ^ 32)

@[simp] lemma length_int32Bytes (n : ℤ) : (int32Bytes n).length = 4 := length_bigEndian 4 _

lemma int32Of_int32Bytes {n : ℤ} (hlow : -2 ^ 31 ≤ n) (hhigh : n < 2 ^ 31) :
    int32Of (int32Bytes n) = n := by
  have hdigits : ofBigEndian (int32Bytes n) = (n % 2 ^ 32).toNat := by
    rw [int32Bytes, ofBigEndian_bigEndian]
    omega
  have hmod : (ofBigEndian (int32Bytes n) : ℤ) = n % (2 ^ 32 : ℕ) := by omega
  calc int32Of (int32Bytes n)
    _ = Int.bmod (n % (2 ^ 32 : ℕ)) (2 ^ 32) := congrArg (Int.bmod · (2 ^ 32)) hmod
    _ = Int.bmod n (2 ^ 32) := Int.emod_bmod n _
    _ = n := Int.bmod_eq_of_le (by omega) (by omega)

/-! ### Text -/

def utf8 (text : List Char) : List UInt8 := text.flatMap String.utf8EncodeChar

@[simp] lemma utf8_nil : utf8 [] = [] := rfl

@[simp] lemma utf8_cons (c : Char) (text : List Char) :
    utf8 (c :: text) = String.utf8EncodeChar c ++ utf8 text := rfl

/-- The character whose encoding the bytes start with. -/
def utf8Head? (bytes : List UInt8) : Option Char :=
  (bytes.take 4).toByteArray.utf8DecodeChar? 0

lemma utf8Head?_append (c : Char) (bytes : List UInt8) :
    utf8Head? (String.utf8EncodeChar c ++ bytes) = some c := by
  have hsize : (String.utf8EncodeChar c).length ≤ 4 := by
    rw [String.length_utf8EncodeChar]
    exact c.utf8Size_le_four
  rw [utf8Head?, take_append, take_of_length_le hsize, toByteArray_append]
  exact ByteArray.utf8DecodeChar?_utf8EncodeChar_append

section Decode
variable (malformed : List UInt8 → ℕ)

/-- Decode what follows the next `skip` bytes.  Where no character starts, one replacement character
stands for the byte there and for as many more as `malformed` says. -/
def utf8DecodeFrom : ℕ → List UInt8 → List Char
  | _, [] => []
  | skip + 1, _ :: bytes => utf8DecodeFrom skip bytes
  | 0, b :: bytes =>
      match utf8Head? (b :: bytes) with
      | some c => c :: utf8DecodeFrom (c.utf8Size - 1) bytes
      | none => '\uFFFD' :: utf8DecodeFrom (malformed (b :: bytes)) bytes

def utf8Decode (bytes : List UInt8) : List Char := utf8DecodeFrom malformed 0 bytes

lemma utf8DecodeFrom_append (pre bytes : List UInt8) :
    utf8DecodeFrom malformed pre.length (pre ++ bytes) = utf8DecodeFrom malformed 0 bytes := by
  induction pre with
  | nil => rfl
  | cons b pre ih => simpa only [length_cons, cons_append, utf8DecodeFrom] using ih

lemma utf8Decode_append (c : Char) (bytes : List UInt8) :
    utf8Decode malformed (String.utf8EncodeChar c ++ bytes) = c :: utf8Decode malformed bytes := by
  have hhead := utf8Head?_append c bytes
  have hlength := String.length_utf8EncodeChar c
  cases hencoded : String.utf8EncodeChar c with
  | nil =>
      rw [hencoded, length_nil] at hlength
      exact absurd c.utf8Size_pos (by omega)
  | cons b rest =>
      rw [hencoded, cons_append] at hhead
      rw [hencoded, length_cons] at hlength
      simp only [utf8Decode, cons_append, utf8DecodeFrom, hhead]
      rw [← hlength, Nat.add_sub_cancel, utf8DecodeFrom_append]

/-- Decoding undoes encoding, however malformed bytes are replaced. -/
lemma utf8Decode_utf8 (text : List Char) : utf8Decode malformed (utf8 text) = text := by
  induction text with
  | nil => rfl
  | cons c text ih => rw [utf8_cons, utf8Decode_append, ih]

end Decode

lemma length_le_length_utf8 (text : List Char) : text.length ≤ (utf8 text).length := by
  induction text with
  | nil => rfl
  | cons c text ih =>
      have hpos := c.utf8Size_pos
      rw [utf8_cons, length_append, String.length_utf8EncodeChar, length_cons]
      omega

/-- Only ASCII text has as many bytes as characters. -/
lemma length_utf8_eq_length_iff (text : List Char) :
    (utf8 text).length = text.length ↔ ∀ c ∈ text, c.utf8Size = 1 := by
  induction text with
  | nil => simp
  | cons c text ih =>
      have hpos := c.utf8Size_pos
      have hle := length_le_length_utf8 text
      rw [utf8_cons, length_append, String.length_utf8EncodeChar, length_cons, forall_mem_cons,
        ← ih]
      omega

end Lib
