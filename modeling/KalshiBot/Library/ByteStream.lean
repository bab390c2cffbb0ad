import Mathlib.Data.Nat.Digits.Defs
import Mathlib.Data.List.Basic

/-! # Byte streams that arrive in pieces

`readexactly` waits until enough has arrived. What it returns depends on the bytes, never on
how they were cut.
-/

namespace KalshiBot.ByteStream

set_option autoImplicit false

abbrev Bytes := List UInt8

/-- `struct.pack(">I", n)` -/
def pack (n : ℕ) : Bytes :=
  [UInt8.ofNat (n / 2 ^ 24), UInt8.ofNat (n / 2 ^ 16), UInt8.ofNat (n / 2 ^ 8), UInt8.ofNat n]

/-- `struct.unpack(">I", bytes)` -/
def unpack (bytes : Bytes) : ℕ := bytes.foldl (fun n byte => n * 256 + byte.toNat) 0

theorem length_pack (n : ℕ) : (pack n).length = 4 := rfl

theorem unpack_pack {n : ℕ} (h : n < 2 ^ 32) : unpack (pack n) = n := by
  simp only [unpack, pack, List.foldl_cons, List.foldl_nil, UInt8.toNat_ofNat']
  omega

/-- What has arrived and is not yet read, and what is still to come before the end. -/
structure StreamReader where
  buffer : Bytes
  arriving : List Bytes

namespace StreamReader

def rest (reader : StreamReader) : Bytes := reader.buffer ++ reader.arriving.flatten

/-- `none` is the `IncompleteReadError` of a stream that ends too early. -/
def readExactly (n : ℕ) (buffer : Bytes) : List Bytes → Option (Bytes × StreamReader)
  | [] => if n ≤ buffer.length then some (buffer.take n, ⟨buffer.drop n, []⟩) else none
  | chunk :: chunks =>
    if n ≤ buffer.length then some (buffer.take n, ⟨buffer.drop n, chunk :: chunks⟩)
    else readExactly n (buffer ++ chunk) chunks

/-- `reader.readexactly(n)` -/
def readexactly (n : ℕ) (reader : StreamReader) : Option (Bytes × StreamReader) :=
  readExactly n reader.buffer reader.arriving

theorem readExactly_eq_none_iff {n : ℕ} {buffer : Bytes} {chunks : List Bytes} :
    readExactly n buffer chunks = none ↔ (buffer ++ chunks.flatten).length < n := by
  induction chunks generalizing buffer with
  | nil =>
    rw [readExactly, List.flatten_nil, List.append_nil]
    split
    · simp only [reduceCtorEq, false_iff]
      omega
    · simp only [true_iff]
      omega
  | cons chunk chunks ih =>
    rw [readExactly, List.flatten_cons, ← List.append_assoc]
    split
    · simp only [reduceCtorEq, false_iff, List.length_append]
      omega
    · exact ih

theorem readExactly_eq_some {n : ℕ} {buffer bytes : Bytes} {chunks : List Bytes}
    {reader : StreamReader} (h : readExactly n buffer chunks = some (bytes, reader)) :
    bytes.length = n ∧ bytes ++ reader.rest = buffer ++ chunks.flatten := by
  induction chunks generalizing buffer with
  | nil =>
    rw [readExactly] at h
    split at h
    next hEnough =>
      cases h
      exact ⟨List.length_take_of_le hEnough, by simp [rest]⟩
    next => cases h
  | cons chunk chunks ih =>
    rw [readExactly] at h
    split at h
    next hEnough =>
      cases h
      exact ⟨List.length_take_of_le hEnough, by simp [rest, ← List.append_assoc]⟩
    next =>
      obtain ⟨hLength, hBytes⟩ := ih h
      exact ⟨hLength, by rw [hBytes, List.append_assoc, List.flatten_cons]⟩

theorem readexactly_eq_none_iff {n : ℕ} {reader : StreamReader} :
    reader.readexactly n = none ↔ reader.rest.length < n := readExactly_eq_none_iff

/-- However the stream is cut, the next bytes are its next bytes. -/
theorem readexactly_append {reader : StreamReader} {bytes tail : Bytes}
    (h : reader.rest = bytes ++ tail) :
    ∃ reader', reader.readexactly bytes.length = some (bytes, reader') ∧ reader'.rest = tail := by
  cases hRead : reader.readexactly bytes.length with
  | none =>
    have hShort := readexactly_eq_none_iff.mp hRead
    rw [h, List.length_append] at hShort
    omega
  | some read =>
    obtain ⟨bytes', reader'⟩ := read
    obtain ⟨hLength, hRest⟩ := readExactly_eq_some hRead
    obtain ⟨rfl, rfl⟩ := List.append_inj (hRest.trans h) hLength
    exact ⟨reader', rfl, rfl⟩

end StreamReader

end KalshiBot.ByteStream
