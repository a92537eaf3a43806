import Mathlib.Data.List.GetD
import Mathlib.Data.List.TakeWhile

namespace cstring

/-- The bytes of a text of ASCII characters. -/
def bytes (text : List Char) : List UInt8 := text.map fun c => c.toNat.toUInt8

/-- What `snprintf` writes for `%u`. -/
def unsigned (number : UInt32) : List Char := Nat.toDigits 10 number.toNat

/-- `snprintf`, from the text that the format gives: as much of it as fits, and a NUL. The
length it returns is that of the whole text. -/
def snprintf {size : Nat} (buffer : Vector UInt8 size) (text : List UInt8) :
    Vector UInt8 size × Nat :=
  (Vector.ofFn fun i =>
      if i.val < min text.length (size - 1) then text.getD i.val 0
      else if i.val = min text.length (size - 1) then 0
      else buffer.get i,
    text.length)

/-- What is read through a pointer to the array, if the NUL is in there. -/
def read {size : Nat} (buffer : Vector UInt8 size) : Option (List UInt8) :=
  if 0 ∈ buffer.toList then some (buffer.toList.takeWhile (· ≠ 0)) else none

/-- `std::string_view(data, length)`, if it is within the array. -/
def view {size : Nat} (buffer : Vector UInt8 size) (length : Nat) : Option (List UInt8) :=
  if length ≤ size then some (buffer.toList.take length) else none

/-- A text that fits, with its NUL, leaves the rest of the array as it is. -/
theorem snprintf_toList {size : Nat} {text : List UInt8} (hfits : text.length < size)
    (buffer : Vector UInt8 size) : (snprintf buffer text).1.toList =
      text ++ 0 :: buffer.toList.drop (text.length + 1) := by
  have hmin : min text.length (size - 1) = text.length := by omega
  refine List.ext_getElem (by simp; omega) fun i hleft hright => ?_
  have hi : i < size := by simpa [snprintf] using hleft
  simp only [snprintf, hmin, Vector.getElem_toList, Vector.getElem_ofFn]
  rcases Nat.lt_trichotomy i text.length with hlt | rfl | hgt
  · rw [if_pos hlt, List.getElem_append_left hlt, List.getD_eq_getElem _ _ hlt]
  · simp
  · rw [if_neg (by omega), if_neg (by omega), List.getElem_append_right hgt.le]
    obtain ⟨k, rfl⟩ : ∃ k, i = text.length + (k + 1) := ⟨i - text.length - 1, by omega⟩
    simp [Vector.get, Nat.add_assoc, Nat.add_comm 1]

/-- What `snprintf` has written is read back, if it fits and has no NUL in it. -/
theorem read_snprintf {size : Nat} {text : List UInt8} (hfits : text.length < size)
    (hplain : 0 ∉ text) (buffer : Vector UInt8 size) :
    read (snprintf buffer text).1 = some text := by
  have hnone : ∀ byte ∈ text, decide (byte ≠ 0) = true := by
    intro byte hbyte
    simpa using fun hzero : byte = 0 => hplain (hzero ▸ hbyte)
  rw [read, snprintf_toList hfits, if_pos (by simp), List.takeWhile_append_of_pos hnone]
  simp

/-- With the length `snprintf` returns, the text need not be free of NULs. -/
theorem view_snprintf {size : Nat} {text : List UInt8} (hfits : text.length < size)
    (buffer : Vector UInt8 size) :
    view (snprintf buffer text).1 (snprintf buffer text).2 = some text := by
  rw [view, snprintf_toList hfits]
  have hlength : (snprintf buffer text).2 = text.length := rfl
  rw [hlength, if_pos hfits.le, List.take_left']
  rfl

/-- A number of 32 bits has ten digits at most. -/
theorem length_unsigned_le (number : UInt32) : (unsigned number).length ≤ 10 :=
  (Nat.length_toDigits_le_iff (by decide) (by decide)).mpr
    (lt_of_lt_of_le number.toNat_lt (by decide))

/-- The bytes of a plain text have no NUL among them. -/
theorem zero_notMem_bytes {text : List Char} (hascii : ∀ c ∈ text, 0 < c.toNat ∧ c.toNat < 256) :
    0 ∉ bytes text := by
  intro hmem
  obtain ⟨c, hc, hzero⟩ := List.mem_map.mp hmem
  obtain ⟨hpositive, hsmall⟩ := hascii c hc
  have hvalue := congrArg UInt8.toNat hzero
  rw [UInt8.toNat_ofNat_of_lt' hsmall] at hvalue
  exact hpositive.ne' hvalue

/-- Digits are plain characters. -/
theorem ascii_of_mem_unsigned {number : UInt32} {c : Char} (hc : c ∈ unsigned number) :
    0 < c.toNat ∧ c.toNat < 256 := by
  have hdigit := Nat.isDigit_of_mem_toDigits (by decide) (by decide) hc
  simp only [Char.isDigit, Bool.and_eq_true, decide_eq_true_eq, ge_iff_le,
    UInt32.le_iff_toNat_le] at hdigit
  have hlow : 48 ≤ c.toNat := hdigit.1
  have hhigh : c.toNat ≤ 57 := hdigit.2
  omega

/-- Texts of characters that are one byte each are told apart by their bytes. -/
theorem bytes_inj {text other : List Char} (htext : ∀ c ∈ text, c.toNat < 256)
    (hother : ∀ c ∈ other, c.toNat < 256) (hsame : bytes text = bytes other) : text = other := by
  have hback : ∀ l : List Char, (∀ c ∈ l, c.toNat < 256) →
      (bytes l).map (fun byte => Char.ofNat byte.toNat) = l := by
    intro l hl
    have heach : ∀ c ∈ l, Char.ofNat c.toNat.toUInt8.toNat = id c := by
      intro c hc
      rw [Nat.toUInt8, UInt8.toNat_ofNat_of_lt' (hl c hc), Char.ofNat_toNat, id]
    rw [bytes, List.map_map]
    exact (List.map_congr_left heach).trans l.map_id
  rw [← hback text htext, hsame, hback other hother]

/-- A number can be read off its digits. -/
theorem unsigned_injective : Function.Injective unsigned := by
  intro number other hsame
  have hvalue := congrArg (Nat.ofDigitChars 10 · 0) hsame
  simp only [unsigned, Nat.ofDigitChars_toDigits (b := 10) (by decide) (by decide)] at hvalue
  exact UInt32.toNat_inj.mp hvalue

end cstring
