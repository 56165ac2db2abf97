/-
KasmCloud.Lib.MessagePack — the MessagePack encoding of a value.

The first byte of an encoding is a small integer, `nil` or a boolean, or
says what follows it: a wider integer or a floating-point number of some
width, or a length of some width. `encode` chooses the shortest form. The
extension types are left out.

* `readInt_encodeInt` — every 64-bit integer is read back;
* `head?_encode_ne_unused`, `head?_encode_eq_seven_f` — no encoding starts
  with `0xc1`, and the only one that starts with `0x7f` is that of 127.
-/
import Mathlib.Algebra.Ring.Int.Defs
import Mathlib.Algebra.Ring.Nat
import Mathlib.Data.List.Basic
import Mathlib.Tactic.Common

namespace Lib.MessagePack

/-! ## Integers -/

/-- The last `width` bytes of a number, the most significant first. -/
def be : Nat → Nat → List UInt8
  | 0, _ => []
  | width + 1, n => be width (n / 256) ++ [UInt8.ofNat n]

@[simp] theorem length_be (width n : Nat) : (be width n).length = width := by
  induction width generalizing n with
  | zero => rfl
  | succ width ih => simp [be, ih]

def ofBe (bytes : List UInt8) : Nat :=
  bytes.foldl (fun n b => n * 256 + b.toNat) 0

theorem ofBe_append_singleton (bytes : List UInt8) (b : UInt8) :
    ofBe (bytes ++ [b]) = ofBe bytes * 256 + b.toNat := by
  simp [ofBe]

theorem ofBe_be {width n : Nat} (h : n < 256 ^ width) : ofBe (be width n) = n := by
  induction width generalizing n with
  | zero =>
    have hn : n = 0 := by omega
    subst hn
    rfl
  | succ width ih =>
    have hdiv : n / 256 < 256 ^ width := Nat.div_lt_of_lt_mul (Nat.pow_succ' ▸ h)
    rw [be, ofBe_append_singleton, ih hdiv, UInt8.toNat_ofNat']
    omega

/-- An integer, in as few bytes as it takes. -/
def encodeInt (n : Int) : List UInt8 :=
  if 0 ≤ n then
    if n < 0x80 then [UInt8.ofNat n.toNat]
    else if n < 0x100 then 0xcc :: be 1 n.toNat
    else if n < 0x10000 then 0xcd :: be 2 n.toNat
    else if n < 0x100000000 then 0xce :: be 4 n.toNat
    else 0xcf :: be 8 n.toNat
  else
    if -0x20 ≤ n then [UInt8.ofNat (n + 0x100).toNat]
    else if -0x80 ≤ n then 0xd0 :: be 1 (n + 0x100).toNat
    else if -0x8000 ≤ n then 0xd1 :: be 2 (n + 0x10000).toNat
    else if -0x80000000 ≤ n then 0xd2 :: be 4 (n + 0x100000000).toNat
    else 0xd3 :: be 8 (n + 0x10000000000000000).toNat

/-- What `be` writes, at the front of some bytes. -/
def readUnsigned (width : Nat) (bytes : List UInt8) : Option Int :=
  if bytes.length < width then none else some (ofBe (bytes.take width))

/-- The same in two's complement. -/
def readSigned (width : Nat) (bytes : List UInt8) : Option Int :=
  (readUnsigned width bytes).map fun n => if 2 * n < 256 ^ width then n else n - 256 ^ width

/-- An integer in any of its forms. -/
def readInt : List UInt8 → Option Int
  | [] => none
  | tag :: rest =>
    if tag.toNat < 0x80 then some tag.toNat
    else if 0xe0 ≤ tag.toNat then some (tag.toNat - 0x100)
    else if tag = 0xcc then readUnsigned 1 rest
    else if tag = 0xcd then readUnsigned 2 rest
    else if tag = 0xce then readUnsigned 4 rest
    else if tag = 0xcf then readUnsigned 8 rest
    else if tag = 0xd0 then readSigned 1 rest
    else if tag = 0xd1 then readSigned 2 rest
    else if tag = 0xd2 then readSigned 4 rest
    else if tag = 0xd3 then readSigned 8 rest
    else none

theorem readUnsigned_be {width n : Nat} (h : n < 256 ^ width) :
    readUnsigned width (be width n) = some (n : Int) := by
  have htake : (be width n).take width = be width n :=
    List.take_of_length_le (Nat.le_of_eq (length_be width n))
  rw [readUnsigned, if_neg (by simp), htake, ofBe_be h]

/-- A negative number and its complement. -/
theorem readSigned_be {width : Nat} {n : Int} (hneg : n < 0) (h : -(256 ^ width) ≤ 2 * n) :
    readSigned width (be width (n + 256 ^ width).toNat) = some n := by
  have hpos : (0 : Int) ≤ n + 256 ^ width := by omega
  have hlt : (n + 256 ^ width).toNat < 256 ^ width := by
    have hpow : ((256 ^ width : Nat) : Int) = 256 ^ width := Int.natCast_pow 256 width
    omega
  rw [readSigned, readUnsigned_be hlt, Option.map_some, Int.toNat_of_nonneg hpos,
    if_neg (by omega), Int.add_sub_cancel]

/-- Every integer of 64 bits, signed or not, is read back. -/
theorem readInt_encodeInt {n : Int} (hmin : -0x8000000000000000 ≤ n)
    (hmax : n < 0x10000000000000000) : readInt (encodeInt n) = some n := by
  unfold encodeInt
  split_ifs with hpos h₁ h₂ h₃ h₄ h₅ h₆ h₇ h₈
  · have hbyte : (UInt8.ofNat n.toNat).toNat = n.toNat := by
      rw [UInt8.toNat_ofNat']; omega
    rw [readInt, hbyte, if_pos (by omega), Int.toNat_of_nonneg hpos]
  · show readUnsigned 1 (be 1 n.toNat) = some n
    rw [readUnsigned_be (by omega), Int.toNat_of_nonneg hpos]
  · show readUnsigned 2 (be 2 n.toNat) = some n
    rw [readUnsigned_be (by omega), Int.toNat_of_nonneg hpos]
  · show readUnsigned 4 (be 4 n.toNat) = some n
    rw [readUnsigned_be (by omega), Int.toNat_of_nonneg hpos]
  · show readUnsigned 8 (be 8 n.toNat) = some n
    rw [readUnsigned_be (by omega), Int.toNat_of_nonneg hpos]
  · have hbyte : (UInt8.ofNat (n + 0x100).toNat).toNat = (n + 0x100).toNat := by
      rw [UInt8.toNat_ofNat']; omega
    rw [readInt, hbyte, if_neg (by omega), if_pos (by omega), Int.toNat_of_nonneg (by omega),
      Int.add_sub_cancel]
  · exact @readSigned_be 1 n (by omega) (by omega)
  · exact @readSigned_be 2 n (by omega) (by omega)
  · exact @readSigned_be 4 n (by omega) (by omega)
  · exact @readSigned_be 8 n (by omega) (by omega)

/-! ## Values -/

/-- A value; a floating-point number is given by its bits, a string by its
UTF-8 bytes. -/
inductive Value where
  | nil
  | bool (b : Bool)
  | int (n : Int)
  | f32 (bits : UInt32)
  | f64 (bits : UInt64)
  | str (utf8 : List UInt8)
  | bin (bytes : List UInt8)
  | array (items : List Value)
  | map (entries : List (Value × Value))

/-- The tags of a kind of value that has a length: a short one is part of the
tag, others follow it in one byte (if the kind has this form), in two or in
four. -/
structure LengthTags where
  fix : Nat
  fixBound : Nat
  one : Option UInt8
  two : UInt8
  four : UInt8

def strTags : LengthTags := ⟨0xa0, 32, some 0xd9, 0xda, 0xdb⟩

def binTags : LengthTags := ⟨0, 0, some 0xc4, 0xc5, 0xc6⟩

def arrayTags : LengthTags := ⟨0x90, 16, none, 0xdc, 0xdd⟩

def mapTags : LengthTags := ⟨0x80, 16, none, 0xde, 0xdf⟩

/-- The forms in two and in four bytes. -/
def LengthTags.wide (tags : LengthTags) (len : Nat) : List UInt8 :=
  if len < 0x10000 then tags.two :: be 2 len else tags.four :: be 4 len

def LengthTags.header (tags : LengthTags) (len : Nat) : List UInt8 :=
  if len < tags.fixBound then [UInt8.ofNat (tags.fix + len)]
  else
    match tags.one with
    | some one => if len < 0x100 then one :: be 1 len else tags.wide len
    | none => tags.wide len

mutual

def encode : Value → List UInt8
  | .nil => [0xc0]
  | .bool b => [if b then 0xc3 else 0xc2]
  | .int n => encodeInt n
  | .f32 bits => 0xca :: be 4 bits.toNat
  | .f64 bits => 0xcb :: be 8 bits.toNat
  | .str utf8 => strTags.header utf8.length ++ utf8
  | .bin bytes => binTags.header bytes.length ++ bytes
  | .array items => arrayTags.header items.length ++ encodeItems items
  | .map entries => mapTags.header entries.length ++ encodeEntries entries

def encodeItems : List Value → List UInt8
  | [] => []
  | v :: items => encode v ++ encodeItems items

def encodeEntries : List (Value × Value) → List UInt8
  | [] => []
  | (k, v) :: entries => encode k ++ (encode v ++ encodeEntries entries)

end

/-! ## The first byte -/

/-- No tag of this kind is `b`. -/
structure LengthTags.Avoids (tags : LengthTags) (b : UInt8) : Prop where
  fix : ∀ len < tags.fixBound, UInt8.ofNat (tags.fix + len) ≠ b
  one : tags.one ≠ some b
  two : tags.two ≠ b
  four : tags.four ≠ b

theorem LengthTags.Avoids.head?_wide {tags : LengthTags} {b : UInt8} (h : tags.Avoids b)
    (len : Nat) (rest : List UInt8) : (tags.wide len ++ rest).head? ≠ some b := by
  unfold LengthTags.wide
  split_ifs
  · simpa using h.two
  · simpa using h.four

theorem LengthTags.Avoids.head? {tags : LengthTags} {b : UInt8} (h : tags.Avoids b) (len : Nat)
    (rest : List UInt8) : (tags.header len ++ rest).head? ≠ some b := by
  unfold LengthTags.header
  by_cases hfix : len < tags.fixBound
  · rw [if_pos hfix]
    simpa using h.fix len hfix
  · rw [if_neg hfix]
    cases hone : tags.one with
    | none => exact h.head?_wide len rest
    | some one =>
      dsimp only
      split_ifs
      · simpa [hone] using h.one
      · exact h.head?_wide len rest

/-- An encoding of a value that is no integer starts with the tag of its
kind. -/
theorem head?_encode_ne {b : UInt8} (hnil : b ≠ 0xc0) (hfalse : b ≠ 0xc2) (htrue : b ≠ 0xc3)
    (hf32 : b ≠ 0xca) (hf64 : b ≠ 0xcb) (hstr : strTags.Avoids b) (hbin : binTags.Avoids b)
    (harray : arrayTags.Avoids b) (hmap : mapTags.Avoids b) {v : Value}
    (hv : ∀ n, v ≠ .int n) : (encode v).head? ≠ some b := by
  cases v with
  | nil => simpa [encode] using hnil.symm
  | bool c => cases c <;> simpa [encode] using by first | exact hfalse.symm | exact htrue.symm
  | int n => exact absurd rfl (hv n)
  | f32 bits => simpa [encode] using hf32.symm
  | f64 bits => simpa [encode] using hf64.symm
  | str utf8 => rw [encode]; exact hstr.head? _ _
  | bin bytes => rw [encode]; exact hbin.head? _ _
  | array items => rw [encode]; exact harray.head? _ _
  | map entries => rw [encode]; exact hmap.head? _ _

/-- The first byte of an integer: the integer itself, or a tag, or a negative
integer over 0x100. -/
theorem head?_encodeInt (n : Int) : ∃ b, (encodeInt n).head? = some b ∧
    (0 ≤ n ∧ n < 0x80 ∧ b.toNat = n ∨ 0xcc ≤ b.toNat ∧ ¬ (0 ≤ n ∧ n < 0x80)) := by
  unfold encodeInt
  split_ifs with hpos
  · exact ⟨_, rfl, .inl ⟨hpos, ‹_›, by rw [UInt8.toNat_ofNat']; omega⟩⟩
  · exact ⟨0xcc, rfl, .inr ⟨by decide, by omega⟩⟩
  · exact ⟨0xcd, rfl, .inr ⟨by decide, by omega⟩⟩
  · exact ⟨0xce, rfl, .inr ⟨by decide, by omega⟩⟩
  · exact ⟨0xcf, rfl, .inr ⟨by decide, by omega⟩⟩
  · exact ⟨_, rfl, .inr ⟨by rw [UInt8.toNat_ofNat']; omega, by omega⟩⟩
  · exact ⟨0xd0, rfl, .inr ⟨by decide, by omega⟩⟩
  · exact ⟨0xd1, rfl, .inr ⟨by decide, by omega⟩⟩
  · exact ⟨0xd2, rfl, .inr ⟨by decide, by omega⟩⟩
  · exact ⟨0xd3, rfl, .inr ⟨by decide, by omega⟩⟩

theorem allTags_avoid {b : UInt8} (hb : b = 0xc1 ∨ b = 0x7f) :
    strTags.Avoids b ∧ binTags.Avoids b ∧ arrayTags.Avoids b ∧ mapTags.Avoids b := by
  refine ⟨⟨?_, ?_, ?_, ?_⟩, ⟨?_, ?_, ?_, ?_⟩, ⟨?_, ?_, ?_, ?_⟩, ⟨?_, ?_, ?_, ?_⟩⟩ <;>
    rcases hb with rfl | rfl <;> decide

/-- `0xc1` and `0x7f` are the tags of no kind of value. -/
theorem head?_encode_ne_of_not_int {b : UInt8} (hb : b = 0xc1 ∨ b = 0x7f) {v : Value}
    (hv : ∀ n, v ≠ .int n) : (encode v).head? ≠ some b := by
  obtain ⟨hstr, hbin, harray, hmap⟩ := allTags_avoid hb
  refine head?_encode_ne ?_ ?_ ?_ ?_ ?_ hstr hbin harray hmap hv <;>
    rcases hb with rfl | rfl <;> decide

/-- No encoding starts with `0xc1`. -/
theorem head?_encode_ne_unused (v : Value) : (encode v).head? ≠ some 0xc1 := by
  by_cases hint : ∃ n, v = .int n
  · obtain ⟨n, rfl⟩ := hint
    obtain ⟨b, hhead, hb⟩ := head?_encodeInt n
    rw [encode, hhead]
    intro heq
    obtain rfl := Option.some.inj heq
    rcases hb with ⟨_, hlt, hn⟩ | ⟨htag, _⟩
    · exact absurd (hn ▸ hlt) (by decide)
    · exact absurd htag (by decide)
  · exact head?_encode_ne_of_not_int (.inl rfl) (not_exists.mp hint)

/-- Only that of 127 starts with `0x7f`. -/
theorem head?_encode_eq_seven_f (v : Value) : (encode v).head? = some 0x7f ↔ v = .int 127 := by
  constructor
  · intro h
    by_cases hint : ∃ n, v = .int n
    · obtain ⟨n, rfl⟩ := hint
      obtain ⟨b, hhead, hb⟩ := head?_encodeInt n
      rw [encode, hhead] at h
      obtain rfl := Option.some.inj h
      rcases hb with ⟨_, _, hn⟩ | ⟨htag, _⟩
      · exact congrArg Value.int hn.symm
      · exact absurd htag (by decide)
    · exact absurd h (head?_encode_ne_of_not_int (.inr rfl) (not_exists.mp hint))
  · rintro rfl
    rfl

end Lib.MessagePack
