import Mathlib.Algebra.Ring.Nat
import Mathlib.Data.List.Basic

/-!
Little-endian fields in a buffer of bytes. A read beyond the end of the buffer
is `none`. A field that was written between a front and a rest is read back at
the length of the front.
-/

namespace Rw612.Lib

def le16 (v : UInt16) : List UInt8 := [v.toUInt8, (v >>> 8).toUInt8]

def le32 (v : UInt32) : List UInt8 :=
  [v.toUInt8, (v >>> 8).toUInt8, (v >>> 16).toUInt8, (v >>> 24).toUInt8]

def readLe16 (p : List UInt8) (i : Nat) : Option UInt16 := do
  let b₀ ← p[i]?
  let b₁ ← p[i + 1]?
  some (b₀.toUInt16 ||| (b₁.toUInt16 <<< 8))

def readLe32 (p : List UInt8) (i : Nat) : Option UInt32 := do
  let b₀ ← p[i]?
  let b₁ ← p[i + 1]?
  let b₂ ← p[i + 2]?
  let b₃ ← p[i + 3]?
  some (b₀.toUInt32 ||| (b₁.toUInt32 <<< 8) ||| (b₂.toUInt32 <<< 16) ||| (b₃.toUInt32 <<< 24))

/-- The `n` bytes from index `i` on. -/
def readBytes (p : List UInt8) (i n : Nat) : Option (List UInt8) :=
  if i + n ≤ p.length then some ((p.drop i).take n) else none

@[simp] theorem le16_length (v : UInt16) : (le16 v).length = 2 := rfl

@[simp] theorem le32_length (v : UInt32) : (le32 v).length = 4 := rfl

/-- Bytes above what has been read so far are added. -/
theorem lor_above {low width : Nat} (h : low < 2 ^ width) (high : Nat) :
    low ||| high <<< width = low + high * 2 ^ width := by
  rw [Nat.or_comm, ← Nat.shiftLeft_add_eq_or_of_lt h, Nat.shiftLeft_eq, Nat.add_comm]

theorem word16_of_bytes (v : UInt16) :
    v.toUInt8.toUInt16 ||| ((v >>> 8).toUInt8.toUInt16 <<< 8) = v := by
  have hv := v.toNat_lt
  have hlow : v.toUInt8.toUInt16.toNat = v.toNat % 256 := by
    rw [UInt8.toNat_toUInt16, UInt16.toNat_toUInt8]
  have hhigh : (v >>> 8).toUInt8.toUInt16.toNat = v.toNat / 256 := by
    have hshift : (v >>> 8).toNat = v.toNat / 256 := Nat.shiftRight_eq_div_pow v.toNat 8
    rw [UInt8.toNat_toUInt16, UInt16.toNat_toUInt8, hshift]
    omega
  apply UInt16.toNat_inj.mp
  have hshifted : ((v >>> 8).toUInt8.toUInt16 <<< 8).toNat = (v.toNat / 256) <<< 8 := by
    rw [UInt16.toNat_shiftLeft, hhigh]
    change (v.toNat / 256) <<< 8 % 65536 = _
    rw [Nat.shiftLeft_eq]
    omega
  rw [UInt16.toNat_or, hlow, hshifted, lor_above (by omega)]
  omega

/-- A byte is moved up without losing a bit. -/
theorem UInt8.toNat_shiftLeft32 (b : UInt8) (k : UInt32) (hk : k.toNat ≤ 24) :
    (b.toUInt32 <<< k).toNat = b.toNat <<< k.toNat := by
  have hb := b.toNat_lt
  have hwidth : k.toNat % 32 = k.toNat := Nat.mod_eq_of_lt (by omega)
  have hbound : b.toNat * 2 ^ k.toNat < 4294967296 := by
    calc b.toNat * 2 ^ k.toNat ≤ 255 * 2 ^ 24 := by
          apply Nat.mul_le_mul
          · omega
          · exact Nat.pow_le_pow_right (by omega) hk
      _ < 4294967296 := by decide
  rw [UInt32.toNat_shiftLeft, UInt8.toNat_toUInt32, hwidth, Nat.shiftLeft_eq]
  exact Nat.mod_eq_of_lt hbound

theorem word32_of_bytes (v : UInt32) :
    v.toUInt8.toUInt32 ||| ((v >>> 8).toUInt8.toUInt32 <<< 8) |||
      ((v >>> 16).toUInt8.toUInt32 <<< 16) ||| ((v >>> 24).toUInt8.toUInt32 <<< 24) = v := by
  have hv := v.toNat_lt
  have hbyte (w : UInt32) : w.toUInt8.toNat = w.toNat % 256 := UInt32.toNat_toUInt8 w
  have h₁ : (v >>> 8).toNat = v.toNat / 256 := Nat.shiftRight_eq_div_pow v.toNat 8
  have h₂ : (v >>> 16).toNat = v.toNat / 65536 := Nat.shiftRight_eq_div_pow v.toNat 16
  have h₃ : (v >>> 24).toNat = v.toNat / 16777216 := Nat.shiftRight_eq_div_pow v.toNat 24
  -- the four bytes, put together from the lowest
  have low16 : v.toNat % 256 ||| (v.toNat / 256 % 256) <<< 8 = v.toNat % 65536 := by
    rw [lor_above (by omega)]
    omega
  have low24 : v.toNat % 65536 ||| (v.toNat / 65536 % 256) <<< 16 = v.toNat % 16777216 := by
    rw [lor_above (by omega)]
    omega
  have all32 : v.toNat % 16777216 ||| (v.toNat / 16777216 % 256) <<< 24 = v.toNat := by
    rw [lor_above (by omega)]
    omega
  apply UInt32.toNat_inj.mp
  rw [UInt32.toNat_or, UInt32.toNat_or, UInt32.toNat_or,
    UInt8.toNat_shiftLeft32 _ 8 (by decide), UInt8.toNat_shiftLeft32 _ 16 (by decide),
    UInt8.toNat_shiftLeft32 _ 24 (by decide), UInt8.toNat_toUInt32, hbyte, hbyte, hbyte, hbyte,
    h₁, h₂, h₃]
  change _ ||| _ <<< 8 ||| _ <<< 16 ||| _ <<< 24 = _
  rw [low16, low24, all32]

/-! Reading a field at its place. -/

/-- The byte `k` places into what follows `front`. -/
theorem getElem?_after {front : List UInt8} {i : Nat} (h : front.length = i) (k : Nat)
    (field : List UInt8) : (front ++ field)[i + k]? = field[k]? := by
  rw [← h, List.getElem?_append_right (Nat.le_add_right front.length k),
    Nat.add_sub_cancel_left]

theorem readLe16_written (front : List UInt8) {i : Nat} (h : front.length = i) (v : UInt16)
    (rest : List UInt8) : readLe16 (front ++ (le16 v ++ rest)) i = some v := by
  have h₀ := getElem?_after h 0 (le16 v ++ rest)
  have h₁ := getElem?_after h 1 (le16 v ++ rest)
  rw [Nat.add_zero] at h₀
  rw [readLe16, h₀, h₁]
  exact congrArg some (word16_of_bytes v)

theorem readLe32_written (front : List UInt8) {i : Nat} (h : front.length = i) (v : UInt32)
    (rest : List UInt8) : readLe32 (front ++ (le32 v ++ rest)) i = some v := by
  have h₀ := getElem?_after h 0 (le32 v ++ rest)
  have h₁ := getElem?_after h 1 (le32 v ++ rest)
  have h₂ := getElem?_after h 2 (le32 v ++ rest)
  have h₃ := getElem?_after h 3 (le32 v ++ rest)
  rw [Nat.add_zero] at h₀
  rw [readLe32, h₀, h₁, h₂, h₃]
  exact congrArg some (word32_of_bytes v)

theorem readBytes_written (front : List UInt8) {data : List UInt8} {i n : Nat}
    (h : front.length = i) (hn : data.length = n) (rest : List UInt8) :
    readBytes (front ++ (data ++ rest)) i n = some data := by
  subst h hn
  have hfits : front.length + data.length ≤ (front ++ (data ++ rest)).length := by
    simp only [List.length_append]
    omega
  rw [readBytes, if_pos hfits, List.drop_left, List.take_left]

/-! A field that lies inside the buffer is read. -/

theorem readLe16_inside {p : List UInt8} {i : Nat} (h : i + 2 ≤ p.length) :
    ∃ v, readLe16 p i = some v := by
  rw [readLe16, List.getElem?_eq_getElem (show i < p.length by omega),
    List.getElem?_eq_getElem (show i + 1 < p.length by omega)]
  exact ⟨_, rfl⟩

theorem readLe32_inside {p : List UInt8} {i : Nat} (h : i + 4 ≤ p.length) :
    ∃ v, readLe32 p i = some v := by
  rw [readLe32, List.getElem?_eq_getElem (show i < p.length by omega),
    List.getElem?_eq_getElem (show i + 1 < p.length by omega),
    List.getElem?_eq_getElem (show i + 2 < p.length by omega),
    List.getElem?_eq_getElem (show i + 3 < p.length by omega)]
  exact ⟨_, rfl⟩

theorem readBytes_inside {p : List UInt8} {i n : Nat} (h : i + n ≤ p.length) :
    ∃ data, readBytes p i n = some data := by
  rw [readBytes, if_pos h]
  exact ⟨_, rfl⟩

end Rw612.Lib
