import Mathlib.Algebra.Ring.Int.Defs
import Mathlib.Data.List.Basic
import Rw612.Lib.CString

/-!
Formatted output into an array of fixed size, and the numbers that are written:
`snprintk` behind a text that is there already, decimal numbers and pairs of
hexadecimal digits.
-/

namespace Rw612.Lib

open CString

/-- A signed number as `size_t`. -/
def sizeT (n : Int) : Nat := (n % 2 ^ 32).toNat

/-- Bytes stored from `pos` on, or `none` when some would lie behind the array. -/
def storeAt (buf : List UInt8) (pos : Nat) (bytes : List UInt8) : Option (List UInt8) :=
  if pos + bytes.length ≤ buf.length then
    some (buf.take pos ++ bytes ++ buf.drop (pos + bytes.length))
  else none

/-- `snprintk(buf + pos, size, …)` for a format that gives `out`: at most `size - 1`
bytes of it are stored, and a NUL behind them. The result is the length of `out`. -/
def snprintk (buf : List UInt8) (pos : Nat) (size : Int) (out : List UInt8) :
    Option (List UInt8 × Nat) :=
  if sizeT size = 0 then some (buf, out.length)
  else (storeAt buf pos (out.take (sizeT size - 1) ++ [0])).map (·, out.length)

/-- Where there is room, the text behind `front` is extended whole. -/
theorem snprintk_append {buf front : List UInt8} (hfront : front <+: buf) (size : Int)
    (out : List UInt8) (hsize : size = buf.length - front.length) (hsmall : buf.length < 2 ^ 32)
    (hroom : front.length + out.length < buf.length) :
    ∃ buf', snprintk buf front.length size out = some (buf', out.length) ∧
      buf'.length = buf.length ∧ front ++ out ++ [0] <+: buf' := by
  obtain ⟨back, rfl⟩ := hfront
  have hlength : (front ++ back).length = front.length + back.length := List.length_append
  have hsizeT : sizeT size = back.length := by
    unfold sizeT
    omega
  have htake : out.take (back.length - 1) = out := List.take_of_length_le (by omega)
  have hstored : front.length + (out ++ [0]).length ≤ (front ++ back).length := by
    simp only [List.length_append, List.length_singleton]
    omega
  refine ⟨front ++ (out ++ [0]) ++ back.drop (out.length + 1), ?_, ?_, ?_⟩
  · rw [snprintk, hsizeT, if_neg (by omega), htake, storeAt, if_pos hstored, List.take_left,
      List.drop_length_add_append]
    simp
  · simp only [List.length_append, List.length_singleton, List.length_drop]
    omega
  · exact ⟨back.drop (out.length + 1), by simp⟩

/-- A text with its NUL in an array is what the array says. -/
theorem text_of_isPrefix {s buf : List UInt8} (h : s ++ [0] <+: buf) (hs : (0 : UInt8) ∉ s) :
    text buf = s := by
  obtain ⟨back, rfl⟩ := h
  rw [text_append (by simp), text_append_nul hs]

/-! Decimal numbers. -/

theorem digitValue_char {c : Char} (h : c.isDigit = true) :
    digitValue (UInt8.ofNat c.toNat) = c.toNat - 48 ∧
      isDigit 10 (UInt8.ofNat c.toNat) = true := by
  have hcases : ∀ m < 58, 48 ≤ m →
      digitValue (UInt8.ofNat m) = m - 48 ∧ isDigit 10 (UInt8.ofNat m) = true := by decide
  simp only [Char.isDigit, Bool.and_eq_true, decide_eq_true_eq] at h
  have hlow : 48 ≤ c.toNat := UInt32.le_iff_toNat_le.mp h.1
  have hhigh : c.toNat ≤ 57 := UInt32.le_iff_toNat_le.mp h.2
  exact hcases c.toNat (by omega) hlow

theorem digitsValue_chars {cs : List Char} (h : ∀ c ∈ cs, c.isDigit = true) (n : Nat) :
    (cs.map (fun c => UInt8.ofNat c.toNat)).foldl (fun n b => n * 10 + digitValue b) n =
      Nat.ofDigitChars 10 cs n := by
  induction cs generalizing n with
  | nil => simp
  | cons c cs ih =>
      obtain ⟨hc, hcs⟩ := List.forall_mem_cons.mp h
      rw [List.map_cons, List.foldl_cons, ih hcs, (digitValue_char hc).1, Nat.ofDigitChars_cons,
        Nat.mul_comm]
      rfl

/-- Reading the decimal digits of a number gives the number. -/
theorem digitsValue_toDigits (n : Nat) :
    digitsValue 10 ((Nat.toDigits 10 n).map (fun c => UInt8.ofNat c.toNat)) = n := by
  rw [digitsValue, digitsValue_chars (fun c hc => Nat.isDigit_of_mem_toDigits (by decide)
    (by decide) hc), Nat.ofDigitChars_ten_toDigits]

theorem isDigit_toDigits (n : Nat) :
    ∀ b ∈ (Nat.toDigits 10 n).map (fun c => UInt8.ofNat c.toNat), isDigit 10 b = true := by
  intro b hb
  obtain ⟨c, hc, rfl⟩ := List.mem_map.mp hb
  exact (digitValue_char (Nat.isDigit_of_mem_toDigits (by decide) (by decide) hc)).2

/-! Bytes as ` %02X`. -/

def upperHexDigit (n : Nat) : UInt8 := if n < 10 then UInt8.ofNat (48 + n) else UInt8.ofNat (55 + n)

/-- `%02X` -/
def hexByte (b : UInt8) : List UInt8 :=
  [upperHexDigit (b.toNat / 16), upperHexDigit (b.toNat % 16)]

/-- ` %02X` for byte after byte -/
def hexBytes (bytes : List UInt8) : List UInt8 := bytes.flatMap (fun b => 32 :: hexByte b)

theorem hexBytes_cons (b : UInt8) (bytes : List UInt8) :
    hexBytes (b :: bytes) =
      32 :: upperHexDigit (b.toNat / 16) :: upperHexDigit (b.toNat % 16) :: hexBytes bytes := rfl

/-- The bytes that are written as a blank and two digits each, and what follows. -/
def readHexBytes : List UInt8 → List UInt8 × List UInt8
  | 32 :: hi :: lo :: rest =>
      if isDigit 16 hi && isDigit 16 lo then
        let (bytes, rest) := readHexBytes rest
        (UInt8.ofNat (16 * digitValue hi + digitValue lo) :: bytes, rest)
      else ([], 32 :: hi :: lo :: rest)
  | rest => ([], rest)

theorem upperHexDigit_spec : ∀ n < 16, digitValue (upperHexDigit n) = n ∧
    isDigit 16 (upperHexDigit n) = true ∧ upperHexDigit n ≠ 0 := by decide

theorem readHexBytes_append (bytes rest : List UInt8) :
    readHexBytes (hexBytes bytes ++ rest) =
      (bytes ++ (readHexBytes rest).1, (readHexBytes rest).2) := by
  induction bytes with
  | nil => rfl
  | cons b bytes ih =>
      obtain ⟨hhi, hhex, -⟩ := upperHexDigit_spec (b.toNat / 16) (by have := b.toNat_lt; omega)
      obtain ⟨hlo, hhex', -⟩ := upperHexDigit_spec (b.toNat % 16) (by omega)
      have hbyte : UInt8.ofNat (16 * (b.toNat / 16) + b.toNat % 16) = b := by
        rw [Nat.div_add_mod, UInt8.ofNat_toNat]
      simp only [hexBytes_cons, List.cons_append, readHexBytes, hhex, hhex', Bool.and_self,
        if_true, ih, hhi, hlo, hbyte]

theorem length_hexBytes (bytes : List UInt8) : (hexBytes bytes).length = 3 * bytes.length := by
  induction bytes with
  | nil => rfl
  | cons b bytes ih =>
      simp only [hexBytes_cons, List.length_cons, ih]
      omega

theorem zero_notMem_hexBytes (bytes : List UInt8) : (0 : UInt8) ∉ hexBytes bytes := by
  induction bytes with
  | nil => exact List.not_mem_nil
  | cons b bytes ih =>
      have hhi := (upperHexDigit_spec (b.toNat / 16) (by have := b.toNat_lt; omega)).2.2
      have hlo := (upperHexDigit_spec (b.toNat % 16) (by omega)).2.2
      simp only [hexBytes_cons, List.mem_cons, not_or]
      exact ⟨by decide, hhi.symm, hlo.symm, ih⟩

end Rw612.Lib
