import Mathlib.Algebra.Ring.Nat
import Mathlib.Data.List.TakeWhile

/-!
The C string functions on the bytes from a pointer on. A pointer into a buffer
is the list of the bytes from there to the end of the buffer, so `p < q` reads
`q.length < p.length`; a byte past the end reads as NUL. `long` has 32 bits.
-/

namespace Rw612.Lib.CString

/-- `*p` -/
def deref (p : List UInt8) : UInt8 := p.headD 0

/-- The string at a pointer, without its NUL. -/
def text (p : List UInt8) : List UInt8 := p.takeWhile (· != 0)

def strlen (p : List UInt8) : Nat := (text p).length

def strnlen (p : List UInt8) (maxlen : Nat) : Nat := strlen (p.take maxlen)

/-- `strcmp(p, q) == 0` -/
def streq (p q : List UInt8) : Bool := text p == text q

/-- `strchr`, for a character other than NUL. -/
def strchr (c : UInt8) : List UInt8 → Option (List UInt8)
  | [] => none
  | b :: p => if b = c then some (b :: p) else if b = 0 then none else strchr c p

/-- `strstr`, for a pattern that is not empty and contains no NUL. -/
def strstr (pat : List UInt8) : List UInt8 → Option (List UInt8)
  | [] => none
  | b :: p =>
      if pat.isPrefixOf (b :: p) then some (b :: p)
      else if b = 0 then none
      else strstr pat p

def isspace (b : UInt8) : Bool := b == 32 || (decide (9 ≤ b) && decide (b ≤ 13))

/-- The value of a digit or letter, as `strtoul` counts it. -/
def digitValue (b : UInt8) : Nat :=
  if 48 ≤ b ∧ b ≤ 57 then b.toNat - 48
  else if 97 ≤ b ∧ b ≤ 122 then b.toNat - 87
  else if 65 ≤ b ∧ b ≤ 90 then b.toNat - 55
  else 36

def isDigit (base : Nat) (b : UInt8) : Bool := decide (digitValue b < base)

/-- Sign, value and end of the number that starts at a pointer, or `none` if
there is no digit. -/
def number (base : Nat) (p : List UInt8) : Option (Bool × Nat × List UInt8) :=
  let p := p.dropWhile isspace
  let neg := deref p == 45
  let p := if deref p = 45 ∨ deref p = 43 then p.drop 1 else p
  let hexPrefix := base = 16 ∧ deref p = 48 ∧
    (deref (p.drop 1) = 120 ∨ deref (p.drop 1) = 88) ∧
    isDigit 16 (deref (p.drop 2)) = true
  let p := if hexPrefix then p.drop 2 else p
  let digits := p.takeWhile (isDigit base)
  if digits = [] then none
  else
    some (neg, digits.foldl (fun n b => n * base + digitValue b) 0,
      p.drop digits.length)

/-- `strtoul(p, &end, base)`: the value and `end`. -/
def strtoul (base : Nat) (p : List UInt8) : UInt32 × List UInt8 :=
  match number base p with
  | none => (0, p)
  | some (neg, n, rest) =>
      if 0x100000000 ≤ n then (0xFFFFFFFF, rest)
      else if neg then (0 - UInt32.ofNat n, rest)
      else (UInt32.ofNat n, rest)

/-- `strtol(p, NULL, base)` -/
def strtol (base : Nat) (p : List UInt8) : Int :=
  match number base p with
  | none => 0
  | some (neg, n, _) =>
      if neg then max (-0x80000000) (-(n : Int)) else min 0x7FFFFFFF (n : Int)

/-! The steps of `number`, one by one. -/

def skipSign (p : List UInt8) : List UInt8 :=
  if deref p = 45 ∨ deref p = 43 then p.drop 1 else p

def skipHexPrefix (base : Nat) (p : List UInt8) : List UInt8 :=
  if base = 16 ∧ deref p = 48 ∧ (deref (p.drop 1) = 120 ∨ deref (p.drop 1) = 88) ∧
    isDigit 16 (deref (p.drop 2)) = true
  then p.drop 2 else p

/-- The value of digits in a base. -/
def digitsValue (base : Nat) (digits : List UInt8) : Nat :=
  digits.foldl (fun n b => n * base + digitValue b) 0

/-- The digits at `p`, if there are any. -/
def numeral (base : Nat) (neg : Bool) (p : List UInt8) : Option (Bool × Nat × List UInt8) :=
  if p.takeWhile (isDigit base) = [] then none
  else some (neg, digitsValue base (p.takeWhile (isDigit base)), p.dropWhile (isDigit base))

theorem number_eq (base : Nat) (p : List UInt8) :
    number base p = numeral base (deref (p.dropWhile isspace) == 45)
      (skipHexPrefix base (skipSign (p.dropWhile isspace))) := by
  have hdrop (q : List UInt8) :
      q.drop (q.takeWhile (isDigit base)).length = q.dropWhile (isDigit base) := by
    calc q.drop (q.takeWhile (isDigit base)).length
      _ = (q.takeWhile (isDigit base) ++ q.dropWhile (isDigit base)).drop
            (q.takeWhile (isDigit base)).length := by rw [List.takeWhile_append_dropWhile]
      _ = q.dropWhile (isDigit base) := List.drop_left
  rw [numeral, ← hdrop]
  rfl

theorem numeral_some {base : Nat} {neg neg' : Bool} {p rest : List UInt8} {n : Nat}
    (h : numeral base neg p = some (neg', n, rest)) :
    neg' = neg ∧ p.takeWhile (isDigit base) ≠ [] ∧
      n = digitsValue base (p.takeWhile (isDigit base)) ∧ rest = p.dropWhile (isDigit base) := by
  unfold numeral at h
  split at h
  case isTrue => cases h
  case isFalse hne =>
      cases h
      exact ⟨rfl, hne, rfl, rfl⟩

/-- A number takes at least one byte. -/
theorem number_rest_length {base : Nat} {p rest : List UInt8} {neg : Bool} {n : Nat}
    (h : number base p = some (neg, n, rest)) : rest.length < p.length := by
  rw [number_eq] at h
  obtain ⟨-, hne, -, rfl⟩ := numeral_some h
  have hspace : (p.dropWhile isspace).length ≤ p.length :=
    (List.dropWhile_suffix _).length_le
  have hsign (q : List UInt8) : (skipSign q).length ≤ q.length := by
    unfold skipSign
    split
    · exact (List.drop_suffix 1 q).length_le
    · exact Nat.le_refl _
  have hprefix (q : List UInt8) : (skipHexPrefix base q).length ≤ q.length := by
    unfold skipHexPrefix
    split
    · exact (List.drop_suffix 2 q).length_le
    · exact Nat.le_refl _
  have hdigits (q : List UInt8) (hq : q.takeWhile (isDigit base) ≠ []) :
      (q.dropWhile (isDigit base)).length < q.length := by
    have hlen := congrArg List.length
      (List.takeWhile_append_dropWhile (p := isDigit base) (l := q))
    have hpos := List.length_pos_iff.mpr hq
    rw [List.length_append] at hlen
    omega
  calc ((skipHexPrefix base (skipSign (p.dropWhile isspace))).dropWhile (isDigit base)).length
    _ < (skipHexPrefix base (skipSign (p.dropWhile isspace))).length := hdigits _ hne
    _ ≤ (skipSign (p.dropWhile isspace)).length := hprefix _
    _ ≤ (p.dropWhile isspace).length := hsign _
    _ ≤ p.length := hspace

/-- `end` is moved exactly if there is a number. -/
theorem strtoul_end_eq_iff (base : Nat) (p : List UInt8) :
    (strtoul base p).2 = p ↔ number base p = none := by
  unfold strtoul
  cases hnumber : number base p with
  | none => simp
  | some found =>
      obtain ⟨neg, n, rest⟩ := found
      have hne : rest ≠ p := by
        rintro rfl
        exact absurd (number_rest_length hnumber) (Nat.lt_irrefl _)
      dsimp only
      split
      · simp [hne]
      · split <;> simp [hne]

theorem skipSign_of_ne {p : List UInt8} (hminus : deref p ≠ 45) (hplus : deref p ≠ 43) :
    skipSign p = p := if_neg (by simp [hminus, hplus])

/-! Numbers at the end of a text, in front of other bytes. -/

/-- Only white space, which `strtoul` skips. -/
def Blank (v : List UInt8) : Prop := ∀ c ∈ v, isspace c = true

instance (v : List UInt8) : Decidable (Blank v) :=
  decidable_of_iff (v.all isspace = true) List.all_eq_true

theorem dropWhile_blank {v : List UInt8} (hv : Blank v) (p : List UInt8) :
    (v ++ p).dropWhile isspace = p.dropWhile isspace := by
  rw [List.dropWhile_append_of_pos hv]

theorem Blank.number {v : List UInt8} (hv : Blank v) (base : Nat) (p : List UInt8) :
    number base (v ++ p) = number base p := by
  rw [number_eq, number_eq, dropWhile_blank hv]

/-- Behind white space, `strtoul` finds the number of what follows. -/
theorem Blank.strtoul {v : List UInt8} (hv : Blank v) {base : Nat} {p : List UInt8}
    (hp : CString.number base p ≠ none) : strtoul base (v ++ p) = strtoul base p := by
  unfold CString.strtoul
  rw [hv.number]
  cases hnumber : CString.number base p with
  | none => exact absurd hnumber hp
  | some found => rfl

theorem Blank.strtol {v : List UInt8} (hv : Blank v) (base : Nat) (p : List UInt8) :
    strtol base (v ++ p) = strtol base p := by
  unfold CString.strtol
  rw [hv.number]

theorem strtoul_of_none {base : Nat} {p : List UInt8} (h : number base p = none) :
    strtoul base p = (0, p) := by
  rw [strtoul, h]

theorem takeWhile_digit {base : Nat} {c : UInt8} (hc : isDigit base c = false)
    (p q : List UInt8) :
    (p ++ c :: q).takeWhile (isDigit base) = p.takeWhile (isDigit base) := by
  induction p with
  | nil => simp [hc]
  | cons b p ih => simp only [List.cons_append, List.takeWhile_cons, ih]

/-- A number is looked for within a text that is not blank, if the byte behind
the text is no digit. -/
theorem number_append {v : List UInt8} (hv : ¬Blank v) {c : UInt8}
    (hc : isDigit 10 c = false) (q : List UInt8) :
    number 10 (v ++ c :: q) =
      (number 10 v).map fun (neg, n, rest) => (neg, n, rest ++ c :: q) := by
  have hspace : (v ++ c :: q).dropWhile isspace = v.dropWhile isspace ++ c :: q := by
    rw [List.dropWhile_append, if_neg]
    rw [List.isEmpty_iff, List.dropWhile_eq_nil_iff]
    exact hv
  have hne : v.dropWhile isspace ≠ [] := by
    rw [ne_eq, List.dropWhile_eq_nil_iff]
    exact hv
  obtain ⟨d, ds, hds⟩ := List.exists_cons_of_ne_nil hne
  have hsign : skipSign (d :: ds ++ c :: q) = skipSign (d :: ds) ++ c :: q := by
    unfold skipSign
    rw [show deref (d :: ds ++ c :: q) = deref (d :: ds) from rfl]
    split <;> rfl
  have hplain (p : List UInt8) : skipHexPrefix 10 p = p := if_neg (by simp)
  have hdrop (p : List UInt8) :
      (p ++ c :: q).dropWhile (isDigit 10) = p.dropWhile (isDigit 10) ++ c :: q := by
    induction p with
    | nil => simp [hc]
    | cons b p ih =>
        simp only [List.cons_append, List.dropWhile_cons, ih]
        split <;> rfl
  rw [number_eq, number_eq, hspace, hds, hsign, hplain, hplain, numeral, numeral,
    takeWhile_digit hc, hdrop]
  split <;> rfl

theorem strtoul_append {v : List UInt8} (hv : ¬Blank v) {c : UInt8}
    (hc : isDigit 10 c = false) (q : List UInt8) :
    strtoul 10 (v ++ c :: q) = ((strtoul 10 v).1, (strtoul 10 v).2 ++ c :: q) := by
  unfold strtoul
  rw [number_append hv hc]
  cases number 10 v with
  | none => rfl
  | some found =>
      dsimp only [Option.map_some]
      split
      · rfl
      · split <;> rfl

theorem strtol_append {v : List UInt8} (hv : ¬Blank v) {c : UInt8}
    (hc : isDigit 10 c = false) (q : List UInt8) : strtol 10 (v ++ c :: q) = strtol 10 v := by
  unfold strtol
  rw [number_append hv hc]
  cases number 10 v <;> rfl

/-- A digit is no white space, no sign and no end of a string. -/
theorem isDigit_plain {base : Nat} (hbase : base ≤ 36) {d : UInt8}
    (h : isDigit base d = true) : isspace d = false ∧ d ≠ 45 ∧ d ≠ 43 ∧ d ≠ 0 := by
  have hcases : ∀ n < 256, digitValue (UInt8.ofNat n) < 36 →
      isspace (UInt8.ofNat n) = false ∧ UInt8.ofNat n ≠ 45 ∧ UInt8.ofNat n ≠ 43 ∧
        UInt8.ofNat n ≠ 0 := by decide +kernel
  have hd := hcases d.toNat d.toNat_lt
  rw [UInt8.ofNat_toNat] at hd
  exact hd (Nat.lt_of_lt_of_le (of_decide_eq_true h) hbase)

/-- Digits up to the first byte that is none. -/
theorem numeral_digits {base : Nat} (neg : Bool) {digits rest : List UInt8} (hne : digits ≠ [])
    (hdigits : ∀ d ∈ digits, isDigit base d = true)
    (hrest : rest.takeWhile (isDigit base) = []) :
    numeral base neg (digits ++ rest) = some (neg, digitsValue base digits, rest) := by
  have htake : (digits ++ rest).takeWhile (isDigit base) = digits := by
    rw [List.takeWhile_append_of_pos hdigits, hrest, List.append_nil]
  have hdrop : (digits ++ rest).dropWhile (isDigit base) = rest := by
    have hsplit := List.takeWhile_append_dropWhile (p := isDigit base) (l := digits ++ rest)
    rw [htake] at hsplit
    exact List.append_cancel_left hsplit
  rw [numeral, htake, hdrop, if_neg hne]

/-- They are read as they stand, but for a prefix 0x. -/
theorem number_digits {base : Nat} (hbase : base ≤ 36) {digits rest : List UInt8}
    (hne : digits ≠ []) (hdigits : ∀ d ∈ digits, isDigit base d = true)
    (hrest : rest.takeWhile (isDigit base) = [])
    (hplain : skipHexPrefix base (digits ++ rest) = digits ++ rest) :
    number base (digits ++ rest) = some (false, digitsValue base digits, rest) := by
  obtain ⟨d, ds, rfl⟩ := List.exists_cons_of_ne_nil hne
  obtain ⟨hspace, hminus, hplus, -⟩ := isDigit_plain hbase (hdigits d List.mem_cons_self)
  have hsign : skipSign (d :: ds ++ rest) = d :: ds ++ rest := skipSign_of_ne hminus hplus
  have hneg : (deref (d :: ds ++ rest) == 45) = false := beq_eq_false_iff_ne.mpr hminus
  have hstart : (d :: ds ++ rest).dropWhile isspace = d :: ds ++ rest := by
    rw [List.cons_append, List.dropWhile_cons_of_neg (by simp [hspace])]
  rw [number_eq, hstart, hneg, hsign, hplain, numeral_digits false hne hdigits hrest]

/-- A decimal number, up to a byte that is no digit, without and with a minus. -/
theorem number_decimal {digits rest : List UInt8} (hne : digits ≠ [])
    (hdigits : ∀ d ∈ digits, isDigit 10 d = true) (hrest : rest.takeWhile (isDigit 10) = []) :
    number 10 (digits ++ rest) = some (false, digitsValue 10 digits, rest) :=
  number_digits (by decide) hne hdigits hrest (if_neg (by simp))

theorem number_minus {digits rest : List UInt8} (hne : digits ≠ [])
    (hdigits : ∀ d ∈ digits, isDigit 10 d = true) (hrest : rest.takeWhile (isDigit 10) = []) :
    number 10 (45 :: (digits ++ rest)) = some (true, digitsValue 10 digits, rest) := by
  have hplain : skipHexPrefix 10 (digits ++ rest) = digits ++ rest := if_neg (by simp)
  have hstart : (45 :: (digits ++ rest)).dropWhile isspace = 45 :: (digits ++ rest) := rfl
  have hsign : skipSign (45 :: (digits ++ rest)) = digits ++ rest := rfl
  have hneg : (deref (45 :: (digits ++ rest)) == 45) = true := rfl
  rw [number_eq, hstart, hneg, hsign, hplain, numeral_digits true hne hdigits hrest]

theorem number_plus {digits rest : List UInt8} (hne : digits ≠ [])
    (hdigits : ∀ d ∈ digits, isDigit 10 d = true) (hrest : rest.takeWhile (isDigit 10) = []) :
    number 10 (43 :: (digits ++ rest)) = some (false, digitsValue 10 digits, rest) := by
  have hplain : skipHexPrefix 10 (digits ++ rest) = digits ++ rest := if_neg (by simp)
  have hstart : (43 :: (digits ++ rest)).dropWhile isspace = 43 :: (digits ++ rest) := rfl
  have hsign : skipSign (43 :: (digits ++ rest)) = digits ++ rest := rfl
  have hneg : (deref (43 :: (digits ++ rest)) == 45) = false := rfl
  rw [number_eq, hstart, hneg, hsign, hplain, numeral_digits false hne hdigits hrest]

/-- A text that `strtol` reads as `n`, without a minus: white space, possibly a
plus, digits, and anything that does not begin with a digit. -/
inductive Reads : List UInt8 → Nat → Prop where
  | mk {blanks sign digits behind : List UInt8} : Blank blanks → sign = [] ∨ sign = [43] →
      digits ≠ [] → (∀ d ∈ digits, isDigit 10 d = true) → behind.takeWhile (isDigit 10) = [] →
      Reads (blanks ++ (sign ++ (digits ++ behind))) (digitsValue 10 digits)

theorem Reads.number {p : List UInt8} {n : Nat} (h : Reads p n) :
    ∃ rest, number 10 p = some (false, n, rest) := by
  obtain ⟨hblanks, hsign, hne, hdigits, hbehind⟩ := h
  rename_i behind
  exists behind
  rw [hblanks.number]
  rcases hsign with rfl | rfl
  · exact number_decimal hne hdigits hbehind
  · exact number_plus hne hdigits hbehind

theorem reads_of_number {p rest : List UInt8} {n : Nat}
    (h : number 10 p = some (false, n, rest)) : Reads p n := by
  have hplain (q : List UInt8) : skipHexPrefix 10 q = q := if_neg (by simp)
  rw [number_eq, hplain] at h
  obtain ⟨hneg, hne, hn, -⟩ := numeral_some h
  have hminus : deref (p.dropWhile isspace) ≠ 45 := beq_eq_false_iff_ne.mp hneg.symm
  have hsign : ∃ sign, (sign = [] ∨ sign = [43]) ∧
      p.dropWhile isspace = sign ++ skipSign (p.dropWhile isspace) := by
    unfold skipSign
    split
    case isTrue hmark =>
        have hplus := hmark.resolve_left hminus
        cases hp : p.dropWhile isspace with
        | nil => simp [hp, deref] at hplus
        | cons c q =>
            rw [hp] at hplus
            obtain rfl : c = 43 := hplus
            exact Exists.intro [43] (And.intro (Or.inr rfl) rfl)
    case isFalse =>
        exact Exists.intro [] (And.intro (Or.inl rfl) rfl)
  obtain ⟨sign, hform, hsplit⟩ := hsign
  generalize skipSign (p.dropWhile isspace) = q at hne hn hsplit
  have hp : p = p.takeWhile isspace ++ (sign ++ (q.takeWhile (isDigit 10) ++
      q.dropWhile (isDigit 10))) := by
    rw [List.takeWhile_append_dropWhile, ← hsplit, List.takeWhile_append_dropWhile]
  rw [hp, hn]
  apply Reads.mk
  · intro c hc
    exact List.mem_takeWhile_imp hc
  · exact hform
  · exact hne
  · intro d hd
    exact List.mem_takeWhile_imp hd
  · rw [List.takeWhile_eq_nil_iff]
    intro hpos
    exact List.dropWhile_get_zero_not (isDigit 10) q hpos

theorem Reads.ne_nil {text : List UInt8} {n : Nat} (h : Reads text n) : text ≠ [] := by
  rintro rfl
  obtain ⟨rest, hnumber⟩ := h.number
  cases hnumber

theorem reads_digits {digits : List UInt8} (hne : digits ≠ [])
    (hdigits : ∀ d ∈ digits, isDigit 10 d = true) : Reads digits (digitsValue 10 digits) := by
  apply reads_of_number
  have h : number 10 (digits ++ []) = some (false, digitsValue 10 digits, []) :=
    number_decimal hne hdigits rfl
  rw [List.append_nil] at h
  exact h

theorem Reads.digits_value {digits : List UInt8} {n : Nat} (h : Reads digits n)
    (hdigits : ∀ d ∈ digits, isDigit 10 d = true) : n = digitsValue 10 digits := by
  obtain ⟨rest, hnumber⟩ := h.number
  obtain ⟨rest', hnumber'⟩ := (reads_digits h.ne_nil hdigits).number
  rw [hnumber] at hnumber'
  cases hnumber'
  rfl

/-- `strtol` gives a positive number, short of saturation, for the texts that
`Reads` describes. -/
theorem strtol_eq_iff {p : List UInt8} {n : Nat} (hpos : 0 < n) (hmax : n < 0x7FFFFFFF) :
    strtol 10 p = (n : Int) ↔ Reads p n := by
  apply Iff.intro
  · intro h
    unfold strtol at h
    cases hnumber : number 10 p with
    | none =>
        rw [hnumber] at h
        simp only at h
        omega
    | some found =>
        obtain ⟨neg, m, rest⟩ := found
        rw [hnumber] at h
        simp only at h
        cases neg with
        | true =>
            rw [if_pos rfl] at h
            omega
        | false =>
            rw [if_neg Bool.false_ne_true] at h
            obtain rfl : m = n := by omega
            exact reads_of_number hnumber
  · intro h
    obtain ⟨rest, hnumber⟩ := h.number
    rw [strtol, hnumber]
    simp only [Bool.false_eq_true, if_false]
    omega

/-- The last `k` decimal digits of `n`. -/
def fixedDecimal : (k n : Nat) → List UInt8
  | 0, _ => []
  | k + 1, n => fixedDecimal k (n / 10) ++ [UInt8.ofNat (48 + n % 10)]

theorem length_fixedDecimal (k n : Nat) : (fixedDecimal k n).length = k := by
  induction k generalizing n with
  | zero => rfl
  | succ k ih => rw [fixedDecimal, List.length_append, ih, List.length_singleton]

theorem fixedDecimal_digit (k n : Nat) : ∀ d ∈ fixedDecimal k n, isDigit 10 d = true := by
  have hcases : ∀ m < 10, isDigit 10 (UInt8.ofNat (48 + m)) = true := by decide
  induction k generalizing n with
  | zero => simp [fixedDecimal]
  | succ k ih =>
      intro d hd
      rw [fixedDecimal, List.mem_append, List.mem_singleton] at hd
      rcases hd with hin | rfl
      · exact ih _ d hin
      · exact hcases _ (Nat.mod_lt n (by decide))

theorem digitsValue_fixedDecimal {k n : Nat} (h : n < 10 ^ k) :
    digitsValue 10 (fixedDecimal k n) = n := by
  have hcases : ∀ m < 10, digitValue (UInt8.ofNat (48 + m)) = m := by decide
  induction k generalizing n with
  | zero =>
      rw [pow_zero] at h
      obtain rfl : n = 0 := by omega
      rfl
  | succ k ih =>
      rw [pow_succ] at h
      have hlast := hcases _ (Nat.mod_lt n (show 0 < 10 by decide))
      have hfront : digitsValue 10 (fixedDecimal k (n / 10)) = n / 10 := ih (by omega)
      rw [digitsValue] at hfront ⊢
      rw [fixedDecimal, List.foldl_append, hfront, List.foldl_cons, List.foldl_nil, hlast]
      omega

/-- A number without a sign is saturated. -/
theorem strtoul_of_number {base : Nat} {p rest : List UInt8} {n : Nat}
    (h : number base p = some (false, n, rest)) :
    (strtoul base p).1.toNat = min n 0xFFFFFFFF ∧ (strtoul base p).2 = rest := by
  rw [strtoul, h]
  dsimp only
  split
  case isTrue hbig =>
      rw [Nat.min_eq_right (by omega)]
      exact ⟨rfl, rfl⟩
  case isFalse hsmall =>
      rw [if_neg Bool.false_ne_true, UInt32.toNat_ofNat', Nat.min_eq_left (by omega)]
      exact ⟨Nat.mod_eq_of_lt (by omega), rfl⟩

theorem strstr_length_le {pat p q : List UInt8} (h : strstr pat p = some q) :
    q.length ≤ p.length := by
  induction p with
  | nil => cases h
  | cons b p ih =>
      simp only [strstr] at h
      split at h
      · obtain rfl : b :: p = q := Option.some.inj h
        exact Nat.le_refl _
      · split at h
        · cases h
        · exact Nat.le_succ_of_le (ih h)

/-- `strchr` stops at the first `c`, or at the end of the string. -/
theorem strchr_eq_some {c : UInt8} {p q : List UInt8} (h : strchr c p = some q) :
    ∃ front back, p = front ++ c :: back ∧ q = c :: back ∧
      ∀ b ∈ front, b ≠ 0 ∧ b ≠ c := by
  induction p with
  | nil => cases h
  | cons b p ih =>
      simp only [strchr] at h
      split at h
      case isTrue hc =>
          cases h
          exact ⟨[], p, by simp [hc], by simp [hc], by simp⟩
      case isFalse hc =>
          split at h
          case isTrue => cases h
          case isFalse h0 =>
              obtain ⟨front, back, rfl, hq, hfront⟩ := ih h
              exact ⟨b :: front, back, rfl, hq,
                List.forall_mem_cons.mpr ⟨⟨h0, hc⟩, hfront⟩⟩

theorem strchr_append {c : UInt8} {front : List UInt8} (back : List UInt8)
    (h : ∀ b ∈ front, b ≠ 0 ∧ b ≠ c) :
    strchr c (front ++ c :: back) = some (c :: back) := by
  induction front with
  | nil => simp [strchr]
  | cons b front ih =>
      obtain ⟨⟨h0, hc⟩, hfront⟩ := List.forall_mem_cons.mp h
      simp [strchr, h0, hc, ih hfront]

theorem strchr_eq_none {c : UInt8} {p : List UInt8} (h : ∀ b ∈ p, b ≠ c) :
    strchr c p = none := by
  induction p with
  | nil => rfl
  | cons b p ih =>
      obtain ⟨hc, hp⟩ := List.forall_mem_cons.mp h
      simp [strchr, hc, ih hp]

theorem text_isPrefix (p : List UInt8) : text p <+: p := List.takeWhile_prefix _

theorem zero_notMem_text (p : List UInt8) : (0 : UInt8) ∉ text p := by
  intro h
  simpa using List.mem_takeWhile_imp h

/-- An array without a NUL is its own text. -/
theorem text_eq_self {p : List UInt8} (h : (0 : UInt8) ∉ p) : text p = p := by
  apply List.takeWhile_eq_self_iff.mpr
  intro b hb
  simp only [bne_iff_ne, ne_eq]
  rintro rfl
  exact h hb

/-- `strchr` finds what the text contains. -/
theorem strchr_isSome_iff {c : UInt8} (hc : c ≠ 0) (p : List UInt8) :
    (strchr c p).isSome = true ↔ c ∈ text p := by
  induction p with
  | nil => simp [strchr, text]
  | cons b p ih =>
      by_cases hb : b = c
      · subst hb
        simp [strchr, text, hc]
      · by_cases h0 : b = 0
        · simp [strchr, text, h0, Ne.symm hc]
        · simp only [strchr, if_neg hb, if_neg h0, ih, text, List.takeWhile_cons]
          simp [h0, Ne.symm hb]

theorem text_append_nul {p : List UInt8} (h : (0 : UInt8) ∉ p) : text (p ++ [0]) = p := by
  unfold text
  rw [List.takeWhile_append_of_pos (by
    intro b hb
    apply bne_iff_ne.mpr
    intro hzero
    exact h (hzero ▸ hb))]
  exact List.append_nil p

theorem text_append {front : List UInt8} (h : (0 : UInt8) ∈ front) (back : List UInt8) :
    text (front ++ back) = text front := by
  induction front with
  | nil => cases h
  | cons b front ih =>
      by_cases h0 : b = 0
      · simp [text, h0]
      · have hin : (0 : UInt8) ∈ front := by simpa [Ne.symm h0] using h
        simp only [text, List.cons_append, List.takeWhile_cons] at ih ⊢
        rw [ih hin]

end Rw612.Lib.CString
