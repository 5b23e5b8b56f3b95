import Mathlib.Data.List.Infix

/-!
Lines of a byte stream that end in CR LF. `splitFrom` scans for the first LF
behind a CR, with the one bit of memory such a scan needs; `splitLine` is the
first line of a stream and what follows it.
-/

namespace Rw612.Lib

/-- CR LF does not occur in `l`. -/
def CrlfFree (l : List UInt8) : Prop := ¬[13, 10] <:+: l

instance (l : List UInt8) : Decidable (CrlfFree l) :=
  inferInstanceAs (Decidable (¬[13, 10] <:+: l))

/-- The bytes before the first LF that follows a CR, and those behind it;
`prevCr` tells whether the byte before the stream was a CR. -/
def splitFrom (prevCr : Bool) : List UInt8 → Option (List UInt8 × List UInt8)
  | [] => none
  | c :: p =>
      if c = 10 ∧ prevCr = true then some ([], p)
      else (splitFrom (c == 13) p).map fun (l, rest) => (c :: l, rest)

/-- The first line, without its CR LF. -/
def splitLine (p : List UInt8) : Option (List UInt8 × List UInt8) :=
  (splitFrom false p).map fun (l, rest) => (l.dropLast, rest)

theorem splitFrom_cons (prevCr : Bool) (c : UInt8) (p : List UInt8)
    (h : ¬(c = 10 ∧ prevCr = true)) :
    splitFrom prevCr (c :: p) = (splitFrom (c == 13) p).map fun (l, rest) => (c :: l, rest) :=
  if_neg h

theorem splitFrom_some {prevCr : Bool} {p l rest : List UInt8}
    (h : splitFrom prevCr p = some (l, rest)) :
    p = l ++ 10 :: rest ∧ (l ≠ [] → l.getLast? = some 13) ∧ (l = [] → prevCr = true) := by
  induction p generalizing prevCr l with
  | nil => cases h
  | cons c p ih =>
      by_cases hend : c = 10 ∧ prevCr = true
      · rw [splitFrom, if_pos hend] at h
        cases h
        exact ⟨by rw [hend.1, List.nil_append], by simp, fun _ => hend.2⟩
      · rw [splitFrom_cons _ _ _ hend] at h
        obtain ⟨⟨l', rest'⟩, hsplit, heq⟩ := Option.map_eq_some_iff.mp h
        cases heq
        obtain ⟨hp, hlast, hempty⟩ := ih hsplit
        refine ⟨by rw [hp, List.cons_append], fun _ => ?_, by simp⟩
        by_cases hl : l' = []
        · have hc : c = 13 := by simpa using hempty hl
          rw [hl, hc]
          rfl
        · rw [List.getLast?_cons, hlast hl]
          rfl

/-- The first line, in the stream. -/
theorem splitLine_some {p line rest : List UInt8} (h : splitLine p = some (line, rest)) :
    p = line ++ 13 :: 10 :: rest := by
  obtain ⟨⟨l, rest'⟩, hsplit, heq⟩ := Option.map_eq_some_iff.mp h
  cases heq
  obtain ⟨hp, hlast, hempty⟩ := splitFrom_some hsplit
  have hl : l ≠ [] := fun hnil => by simpa using hempty hnil
  rw [hp, show (13 : UInt8) :: 10 :: rest = [13] ++ 10 :: rest from rfl, ← List.append_assoc,
    List.dropLast_append_getLast? 13 (hlast hl)]

/-- Behind a CR, no line of its own may begin with an LF. -/
theorem splitFrom_append {prevCr : Bool} {line : List UInt8} (rest : List UInt8)
    (hfree : CrlfFree line) (hhead : prevCr = true → line.head? ≠ some 10) :
    splitFrom prevCr (line ++ 13 :: 10 :: rest) = some (line ++ [13], rest) := by
  induction line generalizing prevCr with
  | nil => simp [splitFrom]
  | cons c line ih =>
      have hc : ¬(c = 10 ∧ prevCr = true) := fun ⟨hc, hprev⟩ => hhead hprev (by simp [hc])
      have hfree' : CrlfFree line := fun hin => hfree (hin.trans (List.suffix_cons c line).isInfix)
      have hhead' : (c == 13) = true → line.head? ≠ some 10 := by
        intro hcr hlf
        apply hfree
        cases line with
        | nil => cases hlf
        | cons d line =>
            obtain rfl : d = 10 := Option.some.inj hlf
            obtain rfl : c = 13 := by simpa using hcr
            exact ⟨[], line, rfl⟩
      rw [List.cons_append, splitFrom_cons _ _ _ hc, ih hfree' hhead']
      rfl

/-- A line without CR LF in it is read back. -/
theorem splitLine_append {line : List UInt8} (rest : List UInt8) (hfree : CrlfFree line) :
    splitLine (line ++ 13 :: 10 :: rest) = some (line, rest) := by
  rw [splitLine, splitFrom_append rest hfree (by simp)]
  simp

end Rw612.Lib
