import Rw612.Http.Message
import Rw612.Lib.Lines

/-!
`parse_response_headers` line by line. A `Head` is a header section cut into its
lines; every buffer with a header end begins with one. What a line says on its
own is what the parser makes of it with nothing behind its line end. The number
readers skip white space, line ends too, so the two differ exactly where a
number is expected in a text that is blank.
-/

namespace Rw612.Http

open Lib Lib.CString

/-- The header lines and the empty line behind them. -/
def sectionBytes (lines : List (List UInt8)) : List UInt8 :=
  lines.flatMap (· ++ crlf) ++ crlf

/-- A header section: the status line, and header lines that are not empty. -/
structure Head where
  first : List UInt8
  lines : List (List UInt8)
  firstFree : CrlfFree first
  linesFree : ∀ line ∈ lines, line ≠ [] ∧ CrlfFree line

def Head.bytes (h : Head) : List UInt8 := h.first ++ crlf ++ sectionBytes h.lines

theorem sectionBytes_cons (line : List UInt8) (lines : List (List UInt8)) :
    sectionBytes (line :: lines) = line ++ 13 :: 10 :: sectionBytes lines := by
  simp [sectionBytes, crlf]

theorem Head.bytes_append (h : Head) (tail : List UInt8) :
    h.bytes ++ tail = h.first ++ 13 :: 10 :: (sectionBytes h.lines ++ tail) := by
  simp [Head.bytes, crlf]

theorem crlfFree_cons {c : UInt8} {line : List UInt8} :
    CrlfFree (c :: line) ↔ ¬(c = 13 ∧ line.head? = some 10) ∧ CrlfFree line := by
  unfold CrlfFree
  rw [List.infix_cons_iff, not_or]
  cases line with
  | nil => simp
  | cons d line => simp [List.cons_prefix_cons, eq_comm]

/-- A line that is not empty does not begin with a line end. -/
theorem crlfFree_notEnd {c : UInt8} {line : List UInt8} (h : CrlfFree (c :: line))
    (q : List UInt8) : ¬∃ rest, c :: (line ++ 13 :: q) = 13 :: 10 :: rest := by
  rintro ⟨rest, heq⟩
  rw [List.cons.injEq] at heq
  cases line with
  | nil => simp at heq
  | cons d line =>
      rw [List.cons_append, List.cons.injEq] at heq
      exact (crlfFree_cons.mp h).1 ⟨heq.1, by rw [List.head?_cons, heq.2.1]⟩

/-! The header end. -/

theorem findHdrEnd_step {n : Nat} {c : UInt8} {buf : List UInt8}
    (h : ¬∃ rest, c :: buf = 13 :: 10 :: 13 :: 10 :: rest) :
    findHdrEnd (n + 1) (c :: buf) = findHdrEnd n buf := by
  rw [findHdrEnd]
  intro m rest _ hc hbuf
  exact h ⟨rest, by rw [hc, hbuf]⟩

theorem findHdrEnd_min {n : Nat} {buf hdrEnd : List UInt8}
    (h : findHdrEnd n buf = some hdrEnd) : 4 ≤ n := by
  fun_induction findHdrEnd n buf with
  | case1 n rest => omega
  | case2 n c buf hnot ih =>
      have hn := ih h
      omega
  | case3 => cases h

/-- Whatever the parser takes for a header section is one. -/
theorem Head.of_findHdrEnd {n : Nat} {buf hdrEnd : List UInt8}
    (h : findHdrEnd n buf = some hdrEnd) :
    ∃ head : Head, buf = head.bytes ++ hdrEnd ∧ head.bytes.length ≤ n := by
  fun_induction findHdrEnd n buf with
  | case1 n rest =>
      obtain rfl := Option.some.inj h
      exact ⟨⟨[], [], by decide, by simp⟩, rfl, Nat.le_add_left 4 n⟩
  | case2 n c buf hnot ih =>
      obtain ⟨head, hbuf, hlen⟩ := ih h
      have hsize := congrArg List.length hbuf
      rw [List.length_append] at hsize
      rw [head.bytes_append] at hbuf
      by_cases hline : c = 13 ∧ head.first.head? = some 10
      · -- the line ends here, and the one read so far is a header line
        obtain ⟨rfl, hlf⟩ := hline
        obtain ⟨first, hfirst⟩ : ∃ first, head.first = 10 :: first := by
          cases hf : head.first with
          | nil => simp [hf] at hlf
          | cons d first => simp_all
        have hfree := head.firstFree
        rw [hfirst, crlfFree_cons] at hfree
        have hne : first ≠ [] := by
          rintro rfl
          have hmin := findHdrEnd_min h
          rw [hfirst] at hbuf
          exact hnot (n - 3) _ (by omega) rfl hbuf
        let cut : Head := ⟨[], first :: head.lines, by decide,
          List.forall_mem_cons.mpr ⟨⟨hne, hfree.2⟩, head.linesFree⟩⟩
        have hcut : 13 :: buf = cut.bytes ++ hdrEnd := by
          rw [Head.bytes_append, hbuf, hfirst, sectionBytes_cons]
          simp [cut]
        have hcutSize := congrArg List.length hcut
        rw [List.length_append, List.length_cons] at hcutSize
        exact ⟨cut, hcut, by omega⟩
      · let longer : Head := ⟨c :: head.first, head.lines,
          crlfFree_cons.mpr ⟨hline, head.firstFree⟩, head.linesFree⟩
        have hlonger : c :: buf = longer.bytes ++ hdrEnd := by
          rw [Head.bytes_append, hbuf]
          rfl
        have hlongerSize := congrArg List.length hlonger
        rw [List.length_append, List.length_cons] at hlongerSize
        exact ⟨longer, hlonger, by omega⟩
  | case3 => cases h

/-- The scan runs over a line if another line follows. -/
theorem findHdrEnd_line {line p : List UInt8} (hfree : CrlfFree line)
    (hp : ¬∃ rest, p = 13 :: 10 :: rest) (n : Nat) :
    findHdrEnd (n + 2 + line.length) (line ++ 13 :: 10 :: p) = findHdrEnd n p := by
  induction line with
  | nil =>
      have hcr : ¬∃ rest, (13 : UInt8) :: 10 :: p = 13 :: 10 :: 13 :: 10 :: rest := by
        rintro ⟨rest, heq⟩
        exact hp ⟨rest, by simpa using heq⟩
      have hlf : ¬∃ rest, (10 : UInt8) :: p = 13 :: 10 :: 13 :: 10 :: rest := by
        rintro ⟨rest, heq⟩
        simp at heq
      exact (findHdrEnd_step hcr).trans (findHdrEnd_step hlf)
  | cons c line ih =>
      have hfree' := (crlfFree_cons.mp hfree).2
      have hno := crlfFree_notEnd hfree (10 :: p)
      exact (findHdrEnd_step fun ⟨rest, heq⟩ => hno ⟨_, heq⟩).trans (ih hfree')

theorem findHdrEnd_last {line tail : List UInt8} (hfree : CrlfFree line) (n : Nat) :
    findHdrEnd (n + 4 + line.length) (line ++ 13 :: 10 :: 13 :: 10 :: tail) = some tail := by
  induction line with
  | nil => rfl
  | cons c line ih =>
      have hfree' := (crlfFree_cons.mp hfree).2
      have hno := crlfFree_notEnd hfree (10 :: 13 :: 10 :: tail)
      exact (findHdrEnd_step fun ⟨rest, heq⟩ => hno ⟨_, heq⟩).trans (ih hfree')

theorem findHdrEnd_section {line : List UInt8} {lines : List (List UInt8)} (hfree : CrlfFree line)
    (hlines : ∀ line ∈ lines, line ≠ [] ∧ CrlfFree line) (tail : List UInt8) {n : Nat}
    (hn : (line ++ crlf ++ sectionBytes lines).length ≤ n) :
    findHdrEnd n (line ++ 13 :: 10 :: (sectionBytes lines ++ tail)) = some tail := by
  induction lines generalizing line n with
  | nil =>
      simp only [sectionBytes, crlf, List.length_append, List.flatMap_nil, List.length_cons,
        List.length_nil] at hn
      obtain ⟨m, rfl⟩ : ∃ m, n = m + 4 + line.length := ⟨n - 4 - line.length, by omega⟩
      exact findHdrEnd_last hfree m
  | cons l lines ih =>
      obtain ⟨⟨hne, hl⟩, hrest⟩ := List.forall_mem_cons.mp hlines
      have hnext : ¬∃ rest, l ++ 13 :: 10 :: (sectionBytes lines ++ tail) = 13 :: 10 :: rest := by
        cases l with
        | nil => exact absurd rfl hne
        | cons c l => exact crlfFree_notEnd hl _
      simp only [sectionBytes_cons, crlf, List.length_append, List.length_cons,
        List.length_nil] at hn
      obtain ⟨m, rfl⟩ : ∃ m, n = m + 2 + line.length := ⟨n - 2 - line.length, by omega⟩
      rw [sectionBytes_cons, List.append_assoc, List.cons_append, List.cons_append,
        findHdrEnd_line hfree hnext]
      apply ih hl hrest
      simp only [crlf, List.length_append, List.length_cons, List.length_nil]
      omega

/-- The section is found, whatever follows it and however much was received. -/
theorem Head.findHdrEnd (head : Head) (tail : List UInt8) {n : Nat}
    (hn : head.bytes.length ≤ n) : findHdrEnd n (head.bytes ++ tail) = some tail := by
  rw [head.bytes_append]
  exact findHdrEnd_section head.firstFree head.linesFree tail hn

theorem sectionBytes_inj {lines lines' : List (List UInt8)}
    (hlines : ∀ line ∈ lines, line ≠ [] ∧ CrlfFree line)
    (hlines' : ∀ line ∈ lines', line ≠ [] ∧ CrlfFree line) {tail tail' : List UInt8}
    (h : sectionBytes lines ++ tail = sectionBytes lines' ++ tail') : lines = lines' := by
  have hempty (t : List UInt8) : splitLine (sectionBytes [] ++ t) = some ([], t) := by
    have hfree : CrlfFree [] := by decide
    exact splitLine_append t hfree
  have hfirst {line : List UInt8} (hfree : CrlfFree line) (ls : List (List UInt8))
      (t : List UInt8) :
      splitLine (sectionBytes (line :: ls) ++ t) = some (line, sectionBytes ls ++ t) := by
    rw [sectionBytes_cons, List.append_assoc]
    exact splitLine_append _ hfree
  induction lines generalizing lines' with
  | nil =>
      cases lines' with
      | nil => rfl
      | cons line' lines' =>
          obtain ⟨hne, hfree⟩ := hlines' _ List.mem_cons_self
          have hsplit := (hempty tail).symm.trans ((congrArg splitLine h).trans (hfirst hfree _ _))
          rw [Option.some.injEq, Prod.mk.injEq] at hsplit
          exact absurd hsplit.1.symm hne
  | cons line lines ih =>
      obtain ⟨⟨hne, hfree⟩, hrest⟩ := List.forall_mem_cons.mp hlines
      cases lines' with
      | nil =>
          have hsplit := (hfirst hfree _ _).symm.trans ((congrArg splitLine h).trans (hempty tail'))
          rw [Option.some.injEq, Prod.mk.injEq] at hsplit
          exact absurd hsplit.1 hne
      | cons line' lines' =>
          obtain ⟨⟨-, hfree'⟩, hrest'⟩ := List.forall_mem_cons.mp hlines'
          have hsplit := (hfirst hfree _ _).symm.trans
            ((congrArg splitLine h).trans (hfirst hfree' _ _))
          rw [Option.some.injEq, Prod.mk.injEq] at hsplit
          rw [hsplit.1, ih hrest hrest' hsplit.2]

/-- A buffer begins with one section only. -/
theorem Head.unique {head head' : Head} {tail tail' : List UInt8}
    (h : head.bytes ++ tail = head'.bytes ++ tail') : head = head' := by
  rw [head.bytes_append, head'.bytes_append] at h
  have hsplit := (splitLine_append _ head.firstFree).symm.trans
    ((congrArg splitLine h).trans (splitLine_append _ head'.firstFree))
  rw [Option.some.injEq, Prod.mk.injEq] at hsplit
  have hlines := sectionBytes_inj head.linesFree head'.linesFree hsplit.2
  cases head
  cases head'
  cases hsplit.1
  cases hlines
  rfl

/-! What a line says on its own. -/

/-- A header line with nothing behind its line end. -/
def lineAlone (out : HttpResponse) (line : List UInt8) : HttpResponse :=
  parseHeaderLine (line ++ crlf) crlf out

/-- The status that is read from a buffer. -/
def statusAt (buf : List UInt8) : Option Int :=
  (strchr 32 buf).map fun sp1 => strtol 10 (sp1.drop 1)

/-- `v` behind the unit of a range. -/
def skipUnit (v : List UInt8) : List UInt8 :=
  let v := if (ascii "bytes ").isPrefixOf v then v.drop 6 else v
  if (ascii "bytes=").isPrefixOf v then v.drop 6 else v

theorem hdrMatch_range_length {line : List UInt8}
    (h : hdrMatch line (ascii "content-range") = true) :
    hdrMatch line (ascii "content-length") = false := by
  rw [← Bool.not_eq_true]
  intro hlength
  simp only [hdrMatch, Bool.and_eq_true, beq_iff_eq] at h hlength
  -- the names differ within their first nine bytes
  have hnine : ∀ name : List UInt8, 9 ≤ name.length →
      (line.take name.length).map toLower = name.map toLower →
      (line.take 9).map toLower = (name.map toLower).take 9 := by
    intro name hname hmatch
    have htake := congrArg (List.take 9) hmatch
    rw [← List.map_take, List.take_take, Nat.min_eq_left hname] at htake
    exact htake
  have hrange := hnine _ (by decide) h.1
  rw [hnine _ (by decide) hlength.1] at hrange
  exact absurd hrange (by decide)

/-- The numbers of a range, at the places where they are looked for. -/
def rangeFields (v : List UInt8) (out : HttpResponse) : HttpResponse :=
  let (start, cur) := strtoul 10 v
  if deref cur = 45 then
    let (e2, cur) := strtoul 10 (cur.drop 1)
    let total := if deref cur = 47 then (strtoul 10 (cur.drop 1)).1 else 0
    {out with
      rangeStart := start
      rangeEnd := e2
      rangeTotal := total
      hasContentRange := true}
  else out

theorem parseContentRange_eq (v : List UInt8) (out : HttpResponse) :
    parseContentRange v out = rangeFields (skipUnit v) out := by
  rw [parseContentRange, rangeFields, skipUnit]

theorem cr_notDigit : isDigit 10 13 = false := by decide

theorem blank_crlf : Blank crlf := by decide

/-- The condition on a range: at each place a number is looked for, the line is
not blank. -/
def RangeInLine (v : List UInt8) : Prop :=
  ¬Blank v ∧
    (deref (strtoul 10 v).2 = 45 →
      let v' := (strtoul 10 v).2.drop 1
      ¬Blank v' ∧
        (deref (strtoul 10 v').2 = 47 → ¬Blank ((strtoul 10 v').2.drop 1)))

/-- The condition on a header line: its numbers are looked for in text that is not
blank. -/
def ValueInLine (line : List UInt8) : Prop :=
  let v := (hdrValue line).getD []
  if hdrMatch line (ascii "content-length") then ¬Blank v
  else if hdrMatch line (ascii "content-range") then RangeInLine (skipUnit v)
  else True

/-- The same for the status. -/
def StatusInLine (first : List UInt8) : Prop :=
  ∃ sp1, strchr 32 first = some sp1 ∧ ¬Blank (sp1.drop 1)

theorem deref_append_cr {c : UInt8} (h0 : c ≠ 0) (hcr : c ≠ 13) (p q : List UInt8) :
    deref (p ++ 13 :: q) = c ↔ deref p = c := by
  cases p with
  | nil => exact ⟨fun h => absurd h.symm hcr, fun h => absurd h.symm h0⟩
  | cons b p => exact Iff.rfl

theorem drop_append_cr {c : UInt8} (h0 : c ≠ 0) {p : List UInt8} (h : deref p = c)
    (q : List UInt8) : (p ++ 13 :: q).drop 1 = p.drop 1 ++ 13 :: q := by
  cases p with
  | nil => exact absurd h.symm h0
  | cons b p => rfl

theorem isPrefixOf_append_cr {pat : List UInt8} (hpat : 13 ∉ pat) (p q : List UInt8) :
    pat.isPrefixOf (p ++ 13 :: q) = pat.isPrefixOf p := by
  induction pat generalizing p with
  | nil => rfl
  | cons c pat ih =>
      rw [List.mem_cons, not_or] at hpat
      cases p with
      | nil => simp [List.isPrefixOf, Ne.symm hpat.1]
      | cons b p => simp only [List.cons_append, List.isPrefixOf, ih hpat.2]

theorem skipUnit_append_cr (v q : List UInt8) :
    skipUnit (v ++ 13 :: q) = skipUnit v ++ 13 :: q := by
  have hstep {pat : List UInt8} (hpat : 13 ∉ pat) (hlen : pat.length = 6) (v : List UInt8) :
      (if pat.isPrefixOf (v ++ 13 :: q) then (v ++ 13 :: q).drop 6 else v ++ 13 :: q) =
        (if pat.isPrefixOf v then v.drop 6 else v) ++ 13 :: q := by
    rw [isPrefixOf_append_cr hpat]
    split
    case isTrue hprefix =>
        have hle := (List.isPrefixOf_iff_prefix.mp hprefix).length_le
        rw [List.drop_append_of_le_length (by omega)]
    case isFalse => rfl
  unfold skipUnit
  dsimp only
  rw [hstep (by decide) rfl, hstep (by decide) rfl]

theorem hdrMatch_append_cr {name : List UInt8} (hname : ∀ c ∈ name, toLower c ≠ 13)
    (line q : List UInt8) : hdrMatch (line ++ 13 :: q) name = hdrMatch line name := by
  unfold hdrMatch
  induction name generalizing line with
  | nil =>
      have hderef := deref_append_cr (c := 58) (by decide) (by decide) line q
      simpa [beq_eq_beq] using hderef
  | cons c name ih =>
      obtain ⟨hc, hrest⟩ := List.forall_mem_cons.mp hname
      cases line with
      | nil =>
          have hcr : toLower 13 = 13 := by decide
          simp [hcr, Ne.symm hc]
      | cons b line =>
          simp only [List.cons_append, List.length_cons, List.take_succ_cons, List.map_cons,
            List.drop_succ_cons, List.cons_beq_cons, Bool.and_assoc, ih hrest line]

theorem hdrMatch_line {name : List UInt8} (hname : (name.map toLower).contains 13 = false)
    (line q : List UInt8) : hdrMatch (line ++ 13 :: q) name = hdrMatch line name := by
  apply hdrMatch_append_cr
  intro c hc hcr
  rw [← Bool.not_eq_true, List.contains_iff_mem] at hname
  exact hname (hcr ▸ List.mem_map_of_mem hc)

/-- A line with a name has its value in it. -/
theorem hdrValue_of_match {line name : List UInt8} (hnul : 0 ∉ line)
    (hmatch : hdrMatch line name = true) :
    ∃ v, hdrValue line = some v ∧ ∀ q, hdrValue (line ++ 13 :: q) = some (v ++ 13 :: q) := by
  unfold hdrMatch at hmatch
  rw [Bool.and_eq_true, beq_iff_eq, beq_iff_eq] at hmatch
  have hcolon : (58 : UInt8) ∈ line := by
    have hderef := hmatch.2
    cases hdrop : line.drop name.length with
    | nil =>
        rw [hdrop] at hderef
        cases hderef
    | cons c back =>
        rw [hdrop] at hderef
        obtain rfl : c = 58 := hderef
        exact List.mem_of_mem_drop (hdrop ▸ List.mem_cons_self)
  have htext : (58 : UInt8) ∈ text line := by
    rw [text_eq_self hnul]
    exact hcolon
  obtain ⟨p, hp⟩ := Option.isSome_iff_exists.mp ((strchr_isSome_iff (by decide) line).mpr htext)
  obtain ⟨front, back, hline, rfl, hfront⟩ := strchr_eq_some hp
  refine ⟨back.dropWhile fun b => b == 32 || b == 9, ?_, fun q => ?_⟩
  · rw [hdrValue, hp]
    rfl
  · have hdrop : (back ++ 13 :: q).dropWhile (fun b => b == 32 || b == 9) =
        back.dropWhile (fun b => b == 32 || b == 9) ++ 13 :: q := by
      rw [List.dropWhile_append]
      split
      case isTrue hempty =>
          rw [List.isEmpty_iff.mp hempty]
          rfl
      case isFalse => rfl
    rw [hdrValue, hline, List.append_assoc, List.cons_append, strchr_append _ hfront,
      Option.map_some, List.drop_succ_cons, List.drop_zero, hdrop]

/-- `Location` and `Transfer-Encoding` are read up to the line end. -/
theorem hdrCopyLine_append {line v : List UInt8}
    (hv : ∀ q, hdrValue (line ++ 13 :: q) = some (v ++ 13 :: q)) (q out : List UInt8) (cap : Nat) :
    hdrCopyLine (line ++ 13 :: q) (13 :: q) out cap =
      if v = [] then out
      else (v.rdropWhile fun b => b == 13 || b == 10).take (cap - 1) := by
  simp only [hdrCopyLine, hv]
  have hlen : (v ++ 13 :: q).length - (13 :: q).length = v.length := by
    rw [List.length_append]
    omega
  rw [hlen, List.take_left]
  by_cases hempty : v = []
  · simp [hempty]
  · have hpos := List.length_pos_iff.mpr hempty
    rw [if_neg hempty, if_neg]
    rw [List.length_append]
    omega

theorem hasChunked_append (v nl nl' : List UInt8) :
    hasChunked nl (v ++ nl) = hasChunked nl' (v ++ nl') := by
  have hend (nl : List UInt8) : hasChunked nl nl = false := by
    cases nl with
    | nil => rfl
    | cons b nl => simp [hasChunked]
  induction v with
  | nil => rw [List.nil_append, List.nil_append, hend, hend]
  | cons b v ih =>
      have hshort (nl : List UInt8) : ¬(b :: (v ++ nl)).length ≤ nl.length := by
        rw [List.length_cons, List.length_append]
        omega
      have hroom (nl : List UInt8) :
          nl.length + 7 ≤ (b :: (v ++ nl)).length ↔ 7 ≤ (b :: v).length := by
        rw [List.length_cons, List.length_append, List.length_cons]
        omega
      have hword (nl : List UInt8) (h : 7 ≤ (b :: v).length) :
          (b :: (v ++ nl)).take 7 = (b :: v).take 7 := by
        rw [← List.cons_append, List.take_append_of_le_length h]
      simp only [List.cons_append, hasChunked, if_neg (hshort _), hroom, ih]
      by_cases h : 7 ≤ (b :: v).length
      · simp only [hword _ h]
      · simp only [h, false_and, if_false]

section

variable {v : List UInt8}

/-- In a blank text `strtoul` finds no number, but for one on the next line. -/
theorem strtoul_blank_end (hv : Blank v) : strtoul 10 (v ++ crlf) = (0, v ++ crlf) := by
  apply strtoul_of_none
  rw [hv.number]
  rfl

theorem strtoul_blank_next (hv : Blank v) {p : List UInt8} (hp : number 10 p ≠ none) :
    strtoul 10 (v ++ 13 :: 10 :: p) = strtoul 10 p := by
  have hskip : Blank (v ++ crlf) := by
    intro c hc
    exact (List.mem_append.mp hc).elim (hv c) (blank_crlf c)
  rw [show v ++ 13 :: 10 :: p = v ++ crlf ++ p by simp [crlf], hskip.strtoul hp]

theorem length_within_iff :
    ¬Blank v ↔ ∀ p, (strtoul 10 (v ++ 13 :: 10 :: p)).1 = (strtoul 10 (v ++ crlf)).1 := by
  constructor
  · intro hv p
    rw [strtoul_append hv cr_notDigit, crlf, strtoul_append hv cr_notDigit]
  · intro hsame hv
    have hseven := hsame [55]
    have hread : (strtoul 10 [55]).1 ≠ 0 := by decide
    rw [strtoul_blank_next hv (by decide), strtoul_blank_end hv] at hseven
    exact hread hseven

theorem rangeFields_append (h : RangeInLine v) (q : List UInt8) (out : HttpResponse) :
    rangeFields (v ++ 13 :: q) out = rangeFields v out := by
  obtain ⟨hv, hend⟩ := h
  simp only [rangeFields]
  rw [strtoul_append hv cr_notDigit]
  by_cases hdash : deref (strtoul 10 v).2 = 45
  · obtain ⟨hv', htotal⟩ := hend hdash
    rw [if_pos ((deref_append_cr (by decide) (by decide) _ _).mpr hdash), if_pos hdash,
      drop_append_cr (by decide) hdash, strtoul_append hv' cr_notDigit]
    by_cases hslash : deref (strtoul 10 ((strtoul 10 v).2.drop 1)).2 = 47
    · rw [if_pos ((deref_append_cr (by decide) (by decide) _ _).mpr hslash), if_pos hslash,
        drop_append_cr (by decide) hslash, strtoul_append (htotal hslash) cr_notDigit]
    · rw [if_neg fun h => hslash ((deref_append_cr (by decide) (by decide) _ _).mp h),
        if_neg hslash]
  · rw [if_neg fun h => hdash ((deref_append_cr (by decide) (by decide) _ _).mp h),
      if_neg hdash]

theorem range_within_iff :
    RangeInLine v ↔
      ∀ p out, rangeFields (v ++ 13 :: 10 :: p) out = rangeFields (v ++ crlf) out := by
  constructor
  · intro h p out
    rw [rangeFields_append h, crlf, rangeFields_append h]
  · intro hsame
    have hstart : ¬Blank v := by
      intro hv
      have hrange := congrArg HttpResponse.hasContentRange (hsame (ascii "1-") .zero)
      have hnot : ¬deref (v ++ crlf) = 45 := by
        cases v with
        | nil => decide
        | cons c v =>
            rintro rfl
            exact absurd (hv 45 List.mem_cons_self) (by decide)
      have hread : deref (strtoul 10 (ascii "1-")).2 = 45 := by decide
      simp only [rangeFields, strtoul_blank_next hv (show number 10 (ascii "1-") ≠ none by decide),
        strtoul_blank_end hv, if_pos hread, if_neg hnot] at hrange
      cases hrange
    refine ⟨hstart, fun hdash => ?_⟩
    have hcur := (deref_append_cr (by decide) (by decide) (strtoul 10 v).2 [10]).mpr hdash
    have hmiddle : ¬Blank ((strtoul 10 v).2.drop 1) := by
      intro hv'
      have hrange := congrArg HttpResponse.rangeEnd (hsame [55] .zero)
      have hread : (strtoul 10 [55]).1 ≠ 0 := by decide
      simp only [rangeFields, crlf, strtoul_append hstart cr_notDigit,
        if_pos ((deref_append_cr (by decide) (by decide) _ _).mpr hdash),
        drop_append_cr (by decide) hdash] at hrange
      rw [strtoul_blank_next hv' (by decide), ← crlf, strtoul_blank_end hv'] at hrange
      exact hread hrange
    refine ⟨hmiddle, fun hslash hv'' => ?_⟩
    have hrange := congrArg HttpResponse.rangeTotal (hsame [55] .zero)
    have hread : (strtoul 10 [55]).1 ≠ 0 := by decide
    simp only [rangeFields, crlf, strtoul_append hstart cr_notDigit,
      if_pos ((deref_append_cr (by decide) (by decide) _ _).mpr hdash),
      drop_append_cr (by decide) hdash, strtoul_append hmiddle cr_notDigit,
      if_pos ((deref_append_cr (by decide) (by decide) _ _).mpr hslash),
      drop_append_cr (by decide) hslash] at hrange
    rw [strtoul_blank_next hv'' (by decide), ← crlf, strtoul_blank_end hv''] at hrange
    exact hread hrange

end

/-- A header line is read within itself, whatever follows it, exactly if its
numbers are looked for in text that is not blank. -/
theorem parseHeaderLine_within_iff {line : List UInt8} (hnul : 0 ∉ line) :
    ValueInLine line ↔
      ∀ p out,
        parseHeaderLine (line ++ 13 :: 10 :: p) (13 :: 10 :: p) out = lineAlone out line := by
  have hnoCr : ((ascii "content-length").map toLower).contains 13 = false ∧
      ((ascii "content-range").map toLower).contains 13 = false ∧
      ((ascii "location").map toLower).contains 13 = false ∧
      ((ascii "transfer-encoding").map toLower).contains 13 = false := by decide
  obtain ⟨hcl, hcr, hloc, hte⟩ := hnoCr
  simp only [lineAlone, parseHeaderLine, ValueInLine, crlf, hdrMatch_line hcl, hdrMatch_line hcr,
    hdrMatch_line hloc, hdrMatch_line hte]
  split
  case isTrue hlength =>
      obtain ⟨v, hv, hread⟩ := hdrValue_of_match hnul hlength
      simp only [hv, hread, Option.getD_some]
      rw [length_within_iff]
      constructor
      · intro h p out
        rw [h p]
        rfl
      · intro h p
        exact congrArg HttpResponse.contentLength (h p .zero)
  case isFalse =>
      split
      case isTrue hrange =>
          obtain ⟨v, hv, hread⟩ := hdrValue_of_match hnul hrange
          simp only [hv, hread, Option.getD_some, parseContentRange_eq, skipUnit_append_cr]
          exact range_within_iff
      case isFalse =>
          rw [true_iff]
          intro p out
          split
          case isTrue hlocation =>
              obtain ⟨v, -, hread⟩ := hdrValue_of_match hnul hlocation
              simp only [hdrCopyLine_append hread]
          case isFalse =>
              split
              case isTrue hencoding =>
                  obtain ⟨v, -, hread⟩ := hdrValue_of_match hnul hencoding
                  simp only [hread]
                  rw [hasChunked_append v (13 :: 10 :: p) crlf]
                  rfl
              case isFalse => rfl

/-- The same for the status line. -/
theorem statusAt_within_iff {first : List UInt8} (hnul : 0 ∉ first) :
    StatusInLine first ↔
      ∃ status, ∀ p, statusAt (first ++ 13 :: 10 :: p) = some status := by
  constructor
  · rintro ⟨sp1, hsp1, hblank⟩
    obtain ⟨front, back, rfl, rfl, hfront⟩ := strchr_eq_some hsp1
    refine ⟨strtol 10 back, fun p => ?_⟩
    rw [List.drop_succ_cons, List.drop_zero] at hblank
    rw [statusAt, List.append_assoc, List.cons_append, strchr_append _ hfront, Option.map_some,
      List.drop_succ_cons, List.drop_zero, strtol_append hblank cr_notDigit]
  · rintro ⟨status, hstatus⟩
    -- with nothing behind the line, the space is one of its own
    obtain ⟨sp1, hsp1⟩ : ∃ sp1, strchr 32 first = some sp1 := by
      obtain ⟨sp1, hsp1, -⟩ := Option.map_eq_some_iff.mp (hstatus [])
      have hin := (strchr_isSome_iff (by decide) _).mp (Option.isSome_iff_exists.mpr ⟨sp1, hsp1⟩)
      apply Option.isSome_iff_exists.mp
      rw [strchr_isSome_iff (by decide), text_eq_self hnul]
      simpa using (text_isPrefix _).subset hin
    refine ⟨sp1, hsp1, ?_⟩
    obtain ⟨front, back, rfl, rfl, hfront⟩ := strchr_eq_some hsp1
    rw [List.drop_succ_cons, List.drop_zero]
    intro hblank
    have hread (p : List UInt8) : strtol 10 (crlf ++ p) = status := by
      have h := hstatus p
      rw [statusAt, List.append_assoc, List.cons_append, strchr_append _ hfront,
        Option.map_some, Option.some.injEq, List.drop_succ_cons, List.drop_zero,
        hblank.strtol] at h
      exact h
    have hsame := (hread []).trans (hread [55]).symm
    exact absurd hsame (by decide)

/-! The whole section. -/

/-- The lines before the first one with a NUL, where `strstr` stops. -/
def Head.shown (head : Head) : List (List UInt8) :=
  head.lines.takeWhile fun line => !line.contains 0

theorem strstr_crlf {line : List UInt8} (hfree : CrlfFree line) (q : List UInt8) :
    strstr crlf (line ++ 13 :: 10 :: q) = if 0 ∈ line then none else some (13 :: 10 :: q) := by
  induction line with
  | nil => rfl
  | cons c line ih =>
      have hprefix : crlf.isPrefixOf (c :: (line ++ 13 :: 10 :: q)) = false := by
        rw [Bool.eq_false_iff, ne_eq, List.isPrefixOf_iff_prefix]
        rintro ⟨rest, hrest⟩
        exact crlfFree_notEnd hfree (10 :: q) ⟨rest, hrest.symm⟩
      rw [List.cons_append, strstr, hprefix, if_neg Bool.false_ne_true,
        ih (crlfFree_cons.mp hfree).2]
      by_cases h0 : c = 0
      · simp [h0]
      · simp [h0, Ne.symm h0]

theorem parseHeaderLines_nil (tail : List UInt8) (out : HttpResponse) :
    parseHeaderLines tail (sectionBytes [] ++ tail) out = out := by
  rw [parseHeaderLines, if_neg]
  simp [sectionBytes, crlf]

/-- One round of the loop. -/
theorem parseHeaderLines_cons {line : List UInt8} (hfree : CrlfFree line)
    (lines : List (List UInt8)) (tail : List UInt8) (out : HttpResponse) :
    parseHeaderLines tail (sectionBytes (line :: lines) ++ tail) out =
      let p := sectionBytes lines ++ tail
      if 0 ∈ line then out
      else parseHeaderLines tail p
        (parseHeaderLine (line ++ 13 :: 10 :: p) (13 :: 10 :: p) out) := by
  have hmore : tail.length + 2 < (sectionBytes (line :: lines) ++ tail).length := by
    simp only [sectionBytes, crlf, List.flatMap_cons, List.length_append, List.length_cons]
    omega
  have hstr := strstr_crlf hfree (sectionBytes lines ++ tail)
  rw [parseHeaderLines, if_pos hmore, sectionBytes_cons, List.append_assoc,
    List.cons_append, List.cons_append]
  split
  case h_1 hnl =>
      rw [hstr] at hnl
      split at hnl
      case isTrue hnul => exact (if_pos hnul).symm
      case isFalse => cases hnl
  case h_2 nl hnl =>
      rw [hstr] at hnl
      split at hnl
      case isTrue => cases hnl
      case isFalse hnul =>
          cases hnl
          exact (if_neg hnul).symm

/-- The loop, where each line is read within itself. -/
theorem parseHeaderLines_eq {lines : List (List UInt8)}
    (hlines : ∀ line ∈ lines, line ≠ [] ∧ CrlfFree line) (tail : List UInt8) (out : HttpResponse)
    (hwithin : ∀ line ∈ lines.takeWhile fun line => !line.contains 0, ∀ p out,
      parseHeaderLine (line ++ 13 :: 10 :: p) (13 :: 10 :: p) out = lineAlone out line) :
    parseHeaderLines tail (sectionBytes lines ++ tail) out =
      (lines.takeWhile fun line => !line.contains 0).foldl lineAlone out := by
  induction lines generalizing out with
  | nil => exact parseHeaderLines_nil tail out
  | cons line lines ih =>
      obtain ⟨⟨-, hfree⟩, hrest⟩ := List.forall_mem_cons.mp hlines
      rw [parseHeaderLines_cons hfree]
      by_cases hnul : 0 ∈ line
      · simp [hnul]
      · rw [List.takeWhile_cons_of_pos (by simpa using hnul)] at hwithin ⊢
        obtain ⟨hline, hothers⟩ := List.forall_mem_cons.mp hwithin
        dsimp only
        rw [if_neg hnul, hline, ih hrest _ hothers, List.foldl_cons]

theorem parseHeaderLine_status (line nl : List UInt8) (out : HttpResponse) (status : Int) :
    parseHeaderLine line nl {out with status := status} =
      {parseHeaderLine line nl out with status := status} := by
  have hrange (v : List UInt8) : parseContentRange v {out with status := status} =
      {parseContentRange v out with status := status} := by
    rw [parseContentRange_eq, parseContentRange_eq]
    by_cases hdash : deref (strtoul 10 (skipUnit v)).2 = 45
    · simp only [rangeFields, if_pos hdash]
    · simp only [rangeFields, if_neg hdash]
  by_cases hlength : hdrMatch line (ascii "content-length") = true
  · simp only [parseHeaderLine, if_pos hlength]
    cases hdrValue line <;> rfl
  by_cases hranges : hdrMatch line (ascii "content-range") = true
  · simp only [parseHeaderLine, if_neg hlength, if_pos hranges]
    cases hdrValue line with
    | none => rfl
    | some v => exact hrange v
  by_cases hlocation : hdrMatch line (ascii "location") = true
  · simp only [parseHeaderLine, if_neg hlength, if_neg hranges, if_pos hlocation]
  by_cases hencoding : hdrMatch line (ascii "transfer-encoding") = true
  · simp only [parseHeaderLine, if_neg hlength, if_neg hranges, if_neg hlocation,
      if_pos hencoding]
    cases hdrValue line with
    | none => rfl
    | some v =>
        dsimp only
        split <;> rfl
  · simp only [parseHeaderLine, if_neg hlength, if_neg hranges, if_neg hlocation,
      if_neg hencoding]

theorem foldl_lineAlone_status (lines : List (List UInt8)) (out : HttpResponse) (status : Int) :
    lines.foldl lineAlone {out with status := status} =
      {lines.foldl lineAlone out with status := status} := by
  induction lines generalizing out with
  | nil => rfl
  | cons line lines ih =>
      rw [List.foldl_cons, lineAlone, parseHeaderLine_status, ih]
      rfl

/-- The parser on a buffer that begins with the section. -/
theorem Head.parse_eq (head : Head) (tail : List UInt8) {n : Nat}
    (hn : head.bytes.length ≤ n) :
    parseResponseHeaders (head.bytes ++ tail) n =
      if (ascii "HTTP/1.").isPrefixOf head.first = false then .error (-2)
      else
        match statusAt (head.bytes ++ tail) with
        | none => .error (-3)
        | some status =>
            if 0 ∈ head.first then .error (-4)
            else
              .ok (head.bytes.length, parseHeaderLines tail (sectionBytes head.lines ++ tail)
                {HttpResponse.zero with status := status}) := by
  have hlen : (head.bytes ++ tail).length - tail.length = head.bytes.length := by
    rw [List.length_append]
    omega
  have hstr := strstr_crlf head.firstFree (sectionBytes head.lines ++ tail)
  simp only [parseResponseHeaders, head.findHdrEnd tail hn, hlen, statusAt]
  rw [head.bytes_append, isPrefixOf_append_cr (by decide), hstr]
  split
  · rfl
  · cases strchr 32 (head.first ++ 13 :: 10 :: (sectionBytes head.lines ++ tail)) with
    | none => rfl
    | some sp1 =>
        by_cases hnul : 0 ∈ head.first
        · simp only [Option.map_some, if_pos hnul]
        · simp only [Option.map_some, if_neg hnul, List.drop_succ_cons, List.drop_zero]

/-- The response of a section, each line read within itself. -/
structure Head.ByLines (head : Head) (rsp : HttpResponse) : Prop where
  status : ∀ p, statusAt (head.first ++ 13 :: 10 :: p) = some rsp.status
  fields : rsp = {head.lines.foldl lineAlone .zero with status := rsp.status}
  within : ∀ line ∈ head.shown, ∀ p out,
    parseHeaderLine (line ++ 13 :: 10 :: p) (13 :: 10 :: p) out = lineAlone out line

/-- Every buffer that begins with the section gives the same result, an error or
the response of its lines. -/
def Head.ReadByLines (head : Head) : Prop :=
  ∃ result : Except Int (Nat × HttpResponse),
    (∀ tail n, head.bytes.length ≤ n → parseResponseHeaders (head.bytes ++ tail) n = result) ∧
      ∀ len rsp, result = .ok (len, rsp) → len = head.bytes.length ∧ head.ByLines rsp

/-- No response, or a NUL before the first space or in the status line. -/
def Head.Rejected (head : Head) : Prop :=
  (ascii "HTTP/1.").isPrefixOf head.first = false ∨ 0 ∈ head.first ∨
    (0 ∈ head.bytes ∧ 32 ∉ text head.bytes)

/-- Each number is looked for within its line, and the lines that a NUL hides would
change nothing. -/
structure Head.InLines (head : Head) : Prop where
  status : StatusInLine head.first
  values : ∀ line ∈ head.shown, ValueInLine line
  hidden : head.lines.foldl lineAlone .zero = head.shown.foldl lineAlone .zero

/-- A rejected section is rejected in the same way whatever follows it. -/
theorem Head.Rejected.same {head : Head} (h : head.Rejected) :
    ∃ rc, ∀ tail n, head.bytes.length ≤ n →
      parseResponseHeaders (head.bytes ++ tail) n = .error rc := by
  by_cases hversion : (ascii "HTTP/1.").isPrefixOf head.first = false
  · refine ⟨-2, fun tail n hn => ?_⟩
    rw [head.parse_eq tail hn, if_pos hversion]
  have hspace (tail : List UInt8) :
      (statusAt (head.bytes ++ tail)).isSome = true ↔ 32 ∈ text (head.bytes ++ tail) := by
    rw [statusAt, Option.isSome_map, strchr_isSome_iff (by decide)]
  rcases h with hnot | hnul | ⟨hnul, hnospace⟩
  · exact absurd hnot hversion
  · have htext (tail : List UInt8) : text (head.bytes ++ tail) = text head.first := by
      rw [head.bytes_append, text_append hnul]
    by_cases hin : 32 ∈ text head.first
    · refine ⟨-4, fun tail n hn => ?_⟩
      obtain ⟨status, hstatus⟩ :=
        Option.isSome_iff_exists.mp ((hspace tail).mpr ((htext tail).symm ▸ hin))
      rw [head.parse_eq tail hn, if_neg hversion, hstatus]
      exact if_pos hnul
    · refine ⟨-3, fun tail n hn => ?_⟩
      have hnone : statusAt (head.bytes ++ tail) = none := by
        rw [← Option.not_isSome_iff_eq_none, hspace, htext]
        exact hin
      rw [head.parse_eq tail hn, if_neg hversion, hnone]
  · refine ⟨-3, fun tail n hn => ?_⟩
    have hnone : statusAt (head.bytes ++ tail) = none := by
      rw [← Option.not_isSome_iff_eq_none, hspace, text_append hnul]
      exact hnospace
    rw [head.parse_eq tail hn, if_neg hversion, hnone]

/-- A section that is not rejected is parsed with some continuation, and so in the
same way with all of them if they make no difference. -/
theorem Head.not_rejected {head : Head} (h : ¬head.Rejected)
    {result : Except Int (Nat × HttpResponse)}
    (hsame : ∀ tail n, head.bytes.length ≤ n →
      parseResponseHeaders (head.bytes ++ tail) n = result) :
    ∃ status tail, result = .ok (head.bytes.length,
      parseHeaderLines tail (sectionBytes head.lines ++ tail)
        {HttpResponse.zero with status := status}) := by
  simp only [Head.Rejected, not_or, Bool.not_eq_false] at h
  obtain ⟨hversion, hnul, hspace⟩ := h
  have hparse (tail : List UInt8) := (hsame tail _ (Nat.le_refl _)).symm.trans
    (head.parse_eq tail (Nat.le_refl _))
  simp only [hversion, Bool.true_eq_false, if_false, if_neg hnul] at hparse
  have hsome (tail : List UInt8) (hin : 32 ∈ text (head.bytes ++ tail)) :
      ∃ status, statusAt (head.bytes ++ tail) = some status := by
    apply Option.isSome_iff_exists.mp
    rw [statusAt, Option.isSome_map, strchr_isSome_iff (by decide)]
    exact hin
  by_cases hin : 32 ∈ text head.bytes
  · obtain ⟨status, hstatus⟩ := hsome [] (by rwa [List.append_nil])
    refine ⟨status, [], ?_⟩
    rw [hparse [], hstatus]
  · have hfree : 0 ∉ head.bytes := fun h0 => hspace ⟨h0, hin⟩
    have hafter : (32 : UInt8) ∈ text (head.bytes ++ [32]) := by
      rw [text_eq_self]
      · simp
      · simpa using hfree
    obtain ⟨status, hstatus⟩ := hsome [32] hafter
    refine ⟨status, [32], ?_⟩
    rw [hparse [32], hstatus]

/-- A header section is parsed line by line, whatever follows it, exactly if it is
rejected for what it is itself, or each of its numbers stands in its own line. -/
theorem head_by_lines_iff (head : Head) :
    head.ReadByLines ↔ head.Rejected ∨ head.InLines := by
  by_cases hrejected : head.Rejected
  · simp only [hrejected, true_or, iff_true]
    obtain ⟨rc, hrc⟩ := hrejected.same
    exact ⟨.error rc, hrc, fun len rsp hok => by cases hok⟩
  have hnul : 0 ∉ head.first := fun h0 => hrejected (.inr (.inl h0))
  have hversion : ¬(ascii "HTTP/1.").isPrefixOf head.first = false :=
    fun hnot => hrejected (.inl hnot)
  have hwithin_iff : (∀ line ∈ head.shown, ValueInLine line) ↔
      ∀ line ∈ head.shown, ∀ p out,
        parseHeaderLine (line ++ 13 :: 10 :: p) (13 :: 10 :: p) out = lineAlone out line := by
    refine forall₂_congr fun line hline => parseHeaderLine_within_iff ?_
    simpa using List.mem_takeWhile_imp hline
  rw [or_iff_right hrejected]
  constructor
  · rintro ⟨result, hsame, hlines⟩
    obtain ⟨status, tail, hresult⟩ := Head.not_rejected hrejected hsame
    obtain ⟨-, hstatus, hfields, hwithin⟩ := hlines _ _ hresult
    refine ⟨(statusAt_within_iff hnul).mpr ⟨_, hstatus⟩, hwithin_iff.mpr hwithin, ?_⟩
    rw [parseHeaderLines_eq head.linesFree tail _ hwithin, foldl_lineAlone_status] at hfields
    have hzero (lines : List (List UInt8)) :
        {lines.foldl lineAlone .zero with status := 0} = lines.foldl lineAlone .zero :=
      (foldl_lineAlone_status lines .zero 0).symm
    have hcleared := congrArg (fun rsp : HttpResponse => {rsp with status := 0}) hfields
    exact ((hzero _).symm.trans hcleared.symm).trans (hzero _)
  · rintro ⟨hstatus, hvalues, hhidden⟩
    obtain ⟨status, hread⟩ := (statusAt_within_iff hnul).mp hstatus
    have hwithin := hwithin_iff.mp hvalues
    refine ⟨.ok (head.bytes.length, {head.lines.foldl lineAlone .zero with status := status}),
      fun tail n hn => ?_, ?_⟩
    · rw [head.parse_eq tail hn, if_neg hversion, head.bytes_append, hread]
      dsimp only
      rw [if_neg hnul, parseHeaderLines_eq head.linesFree tail _ hwithin,
        foldl_lineAlone_status, hhidden]
      rfl
    · rintro len rsp hok
      cases hok
      exact ⟨rfl, hread, rfl, hwithin⟩

/-- A `Content-Length` without a value. -/
def emptyLength : Head where
  first := ascii "HTTP/1.1 200 OK"
  lines := [ascii "Content-Length:"]
  firstFree := by decide
  linesFree := List.forall_mem_singleton.mpr ⟨by decide, by decide⟩

/-- The length is taken from the body. -/
theorem emptyLength_reads_on : ¬emptyLength.ReadByLines := by
  rintro ⟨result, hsame, -⟩
  have hnone := hsame [] _ (Nat.le_refl _)
  have hseven := hsame [55] _ (Nat.le_refl _)
  exact absurd (hnone.trans hseven.symm) (by decide +kernel)

end Rw612.Http
