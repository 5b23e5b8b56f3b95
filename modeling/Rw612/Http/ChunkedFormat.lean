import Rw612.Lib.CString
import Rw612.Lib.Lines

/-!
The chunked format on plain bytes. `Body` reads a stream chunk by chunk for any
way to understand a size line and to recognise the end of the trailer; `lenient`
is what `strtoul` and a buffer of 40 characters make of the lines, `strict` is
the grammar. An encoder writes lines that both understand alike.
-/

namespace Rw612.Http

open Lib Lib.CString

/-- The size that a line announces, and the line that ends the trailer. -/
structure Framing where
  size : List UInt8 → Option Nat
  ends : List UInt8 → Bool

/-- `Trailer F p term rest`: the lines of `p` up to the ending one, `term`. -/
inductive Trailer (F : Framing) : List UInt8 → List UInt8 → List UInt8 → Prop where
  | ends {p line rest : List UInt8} (hline : splitLine p = some (line, rest))
      (hends : F.ends line = true) : Trailer F p line rest
  | skip {p line q term rest : List UInt8} (hline : splitLine p = some (line, q))
      (hends : F.ends line = false) (hrest : Trailer F q term rest) : Trailer F p term rest

/-- `Body F p lines term data rest`: the stream `p` begins with a body that has
these size lines, this end of the trailer and this data, and goes on with `rest`. -/
inductive Body (F : Framing) :
    List UInt8 → List (List UInt8) → List UInt8 → List UInt8 → List UInt8 → Prop where
  | last {p line q term rest : List UInt8} (hline : splitLine p = some (line, q))
      (hsize : F.size line = some 0) (htrailer : Trailer F q term rest) :
      Body F p [line] term [] rest
  | chunk {p line data q term more rest : List UInt8} {lines : List (List UInt8)}
      (hline : splitLine p = some (line, data ++ 13 :: 10 :: q))
      (hsize : F.size line = some data.length) (hdata : data ≠ [])
      (hrest : Body F q lines term more rest) :
      Body F p (line :: lines) term (data ++ more) rest

/-- The lines of `stream_chunked_body` hold at most 38 characters. -/
def LINE_MAX : Nat := 38

/-- What `stream_chunked_body` takes for a size line and for an empty line. -/
def lenient : Framing where
  size line :=
    if line.length ≤ LINE_MAX then
      (number 16 line).map fun _ => (strtoul 16 line).1.toNat
    else none
  ends line := decide (line.length ≤ LINE_MAX) && deref line == 0

/-- One or more hex digits of a value below 2^32, then nothing or an extension. -/
structure StrictLine (line digits ext : List UInt8) : Prop where
  split : line = digits ++ ext
  nonempty : digits ≠ []
  hex : ∀ d ∈ digits, isDigit 16 d = true
  ext : ext = [] ∨ ext.head? = some 59

def strict : Framing where
  size line :=
    let digits := line.takeWhile (isDigit 16)
    let ext := line.dropWhile (isDigit 16)
    if digits ≠ [] ∧ (ext = [] ∨ ext.head? = some 59) ∧ digitsValue 16 digits < 0x100000000 then
      some (digitsValue 16 digits)
    else none
  ends line := line.isEmpty

theorem isDigit_semicolon : isDigit 16 59 = false := by decide

theorem StrictLine.ext_notDigit {line digits ext : List UInt8} (h : StrictLine line digits ext) :
    ext.takeWhile (isDigit 16) = [] := by
  rcases h.ext with rfl | hhead
  · rfl
  · cases ext with
    | nil => rfl
    | cons c ext =>
        obtain rfl : c = 59 := Option.some.inj hhead
        simp [isDigit_semicolon]

theorem StrictLine.takeWhile {line digits ext : List UInt8} (h : StrictLine line digits ext) :
    line.takeWhile (isDigit 16) = digits := by
  rw [h.split, List.takeWhile_append_of_pos h.hex, h.ext_notDigit, List.append_nil]

theorem StrictLine.dropWhile {line digits ext : List UInt8} (h : StrictLine line digits ext) :
    line.dropWhile (isDigit 16) = ext := by
  have hsplit := List.takeWhile_append_dropWhile (p := isDigit 16) (l := line)
  rw [h.takeWhile] at hsplit
  exact List.append_cancel_left (hsplit.trans h.split)

theorem strict_size_iff (line : List UInt8) (n : Nat) :
    strict.size line = some n ↔
      ∃ digits ext, StrictLine line digits ext ∧ digitsValue 16 digits = n ∧ n < 0x100000000 := by
  constructor
  · intro h
    simp only [strict] at h
    split at h
    case isTrue hgood =>
        obtain ⟨hne, hext, hlt⟩ := hgood
        obtain rfl := Option.some.inj h
        refine ⟨_, _, ⟨(List.takeWhile_append_dropWhile).symm, hne, ?_, hext⟩, rfl, hlt⟩
        exact fun d hd => List.mem_takeWhile_imp hd
    case isFalse => cases h
  · rintro ⟨digits, ext, hstrict, rfl, hlt⟩
    simp only [strict, hstrict.takeWhile, hstrict.dropWhile]
    rw [if_pos ⟨hstrict.nonempty, hstrict.ext, hlt⟩]

theorem hexDigit_plain {d : UInt8} (h : isDigit 16 d = true) : d ≠ 120 ∧ d ≠ 88 ∧ d ≠ 13 := by
  refine ⟨?_, ?_, ?_⟩ <;> (rintro rfl; exact absurd h (by decide))

/-- `strtoul` reads a strict line as it is meant. -/
theorem StrictLine.number {line digits ext : List UInt8} (h : StrictLine line digits ext) :
    number 16 line = some (false, digitsValue 16 digits, ext) := by
  have hplain : skipHexPrefix 16 (digits ++ ext) = digits ++ ext := by
    obtain ⟨d, ds, rfl⟩ := List.exists_cons_of_ne_nil h.nonempty
    apply if_neg
    rintro ⟨-, -, hx, -⟩
    rw [List.cons_append, List.drop_succ_cons, List.drop_zero] at hx
    cases ds with
    | nil =>
        rcases h.ext with hnil | hhead
        · simp [hnil, deref] at hx
        · rw [List.nil_append, deref, List.headD_eq_head?_getD, hhead] at hx
          simp at hx
    | cons d' ds =>
        obtain ⟨hlower, hupper, -⟩ := hexDigit_plain (h.hex d' (by simp))
        exact hx.elim hlower hupper
  rw [h.split]
  exact number_digits (by decide) h.nonempty h.hex h.ext_notDigit hplain

/-- A short strict line announces its value, up to the largest one. -/
theorem StrictLine.lenient_size {line digits ext : List UInt8} (h : StrictLine line digits ext)
    (hshort : line.length ≤ LINE_MAX) :
    lenient.size line = some (min (digitsValue 16 digits) 0xFFFFFFFF) := by
  simp only [lenient, if_pos hshort, h.number, Option.map_some]
  rw [(strtoul_of_number h.number).1]

/-- A strict line of a size below 2^32. -/
def StrictSize (line : List UInt8) : Prop :=
  ∃ digits ext, StrictLine line digits ext ∧ digitsValue 16 digits < 0x100000000

theorem lenient_size_short {line : List UInt8} {n : Nat} (h : lenient.size line = some n) :
    line.length ≤ LINE_MAX := by
  simp only [lenient] at h
  split at h
  case isTrue hshort => exact hshort
  case isFalse => cases h

/-- Where both understand a line, they agree on its size. -/
theorem strict_size_eq {line : List UInt8} {n m : Nat} (h : lenient.size line = some n)
    (hstrict : strict.size line = some m) : n = m := by
  obtain ⟨digits, ext, hline, rfl, hlt⟩ := (strict_size_iff line m).mp hstrict
  have hsize := hline.lenient_size (lenient_size_short h)
  rw [h, Option.some.injEq] at hsize
  omega

theorem StrictSize.size {line : List UInt8} {n : Nat} (h : StrictSize line)
    (hlenient : lenient.size line = some n) : strict.size line = some n := by
  obtain ⟨digits, ext, hline, hlt⟩ := h
  have hsize := (strict_size_iff line _).mpr ⟨digits, ext, hline, rfl, hlt⟩
  rw [hsize, strict_size_eq hlenient hsize]

theorem strict_ends_iff (line : List UInt8) : strict.ends line = true ↔ line = [] :=
  List.isEmpty_iff

/-! The parts of a stream are determined by the stream. -/

theorem Trailer.rest_length {F : Framing} {p term rest : List UInt8} (h : Trailer F p term rest) :
    rest.length < p.length := by
  induction h with
  | ends hline hends =>
      rw [splitLine_some hline, List.length_append, List.length_cons, List.length_cons]
      omega
  | skip hline hends hrest ih =>
      rw [splitLine_some hline, List.length_append, List.length_cons, List.length_cons]
      omega

theorem Trailer.unique {F : Framing} {p term term' rest rest' : List UInt8}
    (h : Trailer F p term rest) (h' : Trailer F p term' rest') : term = term' ∧ rest = rest' := by
  induction h with
  | ends hline hends =>
      cases h' with
      | ends hline' hends' =>
          cases hline.symm.trans hline'
          exact ⟨rfl, rfl⟩
      | skip hline' hends' hrest' =>
          cases hline.symm.trans hline'
          cases hends.symm.trans hends'
  | skip hline hends hrest ih =>
      cases h' with
      | ends hline' hends' =>
          cases hline.symm.trans hline'
          cases hends.symm.trans hends'
      | skip hline' hends' hrest' =>
          cases hline.symm.trans hline'
          exact ih hrest'

/-- Equal lengths cut a stream at the same place. -/
theorem chunk_cut {data data' q q' : List UInt8}
    (h : data ++ 13 :: 10 :: q = data' ++ 13 :: 10 :: q') (hlen : data.length = data'.length) :
    data = data' ∧ q = q' := by
  obtain ⟨hdata, hrest⟩ := List.append_inj h hlen
  simp only [List.cons.injEq, true_and] at hrest
  exact ⟨hdata, hrest⟩

theorem Body.unique {F : Framing} {p term term' data data' rest rest' : List UInt8}
    {lines lines' : List (List UInt8)} (h : Body F p lines term data rest)
    (h' : Body F p lines' term' data' rest') : lines = lines' ∧ term = term' ∧ data = data' ∧
      rest = rest' := by
  induction h generalizing lines' data' with
  | last hline hsize htrailer =>
      cases h' with
      | last hline' hsize' htrailer' =>
          cases hline.symm.trans hline'
          obtain ⟨hterm, hrest⟩ := htrailer.unique htrailer'
          exact ⟨rfl, hterm, rfl, hrest⟩
      | chunk hline' hsize' hdata' hrest' =>
          cases hline.symm.trans hline'
          rw [hsize, Option.some.injEq] at hsize'
          exact absurd (List.length_eq_zero_iff.mp hsize'.symm) hdata'
  | chunk hline hsize hdata hrest ih =>
      cases h' with
      | last hline' hsize' htrailer' =>
          cases hline.symm.trans hline'
          rw [hsize, Option.some.injEq] at hsize'
          exact absurd (List.length_eq_zero_iff.mp hsize') hdata
      | chunk hline' hsize' hdata' hrest' =>
          rw [hline, Option.some.injEq, Prod.mk.injEq] at hline'
          obtain ⟨rfl, hcut⟩ := hline'
          rw [hsize, Option.some.injEq] at hsize'
          obtain ⟨rfl, rfl⟩ := chunk_cut hcut hsize'
          obtain ⟨rfl, hterm, rfl, hrest⟩ := ih hrest'
          exact ⟨rfl, hterm, rfl, hrest⟩

theorem Trailer.strict {p rest : List UInt8} (h : Trailer lenient p [] rest) :
    Trailer strict p [] rest := by
  generalize hterm : ([] : List UInt8) = term at h
  induction h with
  | ends hline hends =>
      subst hterm
      exact .ends hline rfl
  | skip hline hends hrest ih =>
      refine .skip hline (Bool.eq_false_iff.mpr fun hempty => ?_) (ih hterm)
      rw [(strict_ends_iff _).mp hempty] at hends
      cases hends

/-- A body whose lines are strict is a strict body. -/
theorem Body.strict {p term data rest : List UInt8} {lines : List (List UInt8)}
    (h : Body lenient p lines term data rest) (hlines : ∀ line ∈ lines, StrictSize line)
    (hterm : term = []) : Body strict p lines [] data rest := by
  induction h with
  | last hline hsize htrailer =>
      subst hterm
      exact .last hline ((hlines _ List.mem_cons_self).size hsize) htrailer.strict
  | chunk hline hsize hdata hrest ih =>
      obtain ⟨hhead, htail⟩ := List.forall_mem_cons.mp hlines
      exact .chunk hline (hhead.size hsize) hdata (ih htail hterm)

theorem Trailer.term_nil {p term term' rest : List UInt8} (h : Trailer lenient p term rest)
    (hstrict : Trailer Http.strict p term' rest) : term = [] := by
  induction h with
  | ends hline hends =>
      cases hstrict with
      | ends hline' hends' =>
          cases hline.symm.trans hline'
          exact (strict_ends_iff _).mp hends'
      | skip hline' hends' hrest' =>
          cases hline.symm.trans hline'
          exact absurd hrest'.rest_length (Nat.lt_irrefl _)
  | skip hline hends hrest ih =>
      cases hstrict with
      | ends hline' hends' =>
          cases hline.symm.trans hline'
          rw [(strict_ends_iff _).mp hends'] at hends
          cases hends
      | skip hline' hends' hrest' =>
          cases hline.symm.trans hline'
          exact ih hrest'

/-- If the same bytes are a strict body, it is this one, line by line. -/
theorem Body.lines_strict {p term term' data data' rest : List UInt8}
    {lines lines' : List (List UInt8)} (h : Body lenient p lines term data rest)
    (hstrict : Body Http.strict p lines' term' data' rest) :
    (∀ line ∈ lines, StrictSize line) ∧ term = [] := by
  have isStrict {line : List UInt8} {m : Nat} (hsize : Http.strict.size line = some m) :
      StrictSize line := by
    obtain ⟨digits, ext, hline, rfl, hlt⟩ := (strict_size_iff line m).mp hsize
    exact ⟨digits, ext, hline, hlt⟩
  induction h generalizing lines' data' with
  | last hline hsize htrailer =>
      cases hstrict with
      | last hline' hsize' htrailer' =>
          cases hline.symm.trans hline'
          exact ⟨List.forall_mem_singleton.mpr (isStrict hsize'), htrailer.term_nil htrailer'⟩
      | chunk hline' hsize' hdata' hrest' =>
          cases hline.symm.trans hline'
          exact absurd (List.length_eq_zero_iff.mp (strict_size_eq hsize hsize').symm) hdata'
  | chunk hline hsize hdata hrest ih =>
      cases hstrict with
      | last hline' hsize' htrailer' =>
          cases hline.symm.trans hline'
          exact absurd (List.length_eq_zero_iff.mp (strict_size_eq hsize hsize')) hdata
      | chunk hline' hsize' hdata' hrest' =>
          rw [hline, Option.some.injEq, Prod.mk.injEq] at hline'
          obtain ⟨rfl, hcut⟩ := hline'
          obtain ⟨rfl, rfl⟩ := chunk_cut hcut (strict_size_eq hsize hsize')
          obtain ⟨hlines, hterm⟩ := ih hrest'
          exact ⟨List.forall_mem_cons.mpr ⟨isStrict hsize', hlines⟩, hterm⟩

/-! Encoders. -/

theorem crlfFree_append {front back : List UInt8} (hfront : 13 ∉ front) (hback : CrlfFree back) :
    CrlfFree (front ++ back) := by
  induction front with
  | nil => exact hback
  | cons c front ih =>
      rw [List.mem_cons, not_or] at hfront
      intro hin
      rw [List.cons_append, List.infix_cons_iff] at hin
      rcases hin with hprefix | hinfix
      · exact hfront.1 (List.cons_prefix_cons.mp hprefix).1
      · exact ih hfront.2 hinfix

/-- A size line that fits: hex digits in any case, with or without leading
zeros, and an extension or none. -/
structure SizeLine where
  digits : List UInt8
  ext : List UInt8
  nonempty : digits ≠ []
  hex : ∀ d ∈ digits, isDigit 16 d = true
  extension : ext = [] ∨ ext.head? = some 59
  free : CrlfFree ext
  short : (digits ++ ext).length ≤ LINE_MAX

def SizeLine.line (l : SizeLine) : List UInt8 := l.digits ++ l.ext

def SizeLine.value (l : SizeLine) : Nat := digitsValue 16 l.digits

/-- A chunk with its data, and a size line that says how much it is. -/
structure EncodedChunk where
  size : SizeLine
  data : List UInt8
  nonempty : data ≠ []
  exact : size.value = data.length

/-- A line of the trailer; it may be of any length. -/
structure TrailerLine where
  line : List UInt8
  nonempty : line ≠ []
  noNul : deref line ≠ 0
  free : CrlfFree line

/-- A chunked body. -/
structure EncodedBody where
  chunks : List EncodedChunk
  last : SizeLine
  zero : last.value = 0
  trailer : List TrailerLine

def EncodedChunk.bytes (c : EncodedChunk) : List UInt8 :=
  c.size.line ++ [13, 10] ++ c.data ++ [13, 10]

def trailerBytes (lines : List TrailerLine) : List UInt8 :=
  lines.flatMap (fun l => l.line ++ [13, 10]) ++ [13, 10]

def EncodedBody.bytes (e : EncodedBody) : List UInt8 :=
  e.chunks.flatMap EncodedChunk.bytes ++ (e.last.line ++ [13, 10] ++ trailerBytes e.trailer)

def EncodedBody.data (e : EncodedBody) : List UInt8 := e.chunks.flatMap EncodedChunk.data

theorem SizeLine.strictLine (l : SizeLine) : StrictLine l.line l.digits l.ext :=
  ⟨rfl, l.nonempty, l.hex, l.extension⟩

theorem SizeLine.crlfFree (l : SizeLine) : CrlfFree l.line := by
  apply crlfFree_append _ l.free
  intro hcr
  exact (hexDigit_plain (l.hex 13 hcr)).2.2 rfl

theorem SizeLine.lenient_size (l : SizeLine) :
    lenient.size l.line = some (min l.value 0xFFFFFFFF) :=
  l.strictLine.lenient_size l.short

theorem TrailerLine.notEnd (l : TrailerLine) : lenient.ends l.line = false := by
  simp [lenient, l.noNul]

theorem trailer_of_bytes (lines : List TrailerLine) (rest : List UInt8) :
    Trailer lenient (trailerBytes lines ++ rest) [] rest := by
  induction lines with
  | nil =>
      have hempty : CrlfFree [] := by decide
      exact .ends (splitLine_append rest hempty) rfl
  | cons l lines ih =>
      have hsplit : splitLine (trailerBytes (l :: lines) ++ rest) =
          some (l.line, trailerBytes lines ++ rest) := by
        rw [← splitLine_append _ l.free]
        simp [trailerBytes]
      exact .skip hsplit l.notEnd ih

theorem EncodedChunk.split (c : EncodedChunk) (rest : List UInt8) :
    splitLine (c.bytes ++ rest) = some (c.size.line, c.data ++ 13 :: 10 :: rest) := by
  rw [← splitLine_append _ c.size.crlfFree]
  simp [EncodedChunk.bytes]

/-- Sizes below 2^32 are read back: the body that was encoded is found. -/
theorem EncodedBody.decodes (e : EncodedBody) (rest : List UInt8)
    (hfits : e.data.length < 0xFFFFFFFF) :
    ∃ lines, Body lenient (e.bytes ++ rest) lines [] e.data rest := by
  obtain ⟨chunks, last, hzero, trailer⟩ := e
  simp only [EncodedBody.data, EncodedBody.bytes] at hfits ⊢
  induction chunks with
  | nil =>
      have hsplit : splitLine (last.line ++ [13, 10] ++ trailerBytes trailer ++ rest) =
          some (last.line, trailerBytes trailer ++ rest) := by
        rw [← splitLine_append _ last.crlfFree]
        simp
      refine ⟨[last.line], .last hsplit ?_ (trailer_of_bytes trailer rest)⟩
      rw [last.lenient_size, hzero]
      rfl
  | cons c chunks ih =>
      rw [List.flatMap_cons, List.length_append] at hfits
      obtain ⟨lines, hlines⟩ := ih (by omega)
      refine ⟨c.size.line :: lines, ?_⟩
      rw [List.flatMap_cons, List.flatMap_cons]
      refine .chunk (q := _) ?_ ?_ c.nonempty hlines
      · rw [← c.split]
        simp only [List.append_assoc]
      · rw [c.size.lenient_size, c.exact, Nat.min_eq_left (by omega)]

/-- Whatever is read from an encoded body that is too long, is too long. -/
theorem EncodedBody.decodes_long (e : EncodedBody) (rest : List UInt8) (cap : Nat)
    (hcap : cap < 0xFFFFFFFF) (hlong : cap < e.data.length) {lines : List (List UInt8)}
    {term data rest' : List UInt8}
    (h : Body lenient (e.bytes ++ rest) lines term data rest') : cap < data.length := by
  obtain ⟨chunks, last, hzero, trailer⟩ := e
  simp only [EncodedBody.data, EncodedBody.bytes] at hlong h
  induction chunks generalizing lines data cap with
  | nil => simp at hlong
  | cons c chunks ih =>
      have hpos := List.length_pos_iff.mpr c.nonempty
      rw [List.flatMap_cons, List.length_append] at hlong
      rw [List.flatMap_cons, List.append_assoc, List.append_assoc] at h
      have hsize := c.size.lenient_size
      rw [c.exact] at hsize
      cases h with
      | last hline hsize' htrailer =>
          rw [c.split] at hline
          cases hline
          rw [hsize, Option.some.injEq] at hsize'
          omega
      | chunk hline hsize' hdata' hrest' =>
          rw [c.split, Option.some.injEq, Prod.mk.injEq] at hline
          obtain ⟨rfl, hcut⟩ := hline
          rw [hsize, Option.some.injEq] at hsize'
          rw [List.length_append]
          by_cases hbig : c.data.length < 0xFFFFFFFF
          · rw [Nat.min_eq_left (Nat.le_of_lt hbig)] at hsize'
            obtain ⟨rfl, rfl⟩ := chunk_cut hcut hsize'
            rcases Nat.lt_or_ge cap c.data.length with hover | hunder
            · omega
            · rw [← List.append_assoc] at hrest'
              have hmore := ih (cap - c.data.length) (by omega) (by omega) hrest'
              omega
          · omega

end Rw612.Http
