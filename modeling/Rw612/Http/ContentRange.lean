import Rw612.Http.Chunked
import Rw612.Http.Head

/-!
The length of a partial response. `Content-Range` gives its first and last byte
as decimal numbers, which `strtoul` saturates, and `http_request_once` computes
the length from them in 32 bits.
-/

namespace Rw612.Http

open Lib Lib.CString Ota

/-- A `Content-Range` line with the range `start-stop`. -/
structure RangeLine (line start stop : List UInt8) : Prop where
  noNul : 0 ∉ line
  name : hdrMatch line (ascii "content-range") = true
  value : ∃ v rest, hdrValue line = some v ∧ skipUnit v = start ++ 45 :: (stop ++ rest) ∧
    rest.takeWhile (isDigit 10) = []
  start : start ≠ [] ∧ ∀ d ∈ start, isDigit 10 d = true
  stop : stop ≠ [] ∧ ∀ d ∈ stop, isDigit 10 d = true

/-- The last `Content-Range` line of the section gives the range. -/
structure Head.Range (head : Head) (start stop : List UInt8) : Prop where
  line : ∃ front line back, head.lines = front ++ line :: back ∧ RangeLine line start stop ∧
    (∀ l ∈ front, 0 ∉ l) ∧ ∀ l ∈ back, hdrMatch l (ascii "content-range") = false

/-- The range in a response, with the numbers as `strtoul` reads them. -/
def HttpResponse.HasRange (rsp : HttpResponse) (s e : Nat) : Prop :=
  rsp.hasContentRange = true ∧ rsp.rangeStart.toNat = min s 0xFFFFFFFF ∧
    rsp.rangeEnd.toNat = min e 0xFFFFFFFF

theorem rangeFields_digits {start stop rest : List UInt8}
    (hstart : start ≠ [] ∧ ∀ d ∈ start, isDigit 10 d = true)
    (hstop : stop ≠ [] ∧ ∀ d ∈ stop, isDigit 10 d = true)
    (hrest : rest.takeWhile (isDigit 10) = []) (out : HttpResponse) :
    (rangeFields (start ++ 45 :: (stop ++ rest)) out).HasRange (digitsValue 10 start)
      (digitsValue 10 stop) := by
  have hdash : (45 :: (stop ++ rest)).takeWhile (isDigit 10) = [] := rfl
  obtain ⟨hs, hcur⟩ := strtoul_of_number (number_decimal hstart.1 hstart.2 hdash)
  obtain ⟨he, -⟩ := strtoul_of_number (number_decimal hstop.1 hstop.2 hrest)
  simp only [rangeFields, hcur]
  have hderef : deref (45 :: (stop ++ rest)) = 45 := rfl
  rw [if_pos hderef]
  exact ⟨rfl, hs, he⟩

/-- The line sets the range, whatever follows it. -/
theorem RangeLine.parse {line start stop : List UInt8} (h : RangeLine line start stop)
    (q : List UInt8) (out : HttpResponse) :
    (parseHeaderLine (line ++ 13 :: q) (13 :: q) out).HasRange (digitsValue 10 start)
      (digitsValue 10 stop) := by
  obtain ⟨v, rest, hv, hunit, hrest⟩ := h.value
  obtain ⟨v', hv', hread⟩ := hdrValue_of_match h.noNul h.name
  obtain rfl : v = v' := Option.some.inj (hv.symm.trans hv')
  have hname : hdrMatch (line ++ 13 :: q) (ascii "content-range") = true := by
    rw [hdrMatch_line (by decide)]
    exact h.name
  have hrest' : (rest ++ 13 :: q).takeWhile (isDigit 10) = [] := by
    rw [takeWhile_digit cr_notDigit, hrest]
  rw [parseHeaderLine, hdrMatch_range_length hname, if_neg Bool.false_ne_true, if_pos hname, hread]
  dsimp only
  rw [parseContentRange_eq, skipUnit_append_cr, hunit, List.append_assoc, List.cons_append,
    List.append_assoc]
  exact rangeFields_digits h.start h.stop hrest' out

/-- Another line leaves the range alone. -/
theorem parseHeaderLine_keeps {line : List UInt8} {s e : Nat} {out : HttpResponse}
    (h : hdrMatch line (ascii "content-range") = false) (nl : List UInt8)
    (hout : out.HasRange s e) : (parseHeaderLine line nl out).HasRange s e := by
  unfold parseHeaderLine
  split
  · split <;> exact hout
  · rw [h, if_neg Bool.false_ne_true]
    split
    · exact hout
    · split
      · split
        · exact hout
        · split <;> exact hout
      · exact hout

theorem parseHeaderLines_keeps {lines : List (List UInt8)}
    (hlines : ∀ line ∈ lines, line ≠ [] ∧ CrlfFree line)
    (hother : ∀ line ∈ lines, hdrMatch line (ascii "content-range") = false)
    (tail : List UInt8) {s e : Nat} {out : HttpResponse} (hout : out.HasRange s e) :
    (parseHeaderLines tail (sectionBytes lines ++ tail) out).HasRange s e := by
  induction lines generalizing out with
  | nil =>
      rw [parseHeaderLines_nil]
      exact hout
  | cons line lines ih =>
      obtain ⟨⟨-, hfree⟩, hrest⟩ := List.forall_mem_cons.mp hlines
      obtain ⟨hline, hothers⟩ := List.forall_mem_cons.mp hother
      rw [parseHeaderLines_cons hfree]
      dsimp only
      split
      · exact hout
      · apply ih hrest hothers
        apply parseHeaderLine_keeps _ _ hout
        rw [hdrMatch_line (by decide)]
        exact hline

/-- The loop reaches a line behind others without a NUL. -/
theorem parseHeaderLines_reaches {front lines : List (List UInt8)}
    (hlines : ∀ line ∈ front ++ lines, line ≠ [] ∧ CrlfFree line)
    (hfront : ∀ line ∈ front, 0 ∉ line) (tail : List UInt8) (out : HttpResponse) :
    ∃ out', parseHeaderLines tail (sectionBytes (front ++ lines) ++ tail) out =
      parseHeaderLines tail (sectionBytes lines ++ tail) out' := by
  induction front generalizing out with
  | nil => exact ⟨out, rfl⟩
  | cons line front ih =>
      obtain ⟨⟨-, hfree⟩, hrest⟩ := List.forall_mem_cons.mp hlines
      obtain ⟨hnul, hnuls⟩ := List.forall_mem_cons.mp hfront
      rw [List.cons_append, parseHeaderLines_cons hfree]
      dsimp only
      rw [if_neg hnul]
      exact ih hrest hnuls _

/-- Every response parsed from the section has the range. -/
theorem Head.Range.parse {head : Head} {start stop : List UInt8} (h : head.Range start stop)
    {tail : List UInt8} {n len : Nat} {rsp : HttpResponse} (hn : head.bytes.length ≤ n)
    (hparse : parseResponseHeaders (head.bytes ++ tail) n = .ok (len, rsp)) :
    rsp.HasRange (digitsValue 10 start) (digitsValue 10 stop) := by
  obtain ⟨front, line, back, hlines, hline, hfront, hback⟩ := h.line
  have hgood := head.linesFree
  rw [hlines] at hgood
  obtain ⟨⟨-, hfree⟩, hrest⟩ :=
    List.forall_mem_cons.mp fun l hl => hgood l (List.mem_append_right front hl)
  rw [head.parse_eq tail hn] at hparse
  split at hparse
  · cases hparse
  · split at hparse
    · cases hparse
    · split at hparse
      · cases hparse
      · rw [Except.ok.injEq, Prod.mk.injEq] at hparse
        obtain ⟨-, rfl⟩ := hparse
        obtain ⟨out, hreach⟩ := parseHeaderLines_reaches hgood hfront tail _
        rw [hlines, hreach, parseHeaderLines_cons hfree]
        dsimp only
        rw [if_neg hline.noNul]
        exact parseHeaderLines_keeps hrest hback tail (hline.parse _ _)

/-! The length of the body. -/

/-- The range is one of 32 bits, or of one byte, or its length comes out as 0. -/
def RangeExact (s e : Nat) : Prop :=
  (s ≤ e ∧ e ≤ 0xFFFFFFFF) ∨ s = e ∨ min s 0xFFFFFFFF = min e 0xFFFFFFFF + 1 ∨
    (s = 0 ∧ 0xFFFFFFFF ≤ e)

theorem rangeTotal_toNat (rangeStart rangeEnd : UInt32) :
    (rangeEnd + 1 - rangeStart).toNat = (0x100000000 - rangeStart.toNat +
      (rangeEnd.toNat + 1) % 0x100000000) % 0x100000000 := by
  rw [UInt32.toNat_sub, UInt32.toNat_add]
  rfl

theorem range_total_iff {s e : Nat} {rangeStart rangeEnd : UInt32}
    (hs : rangeStart.toNat = min s 0xFFFFFFFF) (he : rangeEnd.toNat = min e 0xFFFFFFFF) :
    rangeEnd + 1 - rangeStart = 0 ∨
        (s ≤ e ∧ (rangeEnd + 1 - rangeStart).toNat = e - s + 1) ↔ RangeExact s e := by
  rw [← UInt32.toNat_inj, rangeTotal_toNat, hs, he, UInt32.toNat_zero, RangeExact]
  omega

/-- A buffer with room takes a fixed body that is there, while nobody stops the task. -/
theorem streamFixedBodyFrom_reads {b : Board} {bodyTotal : Nat} {w : World} {bs : ByteStream}
    {sink : SinkCtx} {seen : Nat} (hkeeps : w.KeepsRunning) (hmode : sink.mode = .buffer)
    (hthere : bodyTotal - seen ≤ bs.bytes.length)
    (hroom : sink.buf.length + (bodyTotal - seen) ≤ sink.bufCap) :
    (streamFixedBodyFrom b bodyTotal w bs sink seen).rc = 0 := by
  fun_induction streamFixedBodyFrom b bodyTotal w bs sink seen with
  | case1 w bs sink seen hseen w₁ hstop => simp [(hkeeps.tick b).1, w₁] at hstop
  | case2 w bs sink seen hseen w₁ _ hnone =>
      rw [bsReadSome_none (by simp [APP_OTA_HTTP_RX_CHUNK]; omega) hnone,
        List.length_nil] at hthere
      omega
  | case3 w bs sink seen hseen w₁ _ got bs' hread wrc w' sink' hwrite hrefused =>
      obtain ⟨-, -, hlength⟩ := bsReadSome_some hread (by simp [APP_OTA_HTTP_RX_CHUNK]; omega)
      have hfits : got.length ≤ bodyTotal - seen := Nat.le_trans hlength (Nat.min_le_left _ _)
      rw [sinkWrite_buffer hmode (by omega)] at hwrite
      cases hwrite
      exact absurd rfl hrefused
  | case4 w bs sink seen hseen w₁ _ got bs' hread wrc w' sink' hwrite hwrc ih =>
      obtain ⟨hbytes, -, hlength⟩ := bsReadSome_some hread
        (by simp [APP_OTA_HTTP_RX_CHUNK]; omega)
      have hfits : got.length ≤ bodyTotal - seen := Nat.le_trans hlength (Nat.min_le_left _ _)
      rw [sinkWrite_buffer hmode (by omega)] at hwrite
      cases hwrite
      rw [hbytes, List.length_append] at hthere
      apply ih (hkeeps.tick b) hmode (by omega)
      simp only [List.length_append]
      omega
  | case5 => rfl

theorem offer_buffer {b : Board} {w : World} {sink : SinkCtx} {slices : List (List UInt8)}
    (hmode : sink.mode = .buffer) (hok : (offer b w sink slices).1 = 0) :
    (offer b w sink slices).2.2.buf = sink.buf ++ slices.flatten := by
  induction slices generalizing w sink with
  | nil => simp [offer]
  | cons data slices ih =>
      obtain ⟨rc, w', sink', hwrite⟩ :
          ∃ rc w' sink', sinkWrite b (w.tick b).1 sink data = (rc, w', sink') := ⟨_, _, _, rfl⟩
      have hrc : rc = 0 := by
        by_contra hrefused
        rw [offer_cons_refused hrefused hwrite] at hok
        exact hrefused hok
      subst hrc
      obtain ⟨-, rfl, -⟩ := sinkWrite_buffer_ok hmode hwrite
      rw [offer_cons_ok hwrite] at hok ⊢
      have hmode' : ({sink with buf := sink.buf ++ data} : SinkCtx).mode = .buffer := hmode
      rw [ih hmode' hok, List.flatten_cons, List.append_assoc]

/-- The response is rejected as it stands, or a fixed body of exactly the bytes
from `s` to `e` is streamed. -/
def StreamsRange (b : Board) (w : World) (rsp : HttpResponse) (bs : ByteStream) (sink : SinkCtx)
    (s e : Nat) : Prop :=
  let answer := streamBody b w rsp bs sink
  answer = (-13, w, sink) ∨
    (s ≤ e ∧ ∃ total slices r, total.toNat = e - s + 1 ∧
      FixedBody b w bs sink total slices r ∧
      answer.1 = (if r.rc ≠ 0 then -15 else 0) ∧ answer.2.2 = r.out)

section

variable {rsp : HttpResponse} {s e : Nat}

theorem bodyTotalOf_range (hstatus : rsp.status = 206) (hrange : rsp.HasRange s e) :
    bodyTotalOf rsp = some (rsp.rangeEnd + 1 - rsp.rangeStart) := by
  rw [bodyTotalOf, if_pos ⟨hstatus, hrange.1⟩]

theorem streamRecorded_fixed (b : Board) (w : World) (bs : ByteStream) (sink : SinkCtx)
    (bodyTotal : UInt32) :
    (streamRecorded b w bs sink bodyTotal).rc = (streamFixedBody b w bs sink bodyTotal).rc ∧
      (streamRecorded b w bs sink bodyTotal).out =
        (streamFixedBody b w bs sink bodyTotal).out := by
  unfold streamRecorded
  cases sink.mode <;> exact ⟨rfl, rfl⟩

/-- The answer to a partial response that is not chunked. -/
theorem streamBody_range (hstatus : rsp.status = 206) (hplain : rsp.isChunked = false)
    (hrange : rsp.HasRange s e) (b : Board) (w : World) (bs : ByteStream) (sink : SinkCtx) :
    let total := rsp.rangeEnd + 1 - rsp.rangeStart
    let answer := streamBody b w rsp bs sink
    (total = 0 → answer = (-13, w, sink)) ∧
      (total ≠ 0 →
        answer.1 = (if (streamFixedBody b w bs sink total).rc ≠ 0 then -15 else 0) ∧
          answer.2.2 = (streamFixedBody b w bs sink total).out) := by
  obtain ⟨hrc, hout⟩ :=
    streamRecorded_fixed b w bs sink (rsp.rangeEnd + 1 - rsp.rangeStart)
  simp only [streamBody, hplain, Bool.false_eq_true, if_false, bodyTotalOf_range hstatus hrange]
  constructor
  · intro hzero
    rw [if_pos hzero]
  · intro hpos
    rw [if_neg hpos]
    dsimp only
    rw [hrc]
    exact ⟨rfl, hout⟩

/-- A length that is not 0 is streamed, and a sink can tell which it was. -/
theorem StreamsRange.total (hstatus : rsp.status = 206) (hplain : rsp.isChunked = false)
    (hrange : rsp.HasRange s e) (hpos : rsp.rangeEnd + 1 - rsp.rangeStart ≠ 0)
    (h : ∀ b w bs sink, StreamsRange b w rsp bs sink s e) :
    s ≤ e ∧ (rsp.rangeEnd + 1 - rsp.rangeStart).toNat = e - s + 1 := by
  obtain ⟨total, htotal⟩ : ∃ total, total = rsp.rangeEnd + 1 - rsp.rangeStart := ⟨_, rfl⟩
  let b : Board := ⟨⟨8⟩, fun _ => true⟩
  let w := World.start (Sys.powerUp .blank) [] []
  let bs : ByteStream := ⟨List.replicate total.toNat 0, []⟩
  let sink : SinkCtx := ⟨.buffer, 0, [], total.toNat⟩
  have hlength : bs.bytes.length = total.toNat := by
    simp [bs, ByteStream.bytes, arriving]
  have hkeeps : w.KeepsRunning := ⟨rfl, by simp [w, World.start]⟩
  have hdone : (streamFixedBody b w bs sink total).rc = 0 :=
    streamFixedBodyFrom_reads hkeeps rfl (by rw [hlength, Nat.sub_zero]) (by simp [sink])
  obtain ⟨-, hanswer⟩ := streamBody_range hstatus hplain hrange b w bs sink
  rw [← htotal] at hanswer hpos ⊢
  obtain ⟨hrc, hout⟩ := hanswer hpos
  rw [hdone, if_neg (by simp)] at hrc
  have hsize {t : UInt32} {slices : List (List UInt8)} {r : Read SinkCtx}
      (hfixed : FixedBody b w bs sink t slices r) (hzero : r.rc = 0) :
      r.out.buf.length = t.toNat := by
    obtain ⟨hlen, hok⟩ := hfixed.success.mp hzero
    rw [hfixed.offered.out, offer_buffer rfl hok, List.nil_append, hlen]
  have hpositive : 0 < total := by
    rw [UInt32.lt_iff_toNat_lt]
    have hne : total.toNat ≠ 0 := fun hzero => hpos (UInt32.toNat_inj.mp hzero)
    exact Nat.pos_of_ne_zero hne
  obtain ⟨slices, hfixed⟩ := fixed_body_delivered b w bs sink total hpositive
  rcases h b w bs sink with hrejected | ⟨hle, total', slices', r, htotal', hfixed', hrc', hout'⟩
  · rw [hrejected] at hrc
    cases hrc
  · refine ⟨hle, ?_⟩
    have hzero : r.rc = 0 := by
      by_contra hne
      rw [hrc, if_pos hne] at hrc'
      cases hrc'
    rw [← htotal', ← hsize hfixed' hzero, ← hsize hfixed hdone, ← hout, hout']

end

/-- A partial response that is not chunked is rejected or streamed as its range
says, in every run, exactly for the ranges of `RangeExact`. -/
theorem content_range_exact_iff {head : Head} {start stop : List UInt8}
    (hrange : head.Range start stop) {tail : List UInt8} {n len : Nat} {rsp : HttpResponse}
    (hn : head.bytes.length ≤ n)
    (hparse : parseResponseHeaders (head.bytes ++ tail) n = .ok (len, rsp))
    (hstatus : rsp.status = 206) (hplain : rsp.isChunked = false) :
    (∀ b w bs sink,
        StreamsRange b w rsp bs sink (digitsValue 10 start) (digitsValue 10 stop)) ↔
      RangeExact (digitsValue 10 start) (digitsValue 10 stop) := by
  have hparsed := hrange.parse hn hparse
  rw [← range_total_iff hparsed.2.1 hparsed.2.2]
  by_cases hzero : rsp.rangeEnd + 1 - rsp.rangeStart = 0
  · simp only [hzero, true_or, iff_true]
    intro b w bs sink
    exact .inl ((streamBody_range hstatus hplain hparsed b w bs sink).1 hzero)
  · rw [or_iff_right hzero]
    constructor
    · exact StreamsRange.total hstatus hplain hparsed hzero
    · rintro ⟨hle, htotal⟩ b w bs sink
      obtain ⟨hrc, hout⟩ := (streamBody_range hstatus hplain hparsed b w bs sink).2 hzero
      have hpositive : 0 < rsp.rangeEnd + 1 - rsp.rangeStart := by
        rw [UInt32.lt_iff_toNat_lt, htotal, UInt32.toNat_zero]
        omega
      obtain ⟨slices, hfixed⟩ := fixed_body_delivered b w bs sink _ hpositive
      exact .inr ⟨hle, _, slices, _, htotal, hfixed, hrc, hout⟩

/-- A partial response with one header line. -/
def partialHead (line : List UInt8) (hline : line ≠ [] ∧ CrlfFree line) : Head where
  first := ascii "HTTP/1.1 206 Partial Content"
  lines := [line]
  firstFree := by decide
  linesFree := List.forall_mem_singleton.mpr hline

def partialResponse (start stop : UInt32) : HttpResponse :=
  {HttpResponse.zero with
    status := 206
    rangeStart := start
    rangeEnd := stop
    rangeTotal := 10
    hasContentRange := true}

def forwardHead : Head :=
  partialHead (ascii "Content-Range: bytes 2-5/10") ⟨by decide, by decide⟩

theorem content_range_exact_iff_forward :
    (∀ b w bs sink, StreamsRange b w (partialResponse 2 5) bs sink (digitsValue 10 (ascii "2"))
        (digitsValue 10 (ascii "5"))) ↔
      RangeExact (digitsValue 10 (ascii "2")) (digitsValue 10 (ascii "5")) := by
  have hline : RangeLine (ascii "Content-Range: bytes 2-5/10") (ascii "2") (ascii "5") := by
    refine ⟨by decide, by decide, ⟨ascii "bytes 2-5/10", ascii "/10", by decide, by decide, rfl⟩,
      ⟨by decide, List.all_eq_true.mp (by decide)⟩, ⟨by decide, List.all_eq_true.mp (by decide)⟩⟩
  have hrange : forwardHead.Range (ascii "2") (ascii "5") :=
    ⟨[], _, [], rfl, hline, by simp, by simp⟩
  have hparse : parseResponseHeaders (forwardHead.bytes ++ []) 61 =
      .ok (61, partialResponse 2 5) := by decide +kernel
  exact content_range_exact_iff hrange (by decide) hparse rfl rfl

def reversedHead : Head :=
  partialHead (ascii "Content-Range: bytes 5-1/10") ⟨by decide, by decide⟩

/-- From 5 to 1: 2^32 - 3 bytes are expected. -/
theorem reversed_range_wraps :
    ¬∀ (head : Head) (start stop tail : List UInt8) (n len : Nat) (rsp : HttpResponse),
        head.Range start stop → head.bytes.length ≤ n →
        parseResponseHeaders (head.bytes ++ tail) n = .ok (len, rsp) →
        rsp.status = 206 → rsp.isChunked = false →
        ∀ b w bs sink,
          StreamsRange b w rsp bs sink (digitsValue 10 start) (digitsValue 10 stop) := by
  intro hall
  have hline : RangeLine (ascii "Content-Range: bytes 5-1/10") (ascii "5") (ascii "1") := by
    refine ⟨by decide, by decide, ⟨ascii "bytes 5-1/10", ascii "/10", by decide, by decide, rfl⟩,
      ⟨by decide, List.all_eq_true.mp (by decide)⟩, ⟨by decide, List.all_eq_true.mp (by decide)⟩⟩
  have hrange : reversedHead.Range (ascii "5") (ascii "1") :=
    ⟨[], _, [], rfl, hline, by simp, by simp⟩
  have hparse : parseResponseHeaders (reversedHead.bytes ++ []) 61 =
      .ok (61, partialResponse 5 1) := by decide +kernel
  have hparsed : (partialResponse 5 1).HasRange 5 1 := ⟨rfl, rfl, rfl⟩
  have htotal : (partialResponse 5 1).rangeEnd + 1 - (partialResponse 5 1).rangeStart ≠ 0 := by
    decide
  obtain ⟨hrc, -⟩ := (streamBody_range rfl rfl hparsed ⟨⟨8⟩, fun _ => true⟩
    (World.start (Sys.powerUp .blank) [] []) ⟨[], []⟩ ⟨.buffer, 0, [], 512⟩).2 htotal
  rcases hall _ _ _ _ _ _ _ hrange (by decide) hparse rfl rfl ⟨⟨8⟩, fun _ => true⟩
    (World.start (Sys.powerUp .blank) [] []) ⟨[], []⟩ ⟨.buffer, 0, [], 512⟩ with
    hrejected | ⟨hle, -⟩
  · rw [hrejected] at hrc
    split at hrc <;> cases hrc
  · exact absurd hle (by decide)

end Rw612.Http
