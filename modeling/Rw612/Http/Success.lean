import Rw612.Http.ContentRange
import Rw612.Http.Lifecycle

/-!
What a result of 0 of `http_request_once` says about the response. A fixed body
is read only for certain statuses, and the hook of an image tests the status too,
but a chunked body is read for every status. Each kind of head is sorted by whether
a server can send it, with some body behind it, and get a wrong 0.
-/

namespace Rw612.Http

open Lib Lib.CString Ota

/-! The two requests of `http_task`. -/

def Fetch.mode : Fetch → SinkMode
  | .image => .otaChunk
  | .header => .buffer

def Fetch.preCb (b : Board) : Fetch → Option PreStreamCb
  | .image => some (imagePreStream b)
  | .header => none

def Fetch.req (f : Fetch) (b : Board) (url : List UInt8) (rangeFrom : UInt32)
    (sink : SinkCtx) : HttpReq :=
  ⟨url, rangeFrom, sink, f.preCb b⟩

/-- A status that means success for this request. -/
def GoodStatus (rangeFrom : UInt32) (rsp : HttpResponse) : Prop :=
  rsp.status = 200 ∨ rsp.status = 201 ∨
    (rsp.status = 206 ∧ 0 < rangeFrom ∧ rsp.hasContentRange = true ∧
      rsp.rangeStart = rangeFrom)

/-- How long the body is, by a head without chunks. -/
def completeLength (rsp : HttpResponse) : Option Nat :=
  if rsp.status = 206 then
    if rsp.rangeStart.toNat ≤ rsp.rangeEnd.toNat then
      some (rsp.rangeEnd.toNat - rsp.rangeStart.toNat + 1)
    else none
  else some rsp.contentLength.toNat

/-- The sink was given the whole body of the response, from `sink` to `sink'`. -/
def CompleteBody (b : Board) (w : World) (rsp : HttpResponse) (bs : ByteStream)
    (sink sink' : SinkCtx) : Prop :=
  if rsp.isChunked then
    ∃ lines term slices rest w', Body lenient bs.bytes lines term slices.flatten rest ∧
      Fed b w sink slices w' sink'
  else
    ∃ total slices r, completeLength rsp = some total.toNat ∧
      FixedBody b w bs sink total slices r ∧ r.rc = 0 ∧ r.out = sink'

/-- A result of 0 comes with a successful response and its whole body. -/
def Succeeds (b : Board) (w : World) (r : HttpReq) : Prop :=
  (httpRequestOnce b w r).1 = 0 →
    ∃ w₁ rsp bs w₂ sink, requestHead b w r.url r.rangeFrom = (w₁, .ok (rsp, bs)) ∧
      r.preStream w₁ rsp = (0, w₂, sink) ∧ GoodStatus r.rangeFrom rsp ∧
      CompleteBody b (w₂.enterBody sink.mode) rsp bs sink (httpRequestOnce b w r).2.2.1

/-- What `http_request_once` looks at in a head, other than `Content-Length`. -/
structure HeadKind where
  status : Int
  chunked : Bool
  range : Option (UInt32 × UInt32)
  isInt : -0x80000000 ≤ status ∧ status ≤ 0x7FFFFFFF

def HttpResponse.IsOf (rsp : HttpResponse) (kind : HeadKind) : Prop :=
  rsp.status = kind.status ∧ rsp.isChunked = kind.chunked ∧
    match kind.range with
    | none => rsp.hasContentRange = false
    | some (s, e) => rsp.hasContentRange = true ∧ rsp.rangeStart = s ∧ rsp.rangeEnd = e

/-- A head with a status of success. -/
def HeadKind.Good (kind : HeadKind) (rangeFrom : UInt32) : Prop :=
  kind.status = 200 ∨ kind.status = 201 ∨
    (kind.status = 206 ∧ 0 < rangeFrom ∧ ∃ e, kind.range = some (rangeFrom, e))

theorem HttpResponse.IsOf.goodStatus_iff {rsp : HttpResponse} {kind : HeadKind}
    (h : rsp.IsOf kind) (rangeFrom : UInt32) :
    GoodStatus rangeFrom rsp ↔ kind.Good rangeFrom := by
  obtain ⟨hstatus, -, hrange⟩ := h
  rw [GoodStatus, HeadKind.Good, hstatus]
  cases hkind : kind.range with
  | none =>
      rw [hkind] at hrange
      simp [hrange]
  | some bounds =>
      rw [hkind] at hrange
      obtain ⟨hhas, hs, -⟩ := hrange
      simp [hhas, hs, Prod.ext_iff]

/-- The heads that cannot mislead: any, for an image; a redirect; a chunked body
with a status of success; a fixed body of status 206 that is rejected for its length
of 0, or is the one that was asked for. -/
def HeadKind.Safe (kind : HeadKind) (f : Fetch) (rangeFrom : UInt32) : Prop :=
  f = .image ∨ isRedirect kind.status = true ∨
    if kind.chunked then kind.Good rangeFrom
    else
      kind.status = 206 → ∀ s e, kind.range = some (s, e) →
        e + 1 - s = 0 ∨ (0 < rangeFrom ∧ s = rangeFrom ∧ s.toNat ≤ e.toNat)

/-! A safe head does not mislead. -/

/-- The parts of an answer of 0. -/
theorem httpRequestOnce_zero {b : Board} {w w₁ : World} {r : HttpReq} {rsp : HttpResponse}
    {bs : ByteStream} (hhead : requestHead b w r.url r.rangeFrom = (w₁, .ok (rsp, bs)))
    (hzero : (httpRequestOnce b w r).1 = 0) :
    isRedirect rsp.status = false ∧ ∃ w₂ sink, r.preStream w₁ rsp = (0, w₂, sink) ∧
      (streamBody b (w₂.enterBody sink.mode) rsp bs sink).1 = 0 ∧
      (httpRequestOnce b w r).2.2.1 =
        (streamBody b (w₂.enterBody sink.mode) rsp bs sink).2.2 := by
  simp only [httpRequestOnce, hhead, httpAnswer] at hzero ⊢
  cases hstatus : isRedirect rsp.status with
  | true =>
      rw [hstatus, if_pos rfl] at hzero
      cases hhas : rsp.hasLocation <;> simp [hhas] at hzero
  | false =>
      rw [hstatus, if_neg Bool.false_ne_true] at hzero
      rw [if_neg Bool.false_ne_true]
      rcases hpre : r.preStream w₁ rsp with ⟨prc, w₂, sink⟩
      rw [hpre] at hzero
      dsimp only at hzero ⊢
      by_cases hprc : prc = 0
      · subst hprc
        rw [if_neg (by simp)] at hzero ⊢
        exact ⟨rfl, w₂, sink, rfl, hzero, rfl⟩
      · rw [if_pos hprc] at hzero
        cases hzero

/-- The streamed body of an answer of 0. -/
theorem streamBody_zero {b : Board} {w : World} {rsp : HttpResponse} {bs : ByteStream}
    {sink : SinkCtx} (hzero : (streamBody b w rsp bs sink).1 = 0) :
    (rsp.isChunked = true ∧ (streamChunkedBody b w bs sink).rc = 0 ∧
      (streamBody b w rsp bs sink).2.2 = (streamChunkedBody b w bs sink).out) ∨
    (rsp.isChunked = false ∧ ∃ total slices, bodyTotalOf rsp = some total ∧ total ≠ 0 ∧
      FixedBody b w bs sink total slices (streamFixedBody b w bs sink total) ∧
      (streamFixedBody b w bs sink total).rc = 0 ∧
      (streamFixedBody b w bs sink total).out = (streamBody b w rsp bs sink).2.2) := by
  cases hchunked : rsp.isChunked with
  | true =>
      left
      simp only [streamBody, hchunked, if_true] at hzero ⊢
      refine ⟨trivial, ?_, trivial⟩
      by_contra hne
      rw [if_pos hne] at hzero
      cases hzero
  | false =>
      right
      obtain ⟨total, htotal, hne, hrc, -⟩ := streamBody_ok hchunked hzero
      obtain ⟨hrc', hout⟩ := streamRecorded_fixed b w bs sink total
      have hpos : 0 < total := by
        rw [UInt32.lt_iff_toNat_lt]
        have hnat : total.toNat ≠ 0 := fun h0 => hne (UInt32.toNat_inj.mp h0)
        exact Nat.pos_of_ne_zero hnat
      obtain ⟨slices, hfixed⟩ := fixed_body_delivered b w bs sink total hpos
      refine ⟨rfl, total, slices, htotal, hne, hfixed, hrc'.symm.trans hrc, ?_⟩
      rw [← hout]
      simp only [streamBody, hchunked, Bool.false_eq_true, if_false, htotal, if_neg hne]

/-- What the hook of an image lets pass. -/
theorem imagePreStream_zero {b : Board} {w w' : World} {rsp : HttpResponse} {rangeFrom : UInt32}
    {sink sink' : SinkCtx} (h : imagePreStream b w rsp rangeFrom sink = (0, w', sink')) :
    (rsp.status = 200 ∧ rsp.hasContentLength = true) ∨
      (rsp.status = 206 ∧ 0 < rangeFrom ∧ rsp.hasContentRange = true ∧
        rsp.rangeStart = rangeFrom ∧ w' = w ∧ sink' = {sink with otaOffset := rsp.rangeStart}) := by
  unfold imagePreStream at h
  split at h
  · cases h
  · split at h
    case isTrue hzero =>
        split at h
        · cases h
        case isFalse hgood =>
            left
            simpa using hgood
    case isFalse hpos =>
        split at h
        case isTrue h206 =>
            right
            cases h
            refine ⟨h206.1, ?_, h206.2.1, h206.2.2, rfl, rfl⟩
            rw [UInt32.lt_iff_toNat_lt]
            have hnat : rangeFrom.toNat ≠ 0 := fun h0 => hpos (UInt32.toNat_inj.mp h0)
            exact Nat.pos_of_ne_zero hnat
        case isFalse =>
            split at h
            case isTrue hfull => exact .inl hfull
            case isFalse => cases h

/-- A partial body of the length that is computed, if that is not 0 and fits behind
its start. -/
theorem completeLength_range {rsp : HttpResponse} {total : UInt32} (hstatus : rsp.status = 206)
    (htotal : total = rsp.rangeEnd + 1 - rsp.rangeStart) (hne : total ≠ 0)
    (hfits : rsp.rangeStart.toNat ≤ rsp.rangeEnd.toNat) :
    completeLength rsp = some total.toNat := by
  have hnat := rangeTotal_toNat rsp.rangeStart rsp.rangeEnd
  rw [← htotal] at hnat
  have hpos : total.toNat ≠ 0 := fun h0 => hne (UInt32.toNat_inj.mp h0)
  have hend := rsp.rangeEnd.toNat_lt
  rw [completeLength, if_pos hstatus, if_pos hfits, Option.some.injEq, hnat]
  rw [hnat] at hpos
  omega

theorem image_succeeds {b : Board} {w w₁ : World} {url : List UInt8} {rangeFrom : UInt32}
    {sink : SinkCtx} {rsp : HttpResponse} {bs : ByteStream} (hready : w.Ready)
    (hreached : w.sys.Reached b.slot) (hmode : sink.mode = .otaChunk)
    (hhead : requestHead b w url rangeFrom = (w₁, .ok (rsp, bs))) :
    Succeeds b w (Fetch.image.req b url rangeFrom sink) := by
  intro hzero
  obtain ⟨-, w₂, sink₂, hpre, hbody, hout⟩ := httpRequestOnce_zero hhead hzero
  have hhook : imagePreStream b w₁ rsp rangeFrom sink = (0, w₂, sink₂) := hpre
  have hplain := (imagePreStream_ok hhook).1
  rcases streamBody_zero hbody with ⟨hchunked, -, -⟩ |
    ⟨-, total, slices, htotal, hne, hfixed, hrc, hsink⟩
  · rw [hplain] at hchunked
    cases hchunked
  have hcomplete (hlength : completeLength rsp = some total.toNat) :
      CompleteBody b (w₂.enterBody sink₂.mode) rsp bs sink₂
        (httpRequestOnce b w (Fetch.image.req b url rangeFrom sink)).2.2.1 := by
    rw [CompleteBody, hplain, if_neg Bool.false_ne_true]
    exact ⟨total, slices, _, hlength, hfixed, hrc, by rw [hout]; exact hsink⟩
  rcases imagePreStream_zero hhook with ⟨hstatus, hlength⟩ |
    ⟨hstatus, hpos, hrange, hstart, rfl, hsink₂⟩
  · refine ⟨w₁, rsp, bs, w₂, sink₂, hhead, hpre, .inl hstatus, hcomplete ?_⟩
    rw [bodyTotalOf, hstatus, if_neg (by simp), hlength, if_pos ⟨.inl rfl, rfl⟩] at htotal
    rw [completeLength, hstatus, if_neg (by decide), Option.some.inj htotal]
  · refine ⟨w₂, rsp, bs, w₂, sink₂, hhead, hpre, .inr (.inr ⟨hstatus, hpos, hrange, hstart⟩),
      hcomplete ?_⟩
    rw [bodyTotalOf, if_pos ⟨hstatus, hrange⟩, Option.some.injEq] at htotal
    -- the core has advanced from the start by the length, without a wrap
    have hsys : w₂.sys = w.sys := by
      have hspec := (requestHead_spec b w url rangeFrom).1
      rwa [hhead] at hspec
    have hmode₂ : sink₂.mode = .otaChunk := by rw [hsink₂, hmode]
    have hready₂ : (w₂.enterBody sink₂.mode).Ready := by
      simpa [World.Ready, World.enterBody, hsys] using hready
    have hreached₂ : (w₂.enterBody sink₂.mode).sys.Reached b.slot := by
      simpa [World.enterBody, hsys] using hreached
    have hadvanced := (hfixed.ota hmode₂ hready₂ hreached₂ hrc).offset
    have hbound :=
      (streamFixedBody b (w₂.enterBody sink₂.mode) bs sink₂ total).out.otaOffset.toNat_lt
    have hnat := rangeTotal_toNat rsp.rangeStart rsp.rangeEnd
    rw [htotal] at hnat
    have hoffset : sink₂.otaOffset = rsp.rangeStart := by rw [hsink₂]
    rw [hoffset] at hadvanced
    have hnonzero : total.toNat ≠ 0 := fun h0 => hne (UInt32.toNat_inj.mp h0)
    have hs := rsp.rangeStart.toNat_lt
    have he := rsp.rangeEnd.toNat_lt
    exact completeLength_range hstatus htotal.symm hne (by omega)

theorem header_succeeds {b : Board} {w w₁ : World} {url : List UInt8} {rangeFrom : UInt32}
    {sink : SinkCtx} {rsp : HttpResponse} {bs : ByteStream} {kind : HeadKind}
    (hkind : rsp.IsOf kind) (hsafe : kind.Safe .header rangeFrom)
    (hhead : requestHead b w url rangeFrom = (w₁, .ok (rsp, bs))) :
    Succeeds b w (Fetch.header.req b url rangeFrom sink) := by
  intro hzero
  obtain ⟨hfinal, w₂, sink₂, hpre, hbody, hout⟩ := httpRequestOnce_zero hhead hzero
  obtain ⟨hstatus, hchunked, hrange⟩ := id hkind
  rw [HeadKind.Safe, or_iff_right (by decide), ← hstatus, hfinal,
    or_iff_right Bool.false_ne_true] at hsafe
  refine ⟨w₁, rsp, bs, w₂, sink₂, hhead, hpre, ?_⟩
  rcases streamBody_zero hbody with ⟨htrue, hrc, hsink⟩ |
    ⟨hfalse, total, slices, htotal, hne, hfixed, hrc, hsink⟩
  · rw [← hchunked, htrue, if_pos rfl] at hsafe
    obtain ⟨lines, term, slices, hread, hfed⟩ := streamChunkedBody_ok hrc
    constructor
    · exact (hkind.goodStatus_iff rangeFrom).mpr hsafe
    · rw [CompleteBody, htrue, if_pos rfl, hout, hsink]
      exact ⟨lines, term, slices, _, _, hread, hfed⟩
  · rw [← hchunked, hfalse, if_neg Bool.false_ne_true] at hsafe
    have hcomplete (hlength : completeLength rsp = some total.toNat) :
        CompleteBody b (w₂.enterBody sink₂.mode) rsp bs sink₂
          (httpRequestOnce b w (Fetch.header.req b url rangeFrom sink)).2.2.1 := by
      rw [CompleteBody, hfalse, if_neg Bool.false_ne_true]
      exact ⟨total, slices, _, hlength, hfixed, hrc, by rw [hout]; exact hsink⟩
    unfold bodyTotalOf at htotal
    split at htotal
    case isTrue h206 =>
        rw [Option.some.injEq] at htotal
        cases hkindRange : kind.range with
        | none =>
            rw [hkindRange] at hrange
            rw [h206.2] at hrange
            cases hrange
        | some bounds =>
            obtain ⟨s, e⟩ := bounds
            rw [hkindRange] at hrange
            obtain ⟨-, rfl, rfl⟩ := hrange
            rcases hsafe h206.1 _ _ hkindRange with hzero' | ⟨hpos, hstart, hle⟩
            · exact absurd (htotal.symm.trans hzero') hne
            · exact ⟨.inr (.inr ⟨h206.1, hpos, h206.2, hstart⟩),
                hcomplete (completeLength_range h206.1 htotal.symm hne hle)⟩
    case isFalse =>
        split at htotal
        case isTrue hfull =>
            obtain rfl := Option.some.inj htotal
            have hnot : rsp.status ≠ 206 := by
              rcases hfull.1 with h | h <;> simp [h]
            refine ⟨hfull.1.imp_right .inl, hcomplete ?_⟩
            rw [completeLength, if_neg hnot]
        case isFalse => cases htotal

/-! Every kind of head can come. -/

/-- `%d`, in ten digits. -/
def statusText (status : Int) : List UInt8 :=
  (if status < 0 then [45] else []) ++ fixedDecimal 10 status.natAbs

def rangeLine (s e : UInt32) : List UInt8 :=
  ascii "Content-Range: bytes " ++ (fixedDecimal 10 s.toNat ++ 45 :: fixedDecimal 10 e.toNat)

def rangeLines : Option (UInt32 × UInt32) → List (List UInt8)
  | none => []
  | some (s, e) => [rangeLine s e]

def encodingLines (chunked : Bool) : List (List UInt8) :=
  if chunked then [ascii "Transfer-Encoding: chunked"] else []

theorem fixedDecimal_plain (k n : Nat) : ∀ d ∈ fixedDecimal k n, d ≠ 0 ∧ d ≠ 13 := by
  intro d hd
  obtain ⟨hspace, -, -, hzero⟩ := isDigit_plain (by decide) (fixedDecimal_digit k n d hd)
  constructor
  · exact hzero
  · rintro rfl
    cases hspace

theorem statusText_plain (status : Int) : ∀ c ∈ statusText status, c ≠ 0 ∧ c ≠ 13 := by
  intro c hc
  rcases List.mem_append.mp hc with hsign | hdigit
  · split at hsign
    · rw [List.mem_singleton.mp hsign]
      decide
    · cases hsign
  · exact fixedDecimal_plain _ _ c hdigit

theorem rangeLine_plain (s e : UInt32) : ∀ c ∈ rangeLine s e, c ≠ 0 ∧ c ≠ 13 := by
  have hname : ∀ c ∈ ascii "Content-Range: bytes ", c ≠ 0 ∧ c ≠ 13 := by
    have hall : (ascii "Content-Range: bytes ").all (fun c => c != 0 && c != 13) = true := by decide
    simpa using hall
  intro c hc
  rw [rangeLine, List.mem_append, List.mem_append, List.mem_cons] at hc
  rcases hc with hc | hc | rfl | hc
  · exact hname c hc
  · exact fixedDecimal_plain _ _ c hc
  · decide
  · exact fixedDecimal_plain _ _ c hc

theorem crlfFree_plain {line : List UInt8} (h : ∀ c ∈ line, c ≠ 0 ∧ c ≠ 13) :
    CrlfFree line :=
  fun hin => (h 13 (hin.subset (by simp))).2 rfl

def HeadKind.head (kind : HeadKind) : Head where
  first := ascii "HTTP/1.1 " ++ statusText kind.status
  lines := rangeLines kind.range ++ encodingLines kind.chunked
  firstFree := by
    apply crlfFree_append (by decide)
    exact crlfFree_plain (statusText_plain kind.status)
  linesFree := by
    intro line hline
    rcases List.mem_append.mp hline with hrange | hencoding
    · cases hkind : kind.range with
      | none =>
          rw [hkind] at hrange
          cases hrange
      | some bounds =>
          rw [hkind] at hrange
          rw [List.mem_singleton.mp hrange]
          exact ⟨by simp [rangeLine, ascii], crlfFree_plain (rangeLine_plain _ _)⟩
    · unfold encodingLines at hencoding
      split at hencoding
      · rw [List.mem_singleton.mp hencoding]
        exact ⟨by decide, by decide⟩
      · cases hencoding

theorem strtol_statusText {status : Int} (h : -0x80000000 ≤ status ∧ status ≤ 0x7FFFFFFF)
    (q : List UInt8) : strtol 10 (statusText status ++ 13 :: q) = status := by
  have hne : fixedDecimal 10 status.natAbs ≠ [] := by
    rw [← List.length_pos_iff, length_fixedDecimal]
    decide
  have hvalue : digitsValue 10 (fixedDecimal 10 status.natAbs) = status.natAbs :=
    digitsValue_fixedDecimal (by omega)
  have hdigits := fixedDecimal_digit 10 status.natAbs
  have hrest : (13 :: q).takeWhile (isDigit 10) = [] := rfl
  unfold statusText strtol
  by_cases hneg : status < 0
  · rw [if_pos hneg, List.append_assoc, List.singleton_append, number_minus hne hdigits hrest,
      hvalue]
    dsimp only
    rw [if_pos rfl]
    omega
  · rw [if_neg hneg, List.nil_append, number_decimal hne hdigits hrest, hvalue]
    dsimp only
    rw [if_neg Bool.false_ne_true]
    omega

theorem HeadKind.statusAt (kind : HeadKind) (tail : List UInt8) :
    statusAt (kind.head.bytes ++ tail) = some kind.status := by
  have hspace (p : List UInt8) : strchr 32 (ascii "HTTP/1.1 " ++ p) = some (32 :: p) := rfl
  rw [Head.bytes_append, Http.statusAt, HeadKind.head, List.append_assoc, hspace, Option.map_some,
    List.drop_succ_cons, List.drop_zero, strtol_statusText kind.isInt]

/-- Only `Transfer-Encoding` says that the body is chunked. -/
theorem parseHeaderLine_isChunked {line : List UInt8} (nl : List UInt8) (out : HttpResponse)
    (h : hdrMatch line (ascii "transfer-encoding") = false) :
    (parseHeaderLine line nl out).isChunked = out.isChunked := by
  have hrange (v : List UInt8) : (parseContentRange v out).isChunked = out.isChunked := by
    rw [parseContentRange_eq]
    by_cases hdash : deref (strtoul 10 (skipUnit v)).2 = 45
    · simp only [rangeFields, if_pos hdash]
    · simp only [rangeFields, if_neg hdash]
  unfold parseHeaderLine
  rw [h]
  split
  · split <;> rfl
  · split
    · split
      · rfl
      · exact hrange _
    · split
      · rfl
      · rfl

theorem rangeLine_range (s e : UInt32) :
    RangeLine (rangeLine s e) (fixedDecimal 10 s.toNat) (fixedDecimal 10 e.toNat) := by
  have hdigits (n : Nat) :
      fixedDecimal 10 n ≠ [] ∧ ∀ d ∈ fixedDecimal 10 n, isDigit 10 d = true := by
    constructor
    · rw [← List.length_pos_iff, length_fixedDecimal]
      decide
    · exact fixedDecimal_digit 10 n
  have hunit {v : List UInt8} (hv : ∀ d ∈ v.head?, d ≠ 98) :
      skipUnit (ascii "bytes " ++ v) = v := by
    have hnot : ¬(ascii "bytes=").isPrefixOf v = true := by
      cases v with
      | nil => decide
      | cons d v =>
          intro hprefix
          rw [List.isPrefixOf_iff_prefix] at hprefix
          exact hv d rfl (List.cons_prefix_cons.mp hprefix).1.symm
    exact if_neg hnot
  have hname (v : List UInt8) :
      hdrMatch (ascii "Content-Range: bytes " ++ v) (ascii "content-range") = true ∧
        hdrValue (ascii "Content-Range: bytes " ++ v) = some (ascii "bytes " ++ v) := ⟨rfl, rfl⟩
  refine ⟨?_, (hname _).1, ⟨_, [], (hname _).2, ?_, rfl⟩, hdigits _, hdigits _⟩
  · exact fun hin => (rangeLine_plain s e 0 hin).1 rfl
  · rw [List.append_nil]
    apply hunit
    intro d hd hbytes
    obtain ⟨c, cs, hcons⟩ := List.exists_cons_of_ne_nil (hdigits s.toNat).1
    rw [hcons, List.cons_append, List.head?_cons, Option.mem_some_iff] at hd
    have hdigit := (hdigits s.toNat).2 c (by rw [hcons]; exact List.mem_cons_self)
    rw [hd, hbytes] at hdigit
    cases hdigit

theorem parse_rangeLines (lines : List (List UInt8)) (tail : List UInt8) (out : HttpResponse)
    (range : Option (UInt32 × UInt32)) (hout : out.hasContentRange = false) :
    ∃ out', parseHeaderLines tail (sectionBytes (rangeLines range ++ lines) ++ tail) out =
        parseHeaderLines tail (sectionBytes lines ++ tail) out' ∧
      out'.status = out.status ∧ out'.isChunked = out.isChunked ∧
      match range with
      | none => out'.hasContentRange = false
      | some (s, e) => out'.hasContentRange = true ∧ out'.rangeStart = s ∧ out'.rangeEnd = e := by
  cases range with
  | none => exact ⟨out, rfl, rfl, rfl, hout⟩
  | some bounds =>
      obtain ⟨s, e⟩ := bounds
      have hvalue (n : UInt32) :
          min (digitsValue 10 (fixedDecimal 10 n.toNat)) 0xFFFFFFFF = n.toNat := by
        have hlt := n.toNat_lt
        rw [digitsValue_fixedDecimal (by omega)]
        omega
      have hline := rangeLine_range s e
      rw [rangeLines, List.singleton_append,
        parseHeaderLines_cons (crlfFree_plain (rangeLine_plain s e))]
      dsimp only
      rw [if_neg hline.noNul]
      obtain ⟨p, hp⟩ : ∃ p, sectionBytes lines ++ tail = p := ⟨_, rfl⟩
      obtain ⟨hhas, hs, he⟩ := hline.parse (10 :: p) out
      have hstatus := congrArg HttpResponse.status
        (parseHeaderLine_status (rangeLine s e ++ 13 :: 10 :: p) (13 :: 10 :: p) out out.status)
      have hname (v : List UInt8) :
          hdrMatch (ascii "Content-Range: bytes " ++ v) (ascii "transfer-encoding") = false := rfl
      have hother :
          hdrMatch (rangeLine s e ++ 13 :: 10 :: p) (ascii "transfer-encoding") = false := by
        rw [hdrMatch_line (by decide)]
        exact hname _
      have hchunked := parseHeaderLine_isChunked (13 :: 10 :: p) out hother
      rw [hvalue] at hs he
      rw [hp]
      generalize parseHeaderLine (rangeLine s e ++ 13 :: 10 :: p) (13 :: 10 :: p) out = out' at *
      exact ⟨out', rfl, hstatus, hchunked, hhas, UInt32.toNat_inj.mp hs, UInt32.toNat_inj.mp he⟩

theorem parse_encodingLines (tail : List UInt8) (out : HttpResponse) (chunked : Bool)
    (hout : out.isChunked = false) :
    parseHeaderLines tail (sectionBytes (encodingLines chunked) ++ tail) out =
      {out with isChunked := chunked} := by
  cases chunked with
  | false =>
      rw [encodingLines, if_neg Bool.false_ne_true, parseHeaderLines_nil, ← hout]
  | true =>
      have hnul : 0 ∉ ascii "Transfer-Encoding: chunked" := by decide
      have hname : hdrMatch (ascii "Transfer-Encoding: chunked") (ascii "transfer-encoding") =
          true := by decide
      obtain ⟨v, hv, hread⟩ := hdrValue_of_match hnul hname
      have hchunked (nl : List UInt8) : hasChunked nl (v ++ nl) = true := by
        obtain rfl : ascii "chunked" = v := Option.some.inj (Eq.trans (by decide) hv)
        rw [hasChunked_append _ nl []]
        decide
      rw [encodingLines, if_pos rfl, parseHeaderLines_cons (by decide)]
      dsimp only
      rw [if_neg (by decide), parseHeaderLines_nil, parseHeaderLine, hdrMatch_line (by decide),
        hdrMatch_line (by decide), hdrMatch_line (by decide), hdrMatch_line (by decide),
        if_neg (by decide), if_neg (by decide), if_neg (by decide), if_pos (by decide), hread]
      dsimp only
      rw [if_pos (hchunked _)]

/-- Whatever follows it in the buffer, the head is parsed as one of its kind. -/
theorem HeadKind.parse (kind : HeadKind) (tail : List UInt8) :
    ∃ rsp, parseResponseHeaders (kind.head.bytes ++ tail) kind.head.bytes.length =
        .ok (kind.head.bytes.length, rsp) ∧ rsp.IsOf kind := by
  have hversion (p : List UInt8) : (ascii "HTTP/1.").isPrefixOf (ascii "HTTP/1.1 " ++ p) = true :=
    rfl
  have hfirst : kind.head.first = ascii "HTTP/1.1 " ++ statusText kind.status := rfl
  have hnul : 0 ∉ ascii "HTTP/1.1 " ++ statusText kind.status := by
    intro hin
    rcases List.mem_append.mp hin with hname | hstatus
    · revert hname
      decide
    · exact (statusText_plain kind.status 0 hstatus).1 rfl
  rw [kind.head.parse_eq tail (Nat.le_refl _), hfirst, hversion, if_neg (by decide),
    kind.statusAt]
  dsimp only
  rw [if_neg hnul]
  obtain ⟨out, hparse, hstatus, hchunked, hrange⟩ :=
    parse_rangeLines (encodingLines kind.chunked) tail
      {HttpResponse.zero with status := kind.status} kind.range rfl
  refine ⟨_, rfl, ?_⟩
  have hlines : kind.head.lines = rangeLines kind.range ++ encodingLines kind.chunked := rfl
  rw [hlines, hparse, parse_encodingLines tail out kind.chunked hchunked]
  exact ⟨hstatus, rfl, hrange⟩

/-! A server that sends such a head, and then any body. -/

theorem HeadKind.length_head (kind : HeadKind) : kind.head.bytes.length ≤ 124 := by
  have hstatus : (statusText kind.status).length ≤ 11 := by
    rw [statusText, List.length_append, length_fixedDecimal]
    split <;> simp
  have hranges (lines : List (List UInt8)) :
      (sectionBytes (rangeLines kind.range ++ lines)).length ≤
        44 + (sectionBytes lines).length := by
    cases kind.range with
    | none => simp [rangeLines]
    | some bounds =>
        rw [rangeLines, List.singleton_append, sectionBytes_cons, rangeLine]
        simp only [List.length_append, List.length_cons, length_fixedDecimal]
        have hname : (ascii "Content-Range: bytes ").length = 21 := by decide
        omega
  have hencoding : (sectionBytes (encodingLines kind.chunked)).length ≤ 30 := by
    cases kind.chunked <;> decide
  have hname : (ascii "HTTP/1.1 ").length = 9 := by decide
  have hlines := hranges (encodingLines kind.chunked)
  simp only [Head.bytes, HeadKind.head, crlf, List.length_append, List.length_cons, List.length_nil]
  omega

/-- A head that comes in one segment is all that is taken from the socket. -/
theorem readHead_whole {head : Head} {rsp : HttpResponse} {hdrbuf : List UInt8}
    (recvs : List (List UInt8)) (hlen : head.bytes.length ≤ APP_OTA_HTTP_HEADER_MAX)
    (hparse : parseResponseHeaders (head.bytes ++ hdrbuf.drop head.bytes.length)
      head.bytes.length = .ok (head.bytes.length, rsp)) :
    (readHead hdrbuf 0 (head.bytes :: recvs)).2 = .ok (rsp, ⟨[], recvs⟩) := by
  have hbuf : overwrite hdrbuf 0 head.bytes = head.bytes ++ hdrbuf.drop head.bytes.length := by
    simp [overwrite]
  have hne : head.bytes ≠ [] := by simp [Head.bytes, crlf]
  have hrecv : recv (head.bytes :: recvs) (APP_OTA_HTTP_HEADER_MAX - 0) =
      some (head.bytes, recvs) := by
    rw [Nat.sub_zero, recv, List.take_of_length_le hlen, if_neg hne, List.drop_of_length_le hlen,
      if_pos rfl]
  rw [readHead, dif_pos (by decide)]
  split
  case h_1 hnone =>
      rw [hrecv] at hnone
      cases hnone
  case h_2 got rest hsome =>
      rw [hrecv, Option.some.injEq, Prod.mk.injEq] at hsome
      obtain ⟨rfl, rfl⟩ := hsome
      dsimp only
      rw [hbuf, Nat.zero_add, hparse]
      simp

def host : UrlParts := ⟨ascii "h", ascii "/", 80⟩

/-- The connection to a server that answers with this head and this body. -/
def answering (kind : HeadKind) (rangeFrom : UInt32) (body : List UInt8) : World :=
  World.start (Sys.powerUp .blank) []
    [⟨0, 0, [(requestText host rangeFrom).length], [kind.head.bytes, body]⟩]

theorem length_requestText (rangeFrom : UInt32) :
    0 < (requestText host rangeFrom).length ∧
      (requestText host rangeFrom).length < APP_OTA_HTTP_HEADER_MAX := by
  have hdecimal : (decimal rangeFrom).length ≤ 10 := by
    have hlt := rangeFrom.toNat_lt
    rw [decimal, List.length_map, Nat.length_toDigits_le_iff (by decide) (by decide)]
    omega
  have hrange : (if 0 < rangeFrom then
      ascii "Range: bytes=" ++ decimal rangeFrom ++ ascii "-\r\n" else []).length ≤ 26 := by
    have hname : (ascii "Range: bytes=").length = 13 ∧ (ascii "-\r\n").length = 3 := by decide
    split
    · simp only [List.length_append]
      omega
    · simp
  have hfront : (ascii "GET " ++ host.path ++ ascii " HTTP/1.1\r\nHost: " ++ host.host ++
      ascii "\r\nUser-Agent: zcube/1\r\nConnection: close\r\nAccept: */*\r\n").length = 78 := by
    decide
  rw [requestText, List.length_append, List.length_append, hfront]
  constructor
  · omega
  · have hend : crlf.length = 2 := rfl
    have hmax : APP_OTA_HTTP_HEADER_MAX = 1024 := rfl
    omega

def numericBoard : Board := ⟨⟨8⟩, fun _ => true⟩

theorem requestHead_answering (kind : HeadKind) (rangeFrom : UInt32) (body : List UInt8) :
    ∃ w₁ rsp,
      requestHead numericBoard (answering kind rangeFrom body) (ascii "http://h/") rangeFrom =
        (w₁, .ok (rsp, ⟨[], [body]⟩)) ∧
      rsp.IsOf kind ∧ w₁.KeepsRunning := by
  obtain ⟨hpos, hshort⟩ := length_requestText rangeFrom
  have hurl : parseUrl (ascii "http://h/") = .ok host := by decide +kernel
  have hsent (n : Nat) (hn : 0 < n) : sendAll [(n : Int)] n = true := by
    cases n with
    | zero => cases hn
    | succ n =>
        rw [sendAll, if_neg (by omega), Int.toNat_natCast, Nat.sub_self, sendAll]
        simp
  have hhost (h : List UInt8) : ¬numericBoard.inetPton h = false := by
    simp [numericBoard]
  obtain ⟨w, hopen, hkeeps⟩ : ∃ w : World, openRequest numericBoard (answering kind rangeFrom body)
      (ascii "http://h/") rangeFrom = (w, .ok [kind.head.bytes, body]) ∧ w.KeepsRunning := by
    simp only [openRequest, hurl, if_neg (hhost _), answering, World.start]
    rw [if_neg (by decide), if_neg (by decide), if_neg (Nat.not_le_of_lt hshort),
      if_neg (by rw [hsent _ hpos]; decide)]
    exact ⟨_, rfl, rfl, by simp⟩
  obtain ⟨rsp, hparse, hkind⟩ := kind.parse (w.hdrbuf.drop kind.head.bytes.length)
  have hlen : kind.head.bytes.length ≤ APP_OTA_HTTP_HEADER_MAX :=
    Nat.le_trans kind.length_head (by decide)
  have hread := readHead_whole [body] hlen hparse
  have hhead : requestHead numericBoard (answering kind rangeFrom body) (ascii "http://h/")
      rangeFrom = ({w with hdrbuf := (readHead w.hdrbuf 0 [kind.head.bytes, body]).1},
        .ok (rsp, ⟨[], [body]⟩)) := by
    simp only [requestHead, hopen, hread]
  exact ⟨_, rsp, hhead, hkind, hkeeps⟩

/-- No answer of 0 to a request with a head of this kind is wrong. -/
def HeadKind.Sound (kind : HeadKind) (f : Fetch) (rangeFrom : UInt32) : Prop :=
  ∀ (b : Board) (w : World) (url : List UInt8) (sink : SinkCtx), w.Ready →
    w.sys.Reached b.slot → sink.mode = f.mode →
    ∀ w₁ rsp bs, requestHead b w url rangeFrom = (w₁, .ok (rsp, bs)) → rsp.IsOf kind →
      Succeeds b w (f.req b url rangeFrom sink)

section

variable {kind : HeadKind} {rangeFrom : UInt32}

theorem ByteStream.bytes_single (body : List UInt8) :
    (⟨[], [body]⟩ : ByteStream).bytes = body := by
  unfold ByteStream.bytes arriving arriving
  split <;> simp_all

/-- Without a hook, the result is that of the body. -/
theorem httpRequestOnce_header {b : Board} {w w₁ : World} {url : List UInt8} {rsp : HttpResponse}
    {bs : ByteStream} (sink : SinkCtx) (hhead : requestHead b w url rangeFrom = (w₁, .ok (rsp, bs)))
    (hfinal : isRedirect rsp.status = false) :
    (httpRequestOnce b w (Fetch.header.req b url rangeFrom sink)).1 =
      (streamBody b (w₁.enterBody sink.mode) rsp bs sink).1 := by
  have hhead' : requestHead b w (Fetch.header.req b url rangeFrom sink).url
      (Fetch.header.req b url rangeFrom sink).rangeFrom = (w₁, .ok (rsp, bs)) := hhead
  simp only [httpRequestOnce, hhead', httpAnswer, hfinal, Bool.false_eq_true, if_false]
  rfl

/-- A request of `header.bin` to such a server comes to an end if its body does. -/
theorem HeadKind.Sound.answered (h : kind.Sound .header rangeFrom)
    (hfinal : isRedirect kind.status = false) {sink : SinkCtx} (hmode : sink.mode = .buffer)
    (body : List UInt8) :
    ∃ w rsp, rsp.IsOf kind ∧ World.KeepsRunning w ∧
      ((streamBody numericBoard w rsp ⟨[], [body]⟩ sink).1 = 0 → GoodStatus rangeFrom rsp ∧
        ∃ sink', CompleteBody numericBoard w rsp ⟨[], [body]⟩ sink sink') := by
  obtain ⟨w₁, rsp, hhead, hkind, hkeeps⟩ := requestHead_answering kind rangeFrom body
  have hreached : (answering kind rangeFrom body).sys.Reached numericBoard.slot :=
    ⟨_, [], rfl⟩
  refine ⟨w₁.enterBody sink.mode, rsp, hkind, hkeeps, fun hzero => ?_⟩
  have hready : (answering kind rangeFrom body).Ready := rfl
  have honce := httpRequestOnce_header sink hhead (hkind.1 ▸ hfinal)
  obtain ⟨w', rsp', bs', w₂, sink₂, hhead', hpre, hstatus, hcomplete⟩ :=
    h _ _ _ sink hready hreached hmode w₁ rsp _ hhead hkind (honce.trans hzero)
  cases hhead.symm.trans hhead'
  cases hpre
  exact ⟨hstatus, _, hcomplete⟩

/-- A chunked body can be as short as this. -/
theorem HeadKind.Sound.chunked (h : kind.Sound .header rangeFrom)
    (hfinal : isRedirect kind.status = false) (hchunked : kind.chunked = true) :
    kind.Good rangeFrom := by
  let sink : SinkCtx := ⟨.buffer, 0, [], 0⟩
  have hmode : sink.mode = .buffer := rfl
  obtain ⟨w, rsp, hkind, hkeeps, hanswer⟩ := h.answered hfinal hmode (ascii "0\r\n\r\n")
  have hlast : Body lenient (ascii "0\r\n\r\n") [ascii "0"] [] [] [] :=
    .last (q := ascii "\r\n") (by decide) (by decide) (.ends (by decide) (by decide))
  have hread := streamChunkedBody_reads hlast numericBoard w ⟨[], [ascii "0\r\n\r\n"]⟩
    sink hkeeps (ByteStream.bytes_single _) hmode (Nat.le_refl 0)
  rw [← hkind.goodStatus_iff]
  apply (hanswer _).1
  rw [streamBody, hkind.2.1, hchunked, if_pos rfl]
  dsimp only
  rw [hread, if_neg (by simp)]

/-- A partial body can have the length that is computed. -/
theorem HeadKind.Sound.range (h : kind.Sound .header rangeFrom)
    (hchunked : kind.chunked = false) (h206 : kind.status = 206) {s e : UInt32}
    (hbounds : kind.range = some (s, e)) (hne : e + 1 - s ≠ 0) :
    0 < rangeFrom ∧ s = rangeFrom ∧ s.toNat ≤ e.toNat := by
  have hfinal : isRedirect kind.status = false := by
    rw [h206]
    rfl
  obtain ⟨total, htotal⟩ : ∃ total, total = e + 1 - s := ⟨_, rfl⟩
  let sink : SinkCtx := ⟨.buffer, 0, [], total.toNat⟩
  let bs : ByteStream := ⟨[], [List.replicate total.toNat 0]⟩
  have hmode : sink.mode = .buffer := rfl
  obtain ⟨w, rsp, hkind, hkeeps, hanswer⟩ :=
    h.answered hfinal hmode (List.replicate total.toNat 0)
  obtain ⟨hstatus, hplain, hrange⟩ := id hkind
  rw [h206] at hstatus
  rw [hchunked] at hplain
  rw [hbounds] at hrange
  obtain ⟨hhas, hs, he⟩ := hrange
  have hlength : bodyTotalOf rsp = some total := by
    rw [bodyTotalOf, if_pos ⟨hstatus, hhas⟩, hs, he, htotal]
  have hthere : total.toNat - 0 ≤ bs.bytes.length := by
    rw [ByteStream.bytes_single, List.length_replicate, Nat.sub_zero]
  have hread : (streamFixedBodyFrom numericBoard total.toNat w bs sink 0).rc = 0 :=
    streamFixedBodyFrom_reads hkeeps hmode hthere (by simp [sink])
  have hzero : (streamBody numericBoard w rsp bs sink).1 = 0 := by
    simp only [streamBody, hplain, Bool.false_eq_true, if_false, hlength]
    rw [if_neg (by rw [htotal]; exact hne)]
    dsimp only
    rw [(streamRecorded_fixed _ _ _ _ _).1, streamFixedBody, hread, if_neg (by simp)]
  obtain ⟨hgood, sink', hcomplete⟩ := hanswer hzero
  rw [GoodStatus, hstatus, or_iff_right (by decide), or_iff_right (by decide)] at hgood
  obtain ⟨-, hpos, -, hstart⟩ := hgood
  rw [CompleteBody, hplain, if_neg Bool.false_ne_true] at hcomplete
  obtain ⟨total', slices, r, hfits, -⟩ := hcomplete
  rw [completeLength, if_pos hstatus, hs, he] at hfits
  refine ⟨hpos, by rw [← hstart, hs], ?_⟩
  by_contra hwrong
  rw [if_neg hwrong] at hfits
  cases hfits

theorem HeadKind.Sound.safe (h : kind.Sound .header rangeFrom) : kind.Safe .header rangeFrom := by
  right
  cases hfinal : isRedirect kind.status with
  | true => exact .inl rfl
  | false =>
      right
      cases hchunked : kind.chunked with
      | true =>
          rw [if_pos rfl]
          exact h.chunked hfinal hchunked
      | false =>
          rw [if_neg Bool.false_ne_true]
          intro h206 s e hbounds
          rw [or_iff_not_imp_left]
          exact h.range hchunked h206 hbounds

end

/-- The answers of 0 to heads of a kind are all right exactly if it is safe. -/
theorem request_success_iff (kind : HeadKind) (f : Fetch) (rangeFrom : UInt32) :
    kind.Sound f rangeFrom ↔ kind.Safe f rangeFrom := by
  cases f with
  | image =>
      constructor
      · exact fun _ => .inl rfl
      · intro _ b w url sink hready hreached hmode w₁ rsp bs hhead _
        exact image_succeeds hready hreached hmode hhead
  | header =>
      constructor
      · exact HeadKind.Sound.safe
      · intro hsafe b w url sink _ _ _ w₁ rsp bs hhead hkind
        exact header_succeeds hkind hsafe hhead

def notFoundServer : World :=
  World.start (Sys.powerUp .blank) [] [⟨0, 0, [1024], [ascii
    "HTTP/1.1 404 Not Found\r\nTransfer-Encoding: chunked\r\n\r\n0\r\n\r\n"]⟩]

/-- A chunked 404 is taken for `header.bin`. -/
theorem notFound_succeeds :
    ¬∀ (b : Board) (w : World) (f : Fetch) (url : List UInt8) (rangeFrom : UInt32)
        (sink : SinkCtx), w.Ready → w.sys.Reached b.slot → sink.mode = f.mode →
        Succeeds b w (f.req b url rangeFrom sink) := by
  intro hall
  let r := Fetch.header.req numericBoard (ascii "http://10.0.0.1/header.bin") 0
    ⟨.buffer, 0, [], 512⟩
  have hzero : (httpRequestOnce numericBoard notFoundServer r).1 = 0 := by decide +kernel
  have hhead : (requestHead numericBoard notFoundServer r.url 0).2.toOption.map
      (fun p => p.1.status) = some 404 := by decide +kernel
  obtain ⟨w₁, rsp, bs, -, -, hsame, -, hgood, -⟩ :=
    hall numericBoard notFoundServer .header (ascii "http://10.0.0.1/header.bin") 0 _ rfl
      ⟨_, [], rfl⟩ rfl hzero
  have hstatus : rsp.status = 404 := by
    have hresult : (requestHead numericBoard notFoundServer r.url 0).2 = .ok (rsp, bs) :=
      congrArg Prod.snd hsame
    rw [hresult] at hhead
    exact Option.some.inj hhead
  rw [GoodStatus, hstatus] at hgood
  rcases hgood with hok | hok | ⟨hok, -⟩ <;> cases hok

end Rw612.Http
