import Rw612.Http.Head
import Rw612.Http.Interference

/-!
What `APP_OTA_HTTP_DONE` says about the slot when no other transport acts. The
size of the session is fixed in three ways: by the `begin` of a fresh download, by
that of a restarted one, and by the session that a resumed one finds. `Opened`
says that in each of them the announced body reaches exactly to the end of the
session; the one exception is a resumed session whose server answers with another
range than the rest, since only the start of a range is checked.

The parser leaves 0 for a total that is not stated, so whether one is stated is
read off the head itself.
-/

namespace Rw612.Http

open Lib Lib.CString Ota

/-- The head that the image request of the task ends at. -/
def imageHead (b : Board) (w : World) :
    World × Except Int (HttpResponse × ByteStream) :=
  let (w, st) := w.getStatus b
  finalHead b (resumeFrom st) APP_OTA_HTTP_MAX_REDIRECTS w (text w.imageUrl)

/-! The total that a head states. -/

/-- The number behind the slash of a range, if there is one. -/
def rangeTotalStated (v : List UInt8) : Option Int :=
  let stop := (strtoul 10 ((strtoul 10 v).2.drop 1)).2
  if deref stop = 47 then
    (number 10 (stop.drop 1)).map fun (neg, n, _) => if neg then -(n : Int) else n
  else none

/-- A `Content-Range` line with a range replaces what the lines before it state. -/
def lineTotal (line : List UInt8) (total : Option Int) : Option Int :=
  if hdrMatch line (ascii "content-range") then
    match hdrValue line with
    | none => total
    | some v =>
        if deref (strtoul 10 (skipUnit v)).2 = 45 then rangeTotalStated (skipUnit v) else total
  else total

/-- The lines of `parse_response_headers`. -/
def linesTotal (hdrEnd line : List UInt8) (total : Option Int) : Option Int :=
  if hdrEnd.length + 2 < line.length then
    match _hnl : strstr crlf line with
    | none => total
    | some nl => linesTotal hdrEnd (nl.drop 2) (lineTotal line total)
  else total
  termination_by line.length
  decreasing_by
    have hle := strstr_length_le _hnl
    rw [List.length_drop]
    omega

/-- The total that the head at the beginning of a buffer states. -/
def statedTotal (buf : List UInt8) : Option Int :=
  match findHdrEnd buf.length buf with
  | none => none
  | some hdrEnd =>
      match strstr crlf buf with
      | none => none
      | some line => linesTotal hdrEnd (line.drop 2) none

/-- `range_total` of a response is the total stated, as `strtoul` reads it. -/
def TotalRead (total : Option Int) (rangeTotal : UInt32) : Prop :=
  (total = none → rangeTotal = 0) ∧
    ∀ n : Nat, total = some (n : Int) → rangeTotal.toNat = min n 0xFFFFFFFF

theorem rangeFields_total (v : List UInt8) {out : HttpResponse}
    (hdash : deref (strtoul 10 v).2 = 45) :
    TotalRead (rangeTotalStated v) (rangeFields v out).rangeTotal := by
  simp only [rangeFields, rangeTotalStated, if_pos hdash]
  split
  · generalize (strtoul 10 ((strtoul 10 v).2.drop 1)).2.drop 1 = p
    cases hnumber : number 10 p with
    | none => exact ⟨fun _ => congrArg Prod.fst (strtoul_of_none hnumber), by simp⟩
    | some found =>
        obtain ⟨neg, n, rest⟩ := found
        refine ⟨by simp, fun m hm => ?_⟩
        cases neg with
        | false =>
            obtain rfl : n = m := by simpa using hm
            exact (strtoul_of_number hnumber).1
        | true =>
            -- a minus is read as well, and only -0 is a natural number
            obtain ⟨rfl, rfl⟩ : n = 0 ∧ m = 0 := by
              simp only [Option.map_some, if_true, Option.some.injEq] at hm
              omega
            simp [strtoul, hnumber]
  · exact ⟨fun _ => rfl, by simp⟩

theorem parseHeaderLine_total (line nl : List UInt8) {out : HttpResponse} {total : Option Int}
    (h : TotalRead total out.rangeTotal) :
    TotalRead (lineTotal line total) (parseHeaderLine line nl out).rangeTotal := by
  unfold parseHeaderLine lineTotal
  by_cases hrange : hdrMatch line (ascii "content-range") = true
  · rw [if_pos hrange, hdrMatch_range_length hrange, if_neg Bool.false_ne_true, if_pos hrange]
    cases hdrValue line with
    | none => exact h
    | some v =>
        dsimp only
        rw [parseContentRange_eq]
        split
        · rename_i hdash
          exact rangeFields_total _ hdash
        · rename_i hdash
          simp only [rangeFields, if_neg hdash]
          exact h
  · rw [if_neg hrange, if_neg hrange]
    split_ifs
    · split <;> exact h
    · exact h
    · split
      · exact h
      · split <;> exact h
    · exact h

theorem parseHeaderLines_total (hdrEnd line : List UInt8) {out : HttpResponse}
    {total : Option Int} (h : TotalRead total out.rangeTotal) :
    TotalRead (linesTotal hdrEnd line total) (parseHeaderLines hdrEnd line out).rangeTotal := by
  fun_induction parseHeaderLines hdrEnd line out generalizing total with
  | case1 line out hmore hnone =>
      rw [linesTotal, if_pos hmore]
      split
      · exact h
      · rename_i nl hnl
        rw [hnone] at hnl
        cases hnl
  | case2 line out hmore nl hnl ih =>
      rw [linesTotal, if_pos hmore]
      split
      · rename_i hnone
        rw [hnl] at hnone
        cases hnone
      · rename_i nl' hnl'
        obtain rfl := Option.some.inj (hnl.symm.trans hnl')
        exact ih (parseHeaderLine_total line nl h)
  | case3 line out hdone =>
      rw [linesTotal, if_neg hdone]
      exact h

/-- The parser reads the total that the head states. -/
theorem parseResponseHeaders_total {buf : List UInt8} {n len : Nat} {rsp : HttpResponse}
    (hparse : parseResponseHeaders buf n = .ok (len, rsp)) :
    TotalRead (statedTotal buf) rsp.rangeTotal := by
  unfold parseResponseHeaders at hparse
  split at hparse
  · cases hparse
  rename_i hdrEnd hfound
  obtain ⟨head, hbuf, -⟩ := Head.of_findHdrEnd hfound
  have hwhole : findHdrEnd buf.length buf = some hdrEnd := by
    rw [hbuf]
    exact head.findHdrEnd hdrEnd (by simp)
  split_ifs at hparse
  split at hparse
  · cases hparse
  split at hparse
  · cases hparse
  rename_i line hline
  obtain ⟨-, rfl⟩ := Prod.mk.inj (Except.ok.inj hparse)
  simp only [statedTotal, hwhole, hline]
  exact parseHeaderLines_total _ _ ⟨fun _ => rfl, by simp⟩

/-- A total of 0 is stated as well as any other. -/
example : statedTotal (ascii "HTTP/1.1 206 P\r\nContent-Range: bytes 2-3/0\r\n\r\n") = some 0 := by
  decide +kernel

/-! The postcondition. -/

/-- The range of a response is the rest of the session. -/
def RangeIsRest (st : Status) (rsp : HttpResponse) : Prop :=
  rsp.rangeStart = st.bytesReceived ∧ rsp.rangeEnd.toNat + 1 = st.totalSize.toNat

instance (st : Status) (rsp : HttpResponse) : Decidable (RangeIsRest st rsp) := by
  unfold RangeIsRest
  infer_instance

/-- The range of a 206 answer, whose head is in `hdrbuf`, is the rest of the session,
and so is the total, if it states one. -/
def Covers (st : Status) (hdrbuf : List UInt8) (rsp : HttpResponse) : Prop :=
  RangeIsRest st rsp ∧ ∀ total ∈ statedTotal hdrbuf, total = st.totalSize.toNat

instance (st : Status) (hdrbuf : List UInt8) (rsp : HttpResponse) :
    Decidable (Covers st hdrbuf rsp) := by
  unfold Covers
  infer_instance

/-- The slot of `w'` holds the image that was begun in `w`, if at all, and was
completed by `body`, which starts at `offset`. -/
structure ImageComplete (w w' : World) (offset : UInt32) (body : List UInt8) :
    Prop where
  origin : offset = 0 ∨
    (w.sys.core.st.state = .writing ∧ offset = w.sys.core.st.bytesReceived)
  received : w'.sys.core.st.bytesReceived = w'.sys.core.st.totalSize
  slot : readRange w'.sys.core.flash.bytes 0 w'.sys.core.st.totalSize.toNat =
    readRange w.sys.core.flash.bytes 0 offset.toNat ++ body

/-- Whenever the task ends with `APP_OTA_HTTP_DONE`, the image is complete, and
the body of the final response has arrived in full. -/
def DoneComplete (b : Board) (w : World) : Prop :=
  (httpTask b w).state = .done →
    ∃ head rsp bs bodyTotal offset, imageHead b w = (head, .ok (rsp, bs)) ∧
      bodyTotalOf rsp = some bodyTotal ∧ bodyTotal.toNat ≤ bs.bytes.length ∧
      ImageComplete w (httpTask b w) offset (bs.bytes.take bodyTotal.toNat)

/-- A 206 answer is accepted only for the rest of the open session. -/
def ResumeCovers (b : Board) (w : World) : Prop :=
  ∀ head rsp bs sink, imageHead b w = (head, .ok (rsp, bs)) → rsp.status = 206 →
    (imagePreStream b head rsp (resumeFrom w.sys.core.st) sink).1 = 0 →
    Covers w.sys.core.st head.hdrbuf rsp

/-- A resume is answered by a range that starts where the session stands. -/
structure ResumedAt (b : Board) (w head : World) (rsp : HttpResponse) (bs : ByteStream) :
    Prop where
  head : imageHead b w = (head, .ok (rsp, bs))
  resumes : resumeFrom w.sys.core.st ≠ 0
  whole : rsp.isChunked = false
  status : rsp.status = 206
  content : rsp.hasContentRange = true
  start : rsp.rangeStart = resumeFrom w.sys.core.st

/-- Such a range is not the rest of the session, or the head states another total. -/
def OtherRange (b : Board) (w : World) : Prop :=
  ∃ head rsp bs, ResumedAt b w head rsp bs ∧ ¬ Covers w.sys.core.st head.hdrbuf rsp

/-- Such a range ends before or behind the session. -/
def OtherEnd (b : Board) (w : World) : Prop :=
  ∃ head rsp bs, ResumedAt b w head rsp bs ∧ ¬ RangeIsRest w.sys.core.st rsp

theorem OtherEnd.other {b : Board} {w : World} : OtherEnd b w → OtherRange b w := by
  rintro ⟨head, rsp, bs, hresumed, hnot⟩
  exact ⟨head, rsp, bs, hresumed, fun hcovers => hnot hcovers.1⟩

theorem resumeFrom_ne_zero {st : Status} (h : resumeFrom st ≠ 0) :
    st.state = .writing ∧ resumeFrom st = st.bytesReceived := by
  unfold resumeFrom at h ⊢
  split
  · rename_i hst
    exact ⟨hst.1, rfl⟩
  · rename_i hst
    exact absurd (if_neg hst) h

theorem imageHead_eq {b : Board} {w : World} (halone : w.Alone) :
    imageHead b w = finalHead b (resumeFrom w.sys.core.st)
      APP_OTA_HTTP_MAX_REDIRECTS (w.tick b).1 (text (w.tick b).1.imageUrl) := by
  simp only [imageHead, World.getStatus, (halone.tick b).1]

/-- The head of the image is read before the task calls the core. -/
theorem imageHead_still {b : Board} {w head : World}
    {final : Except Int (HttpResponse × ByteStream)} (halone : w.Alone)
    (hhead : imageHead b w = (head, final)) :
    head.sys = w.sys ∧ head.Alone := by
  have hruns : Runs b (fun _ => False) w head := by
    rw [imageHead_eq halone] at hhead
    have hwalk := finalHead_runs b (fun _ => False) (resumeFrom w.sys.core.st)
      APP_OTA_HTTP_MAX_REDIRECTS (w.tick b).1 (text (w.tick b).1.imageUrl)
    rw [hhead] at hwalk
    exact (Runs.tick w).trans hwalk
  exact ⟨hruns.still halone, hruns.alone halone⟩

/-- A `begin` that returns `APP_OTA_OK` when nobody else acts. -/
theorem World.Alone.begin_ok {b : Board} {w : World} (halone : w.Alone)
    {n : UInt32} (hrc : (w.otaCall b (.begin n)).2 = .ok) :
    (w.otaCall b (.begin n)).1.sys.core.st = ⟨.ready, .ok, 0, n⟩ := by
  obtain ⟨d, hcore, hlocked⟩ := halone.otaCall_ok b (by simp) hrc
  rw [hcore, Call.locked, appOtaBeginLocked_ok hlocked]

/-- The body that is about to be read reaches from the end of what the session
holds to the size of the session. -/
structure Opened (w : World) (start : StreamStart) : Prop where
  standing : start.Standing
  total : start.offset.toNat + start.bodyTotal = start.sys.core.st.totalSize.toNat
  origin : start.offset = 0 ∨
    (w.sys.core.st.state = .writing ∧ start.offset = w.sys.core.st.bytesReceived)
  below : readRange start.sys.core.flash.bytes 0 start.offset.toNat =
    readRange w.sys.core.flash.bytes 0 start.offset.toNat

/-- A session that has just been opened with the size of the body. -/
theorem Opened.of_begin {w : World} {start : StreamStart} {n : UInt32}
    (hst : start.sys.core.st = ⟨.ready, .ok, 0, n⟩) (hoff : start.offset = 0)
    (htotal : start.bodyTotal = n.toNat) : Opened w start where
  standing := ⟨Or.inl (by rw [hst]), by rw [hst, hoff]⟩
  total := by
    rw [hst, hoff, htotal]
    exact Nat.zero_add _
  origin := Or.inl hoff
  below := by
    rw [hoff]
    rfl

theorem bodyTotalOf_ok {rsp : HttpResponse} (hstatus : rsp.status = 200)
    (hlength : rsp.hasContentLength = true) :
    bodyTotalOf rsp = some rsp.contentLength := by
  simp [bodyTotalOf, hstatus, hlength]

/-- A resumed session keeps its size, and the range is its rest. -/
theorem Opened.of_rest {w : World} {start : StreamStart} {rsp : HttpResponse}
    {bodyTotal : UInt32} {slot : FlashArea} (hinv : w.sys.Inv slot)
    (hsys : start.sys = w.sys) (hstate : w.sys.core.st.state = .writing)
    (hoff : start.offset = w.sys.core.st.bytesReceived)
    (hrest : RangeIsRest w.sys.core.st rsp) (hstatus : rsp.status = 206)
    (hrange : rsp.hasContentRange = true)
    (htotal : bodyTotalOf rsp = some bodyTotal)
    (hbody : start.bodyTotal = bodyTotal.toNat) : Opened w start := by
  obtain ⟨hstart, hend⟩ := hrest
  obtain ⟨ses, _, hholds⟩ := hinv.core.live (Or.inr hstate)
  have hreceived : w.sys.core.st.bytesReceived.toNat ≤
      w.sys.core.st.totalSize.toNat := by
    rw [hholds.received, hholds.total]
    exact hholds.bound
  have hlength : bodyTotal = rsp.rangeEnd + 1 - rsp.rangeStart := by
    simpa [bodyTotalOf, hstatus, hrange] using htotal.symm
  refine ⟨⟨Or.inr (by rw [hsys]; exact hstate), by rw [hsys, hoff]⟩, ?_,
    Or.inr ⟨hstate, hoff⟩, by rw [hsys]⟩
  have hsize := w.sys.core.st.totalSize.toNat_lt
  have hsucc : rsp.rangeEnd + 1 = w.sys.core.st.totalSize := by
    apply UInt32.toNat_inj.mp
    rw [UInt32.toNat_add, show (1 : UInt32).toNat = 1 from rfl, hend]
    exact Nat.mod_eq_of_lt hsize
  rw [hbody, hlength, hsucc, hstart, hoff, hsys,
    UInt32.toNat_sub_of_le _ _ (UInt32.le_iff_toNat_le.mpr hreceived)]
  omega

/-- The image download of the task; `w` is the world before `get_status`. -/
abbrev TaskDownload (b : Board) (w : World) :=
  Download b (w.tick b).1 (w.tick b).1.imageUrl (resumeFrom w.sys.core.st)

namespace TaskDownload

variable {b : Board} {w : World}

theorem imageHead (d : TaskDownload b w) (halone : w.Alone) :
    Http.imageHead b w = (d.head, .ok (d.rsp, d.bs)) :=
  (imageHead_eq halone).trans d.hhead

/-- The session that a `begin` with the announced length has opened. -/
theorem reaches_of_begin (d : TaskDownload b w) {idle : World}
    (halone : idle.Alone) (hstatus : d.rsp.status = 200)
    (hlength : d.rsp.hasContentLength = true)
    (hbegin : idle.otaCall b (.begin d.rsp.contentLength) = (d.opened, .ok))
    (hsink : d.sink.otaOffset = 0) : Opened w d.start := by
  have hst := halone.begin_ok (congrArg Prod.snd hbegin)
  rw [hbegin] at hst
  apply Opened.of_begin hst hsink
  have htotal := d.htotal
  rw [bodyTotalOf_ok hstatus hlength] at htotal
  show d.bodyTotal.toNat = _
  rw [Option.some.inj htotal]

/-- Unless the server sends another range, the three ways of the hook end well. -/
theorem reaches (d : TaskDownload b w) (halone : w.Alone) (hinv : w.sys.Inv b.slot)
    (hrange : ¬ OtherEnd b w) : Opened w d.start := by
  obtain ⟨hsys, halone'⟩ := imageHead_still halone (d.imageHead halone)
  have hopened := d.hopened
  unfold imagePreStream at hopened
  rw [d.hchunked, if_neg Bool.false_ne_true] at hopened
  split at hopened
  -- a fresh download
  · split at hopened
    · simp at hopened
    · rename_i hok
      obtain ⟨hstatus, hlength⟩ : d.rsp.status = 200 ∧
          d.rsp.hasContentLength = true := by simpa using hok
      split at hopened
      · rename_i w' hbegin
        simp only [Prod.mk.injEq, true_and] at hopened
        obtain ⟨rfl, hsink⟩ := hopened
        exact d.reaches_of_begin halone' hstatus hlength hbegin (by rw [← hsink])
      · simp at hopened
  rename_i hresume
  split at hopened
  -- the server resumes
  · rename_i h206
    obtain ⟨hstatus, hcontent, hstart⟩ := h206
    simp only [Prod.mk.injEq, true_and] at hopened
    obtain ⟨hworld, hsink⟩ := hopened
    have hrest : RangeIsRest w.sys.core.st d.rsp := by
      by_contra hnot
      exact hrange ⟨d.head, d.rsp, d.bs, ⟨d.imageHead halone, hresume, d.hchunked,
        hstatus, hcontent, hstart⟩, hnot⟩
    refine Opened.of_rest hinv ?_ (resumeFrom_ne_zero hresume).1 ?_ hrest
      hstatus hcontent d.htotal rfl
    · show d.opened.sys = w.sys
      rw [← hworld, hsys]
    · show d.sink.otaOffset = _
      rw [← hsink]
      exact hrest.1
  split at hopened
  -- the server ignores the range
  · rename_i hok
    obtain ⟨hstatus, hlength⟩ := hok
    dsimp only at hopened
    split at hopened
    · rename_i w' hbegin
      simp only [Prod.mk.injEq, true_and] at hopened
      obtain ⟨rfl, hsink⟩ := hopened
      have haborted : Runs b (fun _ => True) d.head (d.head.otaCall b .abort).1 :=
        Runs.otaCall d.head .abort trivial
      exact d.reaches_of_begin (haborted.alone halone') hstatus hlength hbegin
        (by rw [← hsink])
    · simp at hopened
  · simp at hopened

/-- Nobody else has stored anything since the body began. -/
theorem own_log (d : TaskDownload b w) (halone : w.Alone) :
    ∃ since, d.final.sys.log = d.start.sys.log ++ since ∧
      ∀ ev ∈ since, ev.tid = httpTid ∧ ∃ offset data, ev.call = .chunk offset data := by
  have hbegun : d.begun.Alone := d.runs.alone (halone.tick b).2
  obtain ⟨since, hlog, hsince⟩ := (d.stream_runs.trans (Runs.tick _)).own_log hbegun
  exact ⟨since, hlog, fun ev member =>
    ⟨(hsince ev member).1, (hsince ev member).2.2⟩⟩

/-- The last tick of the request changes nothing. -/
theorem final_sys (d : TaskDownload b w) (halone : w.Alone) :
    d.final.sys = d.stream.world.sys ∧ d.final.Alone :=
  (d.stream_runs.alone (d.runs.alone (halone.tick b).2)).tick b

/-- A download that ends well has completed the session. -/
theorem complete (d : TaskDownload b w) (halone : w.Alone) (hready : w.Ready)
    (hinv : w.sys.Inv b.slot) (hrange : ¬ OtherEnd b w) (hrc : d.stream.rc = 0) :
    d.bodyTotal.toNat ≤ d.bs.bytes.length ∧
      ImageComplete w d.final d.sink.otaOffset
        (d.bs.bytes.take d.bodyTotal.toNat) := by
  have hopened := d.reaches halone hinv hrange
  obtain ⟨since, hlog, hsince⟩ := d.own_log halone
  have hund : Undisturbed d.start.sys.log d.final.sys.log := by
    rw [hlog]
    intro ev member n hev
    rw [List.drop_left] at member
    obtain ⟨offset, data, hchunk⟩ := (hsince ev member).2
    rw [hev] at hchunk
    cases hchunk
  obtain ⟨hstands, hcomplete, hlive⟩ :=
    d.stands (((Runs.tick w).trans d.runs).inv hready hinv) hrc hopened.standing hund
  have hown : ∀ ev ∈ d.final.sys.log.drop d.start.sys.log.length,
      ev.tid = httpTid := by
    rw [hlog, List.drop_left]
    exact fun ev member => (hsince ev member).1
  have hflash := hstands.flash
  rw [← (d.final_sys halone).1] at hlive
  obtain ⟨ses, hses, hholds⟩ := hstands.inv.core.live hlive
  rw [hstands.session_of_alone hund hown] at hses
  obtain rfl := Option.some.inj hses
  have htotal : d.final.sys.core.st.totalSize = d.start.sys.core.st.totalSize :=
    hholds.total
  have hlength : (readRange d.start.sys.core.flash.bytes 0 d.start.offset.toNat ++
      d.start.incoming.take d.start.bodyTotal).length =
        d.final.sys.core.st.totalSize.toNat := by
    rw [List.length_append, readRange_length, List.length_take_of_le hcomplete,
      htotal]
    exact hopened.total
  refine ⟨hcomplete, hopened.origin, ?_, ?_⟩
  · exact UInt32.toNat_inj.mp (hholds.received.trans hlength)
  · rw [hlength, hopened.below] at hflash
    exact hflash

end TaskDownload

/-! The stages behind the image leave the session as it is. -/

theorem ImageComplete.congr {w v v' : World} {offset : UInt32} {body : List UInt8}
    (h : ImageComplete w v offset body)
    (hreceived : v'.sys.core.st.bytesReceived = v.sys.core.st.bytesReceived)
    (htotal : v'.sys.core.st.totalSize = v.sys.core.st.totalSize)
    (hflash : v'.sys.core.flash = v.sys.core.flash) :
    ImageComplete w v' offset body where
  origin := h.origin
  received := by rw [hreceived, htotal, h.received]
  slot := by rw [hflash, htotal, h.slot]

/-- The header blob goes to its own buffer. -/
theorem headerStage_runs (b : Board) (w : World) :
    Runs b (fun _ => False) w (headerStage b w).2.1 := by
  unfold headerStage
  split
  · have hrequest : Runs b (fun _ => False) {w with state := .headerDl}
        (httpRequest b {w with state := .headerDl} (headerReq w.headerUrl)).2.1 := by
      refine httpRequest_runs (fun call hcall => ?_) (fun preCb hcb => ?_) _
      · exact absurd hcall.1 (by simp [headerReq])
      · cases hcb
    have hstart : Runs b (fun _ => False) w {w with state := .headerDl} :=
      Runs.own rfl rfl
    show Runs b _ w (httpRequest b {w with state := .headerDl}
      (headerReq w.headerUrl)).2.1
    exact hstart.trans hrequest
  · exact Runs.refl w

/-- A commit that returns `APP_OTA_OK` changes neither the slot nor what has been
received. -/
theorem World.Alone.commit_ok {b : Board} {w : World} (halone : w.Alone)
    {header : List UInt8} (hrc : (w.otaCall b (.commit header)).2 = .ok) :
    (w.otaCall b (.commit header)).1.sys.core.st.bytesReceived =
        w.sys.core.st.bytesReceived ∧
      (w.otaCall b (.commit header)).1.sys.core.st.totalSize =
        w.sys.core.st.totalSize ∧
      (w.otaCall b (.commit header)).1.sys.core.flash = w.sys.core.flash := by
  obtain ⟨d, hcore, hlocked⟩ := halone.otaCall_ok b (by simp) hrc
  simp only [Call.locked, Call.entered] at hcore hlocked
  rw [hcore, (appOtaCommitLocked_ok hlocked).2.2]
  exact ⟨rfl, rfl, rfl⟩

/-- A task that ends with `APP_OTA_HTTP_DONE` keeps what the image stage left. -/
theorem commitStage_complete {b : Board} {w v : World} {header : List UInt8}
    {offset : UInt32} {body : List UInt8} (halone : v.Alone)
    (himage : ImageComplete w v offset body)
    (hdone : (commitStage b v header).state = .done) :
    ImageComplete w (commitStage b v header) offset body := by
  unfold commitStage at hdone ⊢
  split at hdone
  · rename_i hauto
    rw [if_pos hauto]
    split at hdone
    · rename_i committed hcommit
      have hcommitting : World.Alone {v with state := .committing} := halone
      have hframe := hcommitting.commit_ok (congrArg Prod.snd hcommit)
      rw [hcommit] at hframe
      exact himage.congr hframe.1 hframe.2.1 hframe.2.2
    · simp [World.failTask] at hdone
  · rename_i hmanual
    rw [if_neg hmanual]
    exact himage.congr rfl rfl rfl

/-- A task that ends with `APP_OTA_HTTP_DONE` has downloaded its image. -/
theorem httpTask_done {b : Board} {w : World} (hdone : (httpTask b w).state = .done) :
    (imageStage b w).1 = 0 ∧ ∃ header,
      httpTask b w = commitStage b (headerStage b (imageStage b w).2.1).2.1 header := by
  obtain ⟨imgRc, imaged, sink, himage⟩ : ∃ imgRc imaged sink,
      imageStage b w = (imgRc, imaged, sink) := ⟨_, _, _, rfl⟩
  obtain ⟨hdrRc, headed, header, hheader⟩ : ∃ hdrRc headed header,
      headerStage b imaged = (hdrRc, headed, header) := ⟨_, _, _, rfl⟩
  simp only [httpTask, himage, hheader] at hdone ⊢
  by_cases hrc : imgRc = 0
  · by_cases hhrc : hdrRc = 0
    · exact ⟨hrc, header, by simp [hrc, hhrc]⟩
    · simp [hrc, hhrc, World.failTask] at hdone
  · simp [hrc, World.failTask] at hdone

theorem done_complete {b : Board} {w : World} (halone : w.Alone) (hready : w.Ready)
    (hinv : w.sys.Inv b.slot) (hrange : ¬ OtherEnd b w) : DoneComplete b w := by
  intro hdone
  obtain ⟨himage, header, htask⟩ := httpTask_done hdone
  have hrequest : (httpRequest b (w.tick b).1 (imageReq b (w.tick b).1.imageUrl
      (resumeFrom w.sys.core.st))) = imageStage b w := by
    simp only [imageStage, World.getStatus, (halone.tick b).1]
  obtain ⟨d, hrc, hfinal⟩ := imageRequest_ok
    (show (httpRequest b (w.tick b).1 (imageReq b (w.tick b).1.imageUrl
      (resumeFrom w.sys.core.st))).1 = 0 by rw [hrequest, himage])
  obtain ⟨hlength, hcomplete⟩ :=
    TaskDownload.complete d halone hready hinv hrange hrc
  rw [hrequest] at hfinal
  have hstage := headerStage_runs b (imageStage b w).2.1
  have halone' : d.final.Alone := (TaskDownload.final_sys d halone).2
  rw [hfinal] at hstage
  refine ⟨d.head, d.rsp, d.bs, d.bodyTotal, d.sink.otaOffset,
    TaskDownload.imageHead d halone, d.htotal, hlength, ?_⟩
  have hsys := hstage.still halone'
  rw [htask] at hdone ⊢
  rw [hfinal] at hdone ⊢
  exact commitStage_complete (hstage.alone halone')
    (hcomplete.congr (by rw [hsys]) (by rw [hsys]) (by rw [hsys])) hdone

theorem resume_covers_iff {b : Board} {w : World} :
    ResumeCovers b w ↔ ¬ OtherRange b w := by
  constructor
  · rintro hcovers ⟨head, rsp, bs, hresumed, hnot⟩
    refine hnot (hcovers head rsp bs ⟨.otaChunk, 0, [], 0⟩ hresumed.head hresumed.status ?_)
    simp [imagePreStream, hresumed.whole, hresumed.resumes, hresumed.status, hresumed.content,
      hresumed.start]
  · intro hrange head rsp bs sink hhead hstatus hrc
    by_contra hnot
    have hrefused : (imagePreStream b head rsp (resumeFrom w.sys.core.st) sink).1
        ≠ 0 := by
      unfold imagePreStream
      by_cases hchunked : rsp.isChunked = true
      · simp [hchunked]
      by_cases hresume : resumeFrom w.sys.core.st = 0
      · simp [hchunked, hresume, hstatus]
      by_cases haccepted : rsp.hasContentRange = true ∧
          rsp.rangeStart = resumeFrom w.sys.core.st
      · have hresumed : ResumedAt b w head rsp bs :=
          ⟨hhead, hresume, by simpa using hchunked, hstatus, haccepted.1, haccepted.2⟩
        exact absurd ⟨head, rsp, bs, hresumed, hnot⟩ hrange
      · simp [hchunked, hresume, hstatus, haccepted]
    exact hrefused hrc

/-- `APP_OTA_HTTP_DONE` means a complete image, and a 206 answer is the rest of
the session, exactly if no resume is answered by another range. -/
theorem done_complete_iff (b : Board) (w : World) (halone : w.Alone)
    (hready : w.Ready) (hreached : w.sys.Reached b.slot) :
    DoneComplete b w ∧ ResumeCovers b w ↔ ¬ OtherRange b w := by
  rw [resume_covers_iff]
  exact ⟨And.right, fun hrange =>
    ⟨done_complete halone hready hreached.inv (mt OtherEnd.other hrange), hrange⟩⟩

/-- Two bytes of an image of four. -/
def sessionActs : List Act :=
  [.enter 1 (.init none none), .locked 1 .success, .enter 1 (.begin 4),
    .locked 1 .success, .enter 1 (.chunk 0 (ascii "ab")), .locked 1 .success]

def sessionSys : Sys :=
  ((otaSystem board.slot).exec (Sys.powerUp .blank) sessionActs).getD
    (Sys.powerUp .blank)

theorem sessionSys_reached : sessionSys.Reached board.slot :=
  ⟨.blank, sessionActs, rfl⟩

/-- The session is resumed by a server that gives this answer. -/
def resumedBy (answer : String) : World :=
  World.start sessionSys (ascii "http://h/") [⟨0, 0, [1000], [ascii answer]⟩]

theorem resumedBy_alone (answer : String) : (resumedBy answer).Alone := by
  simp [World.Alone, resumedBy, World.start]

/-- The server sends the rest of the image. -/
def restSent : World :=
  resumedBy "HTTP/1.1 206 Partial Content\r\nContent-Range: bytes 2-3/4\r\n\r\ncd"

theorem done_complete_iff_rest :
    (httpTask board restSent).state = .done ∧ DoneComplete board restSent ∧
      ResumeCovers board restSent := by
  refine ⟨by decide +kernel, (done_complete_iff board restSent
    (resumedBy_alone _) rfl sessionSys_reached).mpr ?_⟩
  rintro ⟨head, rsp, bs, hresumed, hnot⟩
  have hcovers : (imageHead board restSent).2.toOption.map (fun final =>
      decide (Covers restSent.sys.core.st (imageHead board restSent).1.hdrbuf final.1)) =
        some true := by
    decide +kernel
  rw [hresumed.head] at hcovers
  exact hnot (by simpa [Except.toOption] using hcovers)

/-- The server sends only the first byte of the rest. -/
def byteSent : World :=
  resumedBy "HTTP/1.1 206 Partial Content\r\nContent-Range: bytes 2-2/4\r\n\r\nc"

/-- The task ends with `APP_OTA_HTTP_DONE` after three bytes of four. -/
theorem done_not_complete :
    ¬ ∀ (b : Board) (w : World), w.Alone → w.Ready → w.sys.Reached b.slot →
      DoneComplete b w ∧ ResumeCovers b w := by
  intro h
  have hcomplete := (h board byteSent (resumedBy_alone _) rfl sessionSys_reached).1
  obtain ⟨_, _, _, _, _, _, _, _, himage⟩ := hcomplete (by decide +kernel)
  have hshort : (httpTask board byteSent).sys.core.st.bytesReceived ≠
      (httpTask board byteSent).sys.core.st.totalSize := by decide +kernel
  exact hshort himage.received

end Rw612.Http
