import Rw612.Http.Request

/-!
`http_task` and the call that starts it. The task downloads the image, then the
optional header blob, and commits if it is told to; every failure goes through
`app_ota_abort`.
-/

namespace Rw612.Http

open Lib Lib.CString Ota

/-- `resume_from`: where a session that is being written stands. -/
def resumeFrom (st : Status) : UInt32 :=
  if st.state = .writing ∧ 0 < st.bytesReceived then st.bytesReceived else 0

/-- The request for the image. -/
def imageReq (b : Board) (imageUrl : List UInt8) (resumeFrom : UInt32) : HttpReq where
  url := imageUrl
  rangeFrom := resumeFrom
  sink := ⟨.otaChunk, resumeFrom, [], 0⟩
  preCb := some (imagePreStream b)

/-- The request for the header blob. -/
def headerReq (headerUrl : List UInt8) : HttpReq where
  url := headerUrl
  rangeFrom := 0
  sink := ⟨.buffer, 0, [], APP_OTA_HTTP_SIGNED_HEADER_MAX⟩
  preCb := none

/-- Stage 1 of `http_task`. -/
def imageStage (b : Board) (w : World) : Int × World × SinkCtx :=
  let (w, st) := w.getStatus b
  httpRequest b w (imageReq b w.imageUrl (resumeFrom st))

/-- Stage 2: the header blob, if there is one to fetch. -/
def headerStage (b : Board) (w : World) : Int × World × List UInt8 :=
  if w.hasHeaderUrl then
    let (rc, w, sink) :=
      httpRequest b {w with state := .headerDl} (headerReq w.headerUrl)
    (rc, w, sink.buf)
  else (0, w, [])

/-- `fail:` -/
def World.failTask (b : Board) (w : World) : World :=
  let (w, _) := w.otaCall b .abort
  {w with state := .failed, running := false}

def World.finishTask (w : World) : World :=
  {w with state := .done, running := false}

/-- Stage 3: the commit, unless it is left to the client. -/
def commitStage (b : Board) (w : World) (header : List UInt8) : World :=
  if w.autoCommit then
    match World.otaCall b {w with state := .committing} (.commit header) with
    | (w, .ok) => w.finishTask
    | (w, _) => w.failTask b
  else w.finishTask

def httpTask (b : Board) (w : World) : World :=
  match imageStage b w with
  | (imgRc, w, _) =>
      if imgRc ≠ 0 then w.failTask b
      else
        match headerStage b w with
        | (hdrRc, w, header) =>
            if hdrRc ≠ 0 then w.failTask b
            else commitStage b w header

/-- `app_ota_http_opts_t`; `none` stands for a NULL pointer. -/
structure HttpOpts where
  imageUrl : Option (List UInt8)
  headerUrl : Option (List UInt8)
  autoCommit : Bool
  deriving DecidableEq, Repr

/-- `app_ota_init(NULL, NULL)`, unless an earlier start has made this call. -/
def World.initOnce (b : Board) (w : World) (tid : Nat) : World :=
  if w.otaCoreInited then w
  else
    {w with
      sys := (w.sys.enter tid (.init none none)).locked b.slot tid
        (.init none none) .success
      otaCoreInited := true}

/-- The header URL, where NULL and the empty string stand for none. -/
def World.storeHeaderUrl (w : World) (headerUrl : Option (List UInt8)) :
    World × Int :=
  match headerUrl.filter (fun hurl => deref hurl != 0) with
  | none => ({w with hasHeaderUrl := false, headerUrl := []}, 0)
  | some hurl =>
      match parseUrl hurl with
      | .error _ => (w, -5)
      | .ok _ =>
          if APP_OTA_HTTP_URL_MAX < strlen hurl then (w, -6)
          else ({w with headerUrl := text hurl, hasHeaderUrl := true}, 0)

/-- The validation of the URLs; each is stored as soon as it is accepted. -/
def World.storeUrls (w : World) (imageUrl : List UInt8)
    (headerUrl : Option (List UInt8)) : World × Int :=
  match parseUrl imageUrl with
  | .error _ => (w, -3)
  | .ok _ =>
      if APP_OTA_HTTP_URL_MAX < strlen imageUrl then (w, -4)
      else World.storeHeaderUrl {w with imageUrl := text imageUrl} headerUrl

/-- `app_ota_http_start`, called on thread `tid`; `created` is whether
`k_thread_create` yields a thread. -/
def appOtaHttpStart (b : Board) (w : World) (tid : Nat) (created : Bool)
    (opts : Option HttpOpts) : World × Int :=
  match opts with
  | none => (w, -1)
  | some opts =>
      match opts.imageUrl with
      | none => (w, -1)
      | some imageUrl =>
          if w.running then (w, -2)
          else
            match (w.initOnce b tid).storeUrls imageUrl opts.headerUrl with
            | (w, 0) =>
                let w := {w with
                  autoCommit := opts.autoCommit
                  running := true
                  state := .resolving}
                if created then (w, 0)
                else ({w with running := false, state := .failed}, -7)
            | (w, rc) => (w, rc)

/-! An image download that succeeds. -/

/-- The successful download of an image: the head at the end of the redirects,
the session that the hook opened or kept, and the body that was read. -/
structure Download (b : Board) (w : World) (imageUrl : List UInt8)
    (resumeFrom : UInt32) where
  head : World
  rsp : HttpResponse
  bs : ByteStream
  opened : World
  sink : SinkCtx
  bodyTotal : UInt32
  hhead : finalHead b resumeFrom APP_OTA_HTTP_MAX_REDIRECTS w (text imageUrl) =
    (head, .ok (rsp, bs))
  hopened : imagePreStream b head rsp resumeFrom ⟨.otaChunk, resumeFrom, [], 0⟩ =
    (0, opened, sink)
  hmode : sink.mode = .otaChunk
  hchunked : rsp.isChunked = false
  htotal : bodyTotalOf rsp = some bodyTotal
  hpos : bodyTotal ≠ 0

namespace Download

variable {b : Board} {w : World} {imageUrl : List UInt8} {resumeFrom : UInt32}

/-- The world in which the body begins. -/
def begun (d : Download b w imageUrl resumeFrom) : World :=
  d.opened.enterBody .otaChunk

def start (d : Download b w imageUrl resumeFrom) : StreamStart :=
  ⟨d.sink.otaOffset, d.begun.sys, d.bs.bytes, d.bodyTotal.toNat⟩

def stream (d : Download b w imageUrl resumeFrom) : Read SinkCtx :=
  streamFixedBody b d.begun d.bs d.sink d.bodyTotal

/-- The world in which the request returns. -/
def final (d : Download b w imageUrl resumeFrom) : World :=
  ((d.stream.world.recordStream d.start d.stream.rc d.stream.out.otaOffset).tick
    b).1

/-- The way to the first body byte. -/
theorem runs (d : Download b w imageUrl resumeFrom) :
    Runs b (fun _ => True) w d.begun := by
  have hhead := finalHead_runs b (fun _ => True) resumeFrom
    APP_OTA_HTTP_MAX_REDIRECTS w (text imageUrl)
  rw [d.hhead] at hhead
  have hopened := (imagePreStream_within b d.head d.rsp resumeFrom
    ⟨.otaChunk, resumeFrom, [], 0⟩).1
  rw [d.hopened] at hopened
  exact (hhead.trans hopened).trans (Runs.own rfl rfl)

/-- The chunks of the body, which are the last calls of the request. -/
theorem stream_runs (d : Download b w imageUrl resumeFrom) :
    Runs b d.sink.mode.calls d.begun
      (d.stream.world.recordStream d.start d.stream.rc d.stream.out.otaOffset) :=
  (streamFixedBodyFrom_runs b d.bodyTotal.toNat d.begun d.bs d.sink 0).1.trans
    (Runs.own rfl rfl)

end Download

theorem imagePreStream_ok {b : Board} {w w' : World} {rsp : HttpResponse}
    {requestedRange : UInt32} {sink sink' : SinkCtx}
    (h : imagePreStream b w rsp requestedRange sink = (0, w', sink')) :
    rsp.isChunked = false ∧ sink'.mode = sink.mode := by
  have hmode := (imagePreStream_within b w rsp requestedRange sink).2
  rw [h] at hmode
  refine ⟨?_, hmode⟩
  cases hchunked : rsp.isChunked with
  | false => rfl
  | true => simp [imagePreStream, hchunked] at h

theorem streamBody_ok {b : Board} {w : World} {rsp : HttpResponse}
    {bs : ByteStream} {sink : SinkCtx} (hchunked : rsp.isChunked = false)
    (h : (streamBody b w rsp bs sink).1 = 0) :
    ∃ bodyTotal, bodyTotalOf rsp = some bodyTotal ∧ bodyTotal ≠ 0 ∧
      (streamRecorded b w bs sink bodyTotal).rc = 0 ∧
      (streamBody b w rsp bs sink).2.1 =
        (streamRecorded b w bs sink bodyTotal).world := by
  unfold streamBody at h ⊢
  simp only [hchunked, Bool.false_eq_true, if_false] at h ⊢
  cases htotal : bodyTotalOf rsp with
  | none => simp [htotal] at h
  | some bodyTotal =>
      simp only [htotal] at h
      by_cases hzero : bodyTotal = 0
      · simp [hzero] at h
      · simp only [if_neg hzero] at h ⊢
        refine ⟨bodyTotal, rfl, hzero, ?_, rfl⟩
        by_contra hrc
        simp [hrc] at h

theorem imageAnswer_ok {b : Board} {w : World} {imageUrl : List UInt8}
    {resumeFrom : UInt32} {rsp : HttpResponse} {bs : ByteStream}
    (hfinal : isRedirect rsp.status = false)
    (h : (httpAnswer b w (imageReq b imageUrl resumeFrom) rsp bs).1 = 0) :
    ∃ opened sink bodyTotal,
      imagePreStream b w rsp resumeFrom ⟨.otaChunk, resumeFrom, [], 0⟩ =
        (0, opened, sink) ∧
      bodyTotalOf rsp = some bodyTotal ∧ bodyTotal ≠ 0 ∧
      (streamRecorded b (opened.enterBody sink.mode) bs sink bodyTotal).rc = 0 ∧
      (httpAnswer b w (imageReq b imageUrl resumeFrom) rsp bs).2.1 =
        (streamRecorded b (opened.enterBody sink.mode) bs sink bodyTotal).world := by
  obtain ⟨prc, opened, sink, hopened⟩ : ∃ prc opened sink,
      imagePreStream b w rsp resumeFrom ⟨.otaChunk, resumeFrom, [], 0⟩ =
        (prc, opened, sink) := ⟨_, _, _, rfl⟩
  have hpre : (imageReq b imageUrl resumeFrom).preStream w rsp =
      (prc, opened, sink) := hopened
  simp only [httpAnswer, hfinal, Bool.false_eq_true, if_false, hpre] at h ⊢
  by_cases hprc : prc = 0
  · subst hprc
    simp only [ne_eq, not_true_eq_false, if_false] at h ⊢
    obtain ⟨bodyTotal, htotal, hpos, hrc, hworld⟩ :=
      streamBody_ok (imagePreStream_ok hopened).1 h
    exact ⟨opened, sink, bodyTotal, hopened, htotal, hpos, hrc, hworld⟩
  · simp [hprc] at h

/-- An image request that returns 0 has streamed a body of known length. -/
theorem imageRequest_ok {b : Board} {w : World} {imageUrl : List UInt8}
    {resumeFrom : UInt32}
    (h : (httpRequest b w (imageReq b imageUrl resumeFrom)).1 = 0) :
    ∃ d : Download b w imageUrl resumeFrom, d.stream.rc = 0 ∧
      (httpRequest b w (imageReq b imageUrl resumeFrom)).2.1 = d.final := by
  unfold httpRequest at h ⊢
  by_cases hlong : APP_OTA_HTTP_URL_MAX < strlen (imageReq b imageUrl resumeFrom).url
  · simp [if_pos hlong] at h
  rw [if_neg hlong, httpRequestFrom_eq] at h ⊢
  have hspec := finalHead_spec b resumeFrom APP_OTA_HTTP_MAX_REDIRECTS w
    (text imageUrl)
  obtain ⟨head, final, hhead⟩ : ∃ head final,
      finalHead b resumeFrom APP_OTA_HTTP_MAX_REDIRECTS w (text imageUrl) =
        (head, final) := ⟨_, _, rfl⟩
  have hhead' : finalHead b (imageReq b imageUrl resumeFrom).rangeFrom
      APP_OTA_HTTP_MAX_REDIRECTS w (text (imageReq b imageUrl resumeFrom).url) =
        (head, final) := hhead
  rw [hhead] at hspec
  rw [hhead'] at h ⊢
  cases final with
  | error rc =>
      have hneg := hspec.1 rc rfl
      have hzero : rc = 0 := h
      omega
  | ok final =>
      obtain ⟨rsp, bs⟩ := final
      obtain ⟨opened, sink, bodyTotal, hopened, htotal, hpos, hrc, hworld⟩ :=
        imageAnswer_ok (hspec.2 rsp bs rfl) h
      obtain ⟨hchunked, hmode⟩ := imagePreStream_ok hopened
      let d : Download b w imageUrl resumeFrom :=
        ⟨head, rsp, bs, opened, sink, bodyTotal, hhead, hopened, hmode, hchunked,
          htotal, hpos⟩
      have hstream : streamRecorded b (opened.enterBody sink.mode) bs sink
          bodyTotal = {d.stream with
            world := d.stream.world.recordStream d.start d.stream.rc
              d.stream.out.otaOffset} := by
        simp only [streamRecorded, hmode]
        rfl
      rw [hstream] at hrc hworld
      refine ⟨d, hrc, ?_⟩
      exact congrArg (fun w => (World.tick b w).1) hworld

end Rw612.Http
