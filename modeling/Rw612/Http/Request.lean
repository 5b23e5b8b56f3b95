import Rw612.Http.Stream

/-!
One HTTP request with its redirects, and the hook that opens or resumes the OTA
session before the first body byte of an image. `finalHead` is the walk along the
redirects alone; `httpRequest_eq` says that a request is this walk followed by the
answer to the head it ends at.
-/

namespace Rw612.Http

open Lib Lib.CString Ota

/-- `data` copied to `buf + off`; the array starts out as zeros. -/
def overwrite (buf : List UInt8) (off : Nat) (data : List UInt8) : List UInt8 :=
  buf.take off ++ List.replicate (off - buf.length) 0 ++ data ++
    buf.drop (off + data.length)

/-- `send_all`, given the results of its calls of `zsock_send`. -/
def sendAll : (sends : List Int) → (len : Nat) → Bool
  | _, 0 => true
  | [], _ => false
  | n :: sends, len => if n ≤ 0 then false else sendAll sends (len - n.toNat)

/-- `http_request_once` up to the request that is sent: the socket. -/
def openRequest (b : Board) (w : World) (url : List UInt8) (rangeFrom : UInt32) :
    World × Except Int (List (List UInt8)) :=
  let w := {w with state := .resolving}
  match parseUrl url with
  | .error _ => (w, .error (-1))
  | .ok u =>
      if b.inetPton u.host = false then (w, .error (-2))
      else
        let w := {w with state := .connecting}
        match w.conns with
        | [] => (w, .error (-3))
        | conn :: conns =>
            let w := {w with conns := conns}
            if conn.sock < 0 then (w, .error (-3))
            else if conn.connectRc ≠ 0 then (w, .error (-4))
            else
              let request := requestText u rangeFrom
              let w := {w with
                state := .requesting
                hdrbuf := overwrite w.hdrbuf 0
                  (request.take (APP_OTA_HTTP_HEADER_MAX - 1) ++ [0])}
              if APP_OTA_HTTP_HEADER_MAX ≤ request.length then (w, .error (-5))
              else if sendAll conn.sends request.length = false then
                (w, .error (-6))
              else ({w with sent := w.sent ++ [request]}, .ok conn.recvs)

/-- The loop that receives the head, with `filled` bytes in the buffer: the
response, and the stream that starts behind its head. -/
def readHead (hdrbuf : List UInt8) (filled : Nat) (recvs : List (List UInt8)) :
    List UInt8 × Except Int (HttpResponse × ByteStream) :=
  if _hfull : filled < APP_OTA_HTTP_HEADER_MAX then
    match _h : recv recvs (APP_OTA_HTTP_HEADER_MAX - filled) with
    | none => (hdrbuf, .error (-8))
    | some (got, recvs) =>
        let hdrbuf := overwrite hdrbuf filled got
        match parseResponseHeaders hdrbuf (filled + got.length) with
        | .ok (parsed, rsp) =>
            (hdrbuf, .ok (rsp,
              ⟨(hdrbuf.drop parsed).take (filled + got.length - parsed), recvs⟩))
        | .error rc =>
            if rc = -1 then readHead hdrbuf (filled + got.length) recvs
            else (hdrbuf, .error (-9))
  else (hdrbuf, .error (-7))
  termination_by APP_OTA_HTTP_HEADER_MAX - filled
  decreasing_by
    have hpos := List.length_pos_iff.mpr (recv_some _h).2.1
    omega

/-- `http_request_once` up to the parsed head. -/
def requestHead (b : Board) (w : World) (url : List UInt8) (rangeFrom : UInt32) :
    World × Except Int (HttpResponse × ByteStream) :=
  match openRequest b w url rangeFrom with
  | (w, .error rc) => (w, .error rc)
  | (w, .ok recvs) =>
      let (hdrbuf, head) := readHead w.hdrbuf 0 recvs
      ({w with hdrbuf := hdrbuf}, head)

/-- `pre_stream_cb_t` -/
abbrev PreStreamCb := World → HttpResponse → UInt32 → SinkCtx → Int × World × SinkCtx

/-- `http_req_t` -/
structure HttpReq where
  url : List UInt8
  rangeFrom : UInt32
  sink : SinkCtx
  preCb : Option PreStreamCb

/-- The length of a body that is not chunked. -/
def bodyTotalOf (rsp : HttpResponse) : Option UInt32 :=
  if rsp.status = 206 ∧ rsp.hasContentRange = true then
    some (rsp.rangeEnd + 1 - rsp.rangeStart)
  else if (rsp.status = 200 ∨ rsp.status = 201) ∧ rsp.hasContentLength = true then
    some rsp.contentLength
  else none

/-- An image body has been read, with this result and this final offset. -/
def World.recordStream (w : World) (start : StreamStart) (rc : Int)
    (offset : UInt32) : World :=
  {w with stream := some start, streamEnd := some (rc, offset)}

/-- A fixed-length body; if it is that of an image, it is recorded. -/
def streamRecorded (b : Board) (w : World) (bs : ByteStream) (sink : SinkCtx)
    (bodyTotal : UInt32) : Read SinkCtx :=
  let r := streamFixedBody b w bs sink bodyTotal
  match sink.mode with
  | .buffer => r
  | .otaChunk =>
      let start := ⟨sink.otaOffset, w.sys, bs.bytes, bodyTotal.toNat⟩
      {r with world := r.world.recordStream start r.rc r.out.otaOffset}

/-- The body of a final response. -/
def streamBody (b : Board) (w : World) (rsp : HttpResponse) (bs : ByteStream)
    (sink : SinkCtx) : Int × World × SinkCtx :=
  if rsp.isChunked then
    let r := streamChunkedBody b w bs sink
    (if r.rc ≠ 0 then -14 else 0, r.world, r.out)
  else
    match bodyTotalOf rsp with
    | none => (-12, w, sink)
    | some bodyTotal =>
        if bodyTotal = 0 then (-13, w, sink)
        else
          let r := streamRecorded b w bs sink bodyTotal
          (if r.rc ≠ 0 then -15 else 0, r.world, r.out)

/-- The hook, if there is one, before the first body byte. -/
def HttpReq.preStream (r : HttpReq) (w : World) (rsp : HttpResponse) :
    Int × World × SinkCtx :=
  match r.preCb with
  | none => (0, w, r.sink)
  | some preCb => preCb w rsp r.rangeFrom r.sink

/-- `s_state` while a body is read. -/
def World.enterBody (w : World) (mode : SinkMode) : World :=
  {w with state := match mode with
    | .otaChunk => .downloading
    | .buffer => .headerDl}

/-- `http_request_once` from the parsed head on. -/
def httpAnswer (b : Board) (w : World) (r : HttpReq) (rsp : HttpResponse)
    (bs : ByteStream) : Int × World × SinkCtx :=
  if isRedirect rsp.status then
    (if rsp.hasLocation then 1 else -10, w, r.sink)
  else
    match r.preStream w rsp with
    | (prc, w, sink) =>
        if prc ≠ 0 then (-11, w, sink)
        else streamBody b (w.enterBody sink.mode) rsp bs sink

/-- `http_request_once`; other threads run once more before it returns. -/
def httpRequestOnce (b : Board) (w : World) (r : HttpReq) :
    Int × World × SinkCtx × HttpResponse :=
  match requestHead b w r.url r.rangeFrom with
  | (w, .error rc) => (rc, (w.tick b).1, r.sink, .zero)
  | (w, .ok (rsp, bs)) =>
      let (rc, w, sink) := httpAnswer b w r rsp bs
      (rc, (w.tick b).1, sink, rsp)

/-- The loop of `http_request`, with `hops` more redirects allowed. -/
def httpRequestFrom (b : Board) (r : HttpReq) (hops : Nat) (w : World)
    (workingUrl : List UInt8) (sink : SinkCtx) : Int × World × SinkCtx :=
  match httpRequestOnce b w {r with url := workingUrl, sink := sink} with
  | (rc, w, sink, rsp) =>
      if rc ≠ 1 then (rc, w, sink)
      else
        match hops with
        | 0 => (-1, w, sink)
        | hops + 1 =>
            if APP_OTA_HTTP_URL_MAX < strlen rsp.location then (-101, w, sink)
            else httpRequestFrom b r hops w (text rsp.location) sink

def httpRequest (b : Board) (w : World) (r : HttpReq) : Int × World × SinkCtx :=
  if APP_OTA_HTTP_URL_MAX < strlen r.url then (-1, w, r.sink)
  else httpRequestFrom b r APP_OTA_HTTP_MAX_REDIRECTS w (text r.url) r.sink

def imagePreStream (b : Board) : PreStreamCb := fun w rsp requestedRange sink =>
  if rsp.isChunked then (-10, w, sink)
  else if requestedRange = 0 then
    if rsp.status ≠ 200 ∨ rsp.hasContentLength = false then (-1, w, sink)
    else
      match w.otaCall b (.begin rsp.contentLength) with
      | (w, .ok) => (0, w, {sink with otaOffset := 0})
      | (w, _) => (-2, w, sink)
  else if rsp.status = 206 ∧ rsp.hasContentRange = true ∧
      rsp.rangeStart = requestedRange then
    (0, w, {sink with otaOffset := rsp.rangeStart})
  else if rsp.status = 200 ∧ rsp.hasContentLength = true then
    -- the server ignored the range: the session is restarted
    let (w, _) := w.otaCall b .abort
    match w.otaCall b (.begin rsp.contentLength) with
    | (w, .ok) => (0, w, {sink with otaOffset := 0})
    | (w, _) => (-3, w, sink)
  else (-4, w, sink)

/-- The redirects of `http_request` alone: the first head that is none. -/
def finalHead (b : Board) (rangeFrom : UInt32) (hops : Nat) (w : World)
    (workingUrl : List UInt8) :
    World × Except Int (HttpResponse × ByteStream) :=
  match requestHead b w workingUrl rangeFrom with
  | (w, .error rc) => ((w.tick b).1, .error rc)
  | (w, .ok (rsp, bs)) =>
      if isRedirect rsp.status then
        let w := (w.tick b).1
        if rsp.hasLocation = false then (w, .error (-10))
        else
          match hops with
          | 0 => (w, .error (-1))
          | hops + 1 =>
              if APP_OTA_HTTP_URL_MAX < strlen rsp.location then
                (w, .error (-101))
              else finalHead b rangeFrom hops w (text rsp.location)
      else (w, .ok (rsp, bs))

/-! The parts of a request, and what they do to the world. -/

theorem openRequest_spec (b : Board) (w : World) (url : List UInt8)
    (rangeFrom : UInt32) :
    (openRequest b w url rangeFrom).1.sys = w.sys ∧
      (openRequest b w url rangeFrom).1.slots = w.slots ∧
      ∀ rc, (openRequest b w url rangeFrom).2 = .error rc → rc < 0 := by
  unfold openRequest
  cases parseUrl url with
  | error rc => exact ⟨rfl, rfl, by simp⟩
  | ok u =>
      by_cases hhost : b.inetPton u.host = false
      · simp [hhost]
      · cases hconns : w.conns with
        | nil => simp [hhost]
        | cons conn conns =>
            simp only [if_neg hhost]
            split
            · exact ⟨rfl, rfl, by simp⟩
            · split
              · exact ⟨rfl, rfl, by simp⟩
              · split
                · exact ⟨rfl, rfl, by simp⟩
                · split
                  · exact ⟨rfl, rfl, by simp⟩
                  · exact ⟨rfl, rfl, by simp⟩

theorem readHead_error (hdrbuf : List UInt8) (filled : Nat)
    (recvs : List (List UInt8)) :
    ∀ rc, (readHead hdrbuf filled recvs).2 = .error rc → rc < 0 := by
  fun_induction readHead hdrbuf filled recvs with
  | case1 => simp
  | case2 => simp
  | case3 _ _ _ _ _ _ _ _ _ ih => exact ih
  | case4 => simp
  | case5 => simp

theorem requestHead_spec (b : Board) (w : World) (url : List UInt8)
    (rangeFrom : UInt32) :
    (requestHead b w url rangeFrom).1.sys = w.sys ∧
      (requestHead b w url rangeFrom).1.slots = w.slots ∧
      ∀ rc, (requestHead b w url rangeFrom).2 = .error rc → rc < 0 := by
  obtain ⟨hsys, hslots, herror⟩ := openRequest_spec b w url rangeFrom
  unfold requestHead
  cases hopen : openRequest b w url rangeFrom with
  | mk w' socket =>
      rw [hopen] at hsys hslots herror
      cases socket with
      | error rc => exact ⟨hsys, hslots, by simpa using herror⟩
      | ok recvs => exact ⟨hsys, hslots, readHead_error _ _ _⟩

theorem streamBody_rc (b : Board) (w : World) (rsp : HttpResponse)
    (bs : ByteStream) (sink : SinkCtx) : (streamBody b w rsp bs sink).1 ≠ 1 := by
  unfold streamBody
  split
  · dsimp only
    split <;> decide
  · split
    · simp
    · split
      · simp
      · dsimp only
        split <;> decide

/-- Only a redirect is answered with 1. -/
theorem httpAnswer_rc (b : Board) (w : World) (r : HttpReq) (rsp : HttpResponse)
    (bs : ByteStream) (hfinal : isRedirect rsp.status = false) :
    (httpAnswer b w r rsp bs).1 ≠ 1 := by
  unfold httpAnswer
  rw [hfinal, if_neg Bool.false_ne_true]
  split
  split
  · simp
  · exact streamBody_rc b _ rsp bs _

/-- What a request does once its final head is there. -/
def httpFinish (b : Board) (r : HttpReq) (sink : SinkCtx) :
    World × Except Int (HttpResponse × ByteStream) → Int × World × SinkCtx
  | (w, .error rc) => (rc, w, sink)
  | (w, .ok (rsp, bs)) =>
      let (rc, w, sink) := httpAnswer b w {r with sink := sink} rsp bs
      (rc, (w.tick b).1, sink)

/-- The three ways in which one hop goes: no head, a redirect, a final answer. -/
theorem httpRequestOnce_cases (b : Board) (w : World) (r : HttpReq) :
    (∃ w' rc, requestHead b w r.url r.rangeFrom = (w', .error rc) ∧ rc ≠ 1 ∧
      httpRequestOnce b w r = (rc, (w'.tick b).1, r.sink, .zero)) ∨
    (∃ w' rsp bs, requestHead b w r.url r.rangeFrom = (w', .ok (rsp, bs)) ∧
      isRedirect rsp.status = true ∧
      httpRequestOnce b w r =
        (if rsp.hasLocation then 1 else -10, (w'.tick b).1, r.sink, rsp)) ∨
    (∃ w' rsp bs, requestHead b w r.url r.rangeFrom = (w', .ok (rsp, bs)) ∧
      isRedirect rsp.status = false ∧ (httpAnswer b w' r rsp bs).1 ≠ 1 ∧
      httpRequestOnce b w r = ((httpAnswer b w' r rsp bs).1,
        ((httpAnswer b w' r rsp bs).2.1.tick b).1,
        (httpAnswer b w' r rsp bs).2.2, rsp)) := by
  cases hhead : requestHead b w r.url r.rangeFrom with
  | mk w' head =>
      cases head with
      | error rc =>
          have hneg : rc < 0 :=
            (requestHead_spec b w r.url r.rangeFrom).2.2 rc (by rw [hhead])
          have hrc : rc ≠ 1 := by omega
          exact Or.inl ⟨w', rc, rfl, hrc, by simp only [httpRequestOnce, hhead]⟩
      | ok final =>
          obtain ⟨rsp, bs⟩ := final
          cases hredirect : isRedirect rsp.status with
          | true =>
              refine Or.inr (Or.inl ⟨w', rsp, bs, rfl, hredirect, ?_⟩)
              simp only [httpRequestOnce, hhead, httpAnswer, hredirect, if_true]
          | false =>
              refine Or.inr (Or.inr ⟨w', rsp, bs, rfl, hredirect,
                httpAnswer_rc b w' r rsp bs hredirect, ?_⟩)
              simp only [httpRequestOnce, hhead]

/-- A request is the walk along the redirects and then the answer to the head
at its end. -/
theorem httpRequestFrom_eq (b : Board) (r : HttpReq) (hops : Nat) (w : World)
    (workingUrl : List UInt8) (sink : SinkCtx) :
    httpRequestFrom b r hops w workingUrl sink =
      httpFinish b r sink (finalHead b r.rangeFrom hops w workingUrl) := by
  induction hops generalizing w workingUrl with
  | zero =>
      rw [httpRequestFrom, finalHead]
      rcases httpRequestOnce_cases b w {r with url := workingUrl, sink := sink}
        with ⟨w', rc, hhead, hrc, honce⟩ | ⟨w', rsp, bs, hhead, hredirect, honce⟩ |
          ⟨w', rsp, bs, hhead, hfinal, hrc, honce⟩
      · simp only [honce, hhead, hrc, ne_eq, not_false_eq_true, if_true,
          httpFinish]
      · simp only [honce, hhead, hredirect, if_true]
        cases rsp.hasLocation <;> rfl
      · simp only [honce, hhead, hfinal, hrc, ne_eq, not_false_eq_true, if_true,
          Bool.false_eq_true, if_false]
        rfl
  | succ hops ih =>
      rw [httpRequestFrom, finalHead]
      rcases httpRequestOnce_cases b w {r with url := workingUrl, sink := sink}
        with ⟨w', rc, hhead, hrc, honce⟩ | ⟨w', rsp, bs, hhead, hredirect, honce⟩ |
          ⟨w', rsp, bs, hhead, hfinal, hrc, honce⟩
      · simp only [honce, hhead, hrc, ne_eq, not_false_eq_true, if_true,
          httpFinish]
      · simp only [honce, hhead, hredirect, if_true]
        cases rsp.hasLocation with
        | false => rfl
        | true =>
            simp only [if_true, ne_eq, not_true_eq_false, if_false,
              Bool.true_eq_false]
            split
            · rfl
            · exact ih _ _
      · simp only [honce, hhead, hfinal, hrc, ne_eq, not_false_eq_true, if_true,
          Bool.false_eq_true, if_false]
        rfl

theorem requestHead_runs (b : Board) (C : Call → Prop) (w : World)
    (url : List UInt8) (rangeFrom : UInt32) :
    Runs b C w (requestHead b w url rangeFrom).1 := by
  obtain ⟨hsys, hslots, _⟩ := requestHead_spec b w url rangeFrom
  exact Runs.own hsys hslots

/-- The walk along the redirects touches nothing but its own variables. -/
theorem finalHead_runs (b : Board) (C : Call → Prop) (rangeFrom : UInt32)
    (hops : Nat) (w : World) (workingUrl : List UInt8) :
    Runs b C w (finalHead b rangeFrom hops w workingUrl).1 := by
  induction hops generalizing w workingUrl with
  | zero =>
      have hhead := requestHead_runs b C w workingUrl rangeFrom
      unfold finalHead
      split <;> rename_i heq <;> rw [heq] at hhead
      · exact hhead.trans (Runs.tick _)
      · split
        · split <;> exact hhead.trans (Runs.tick _)
        · exact hhead
  | succ hops ih =>
      have hhead := requestHead_runs b C w workingUrl rangeFrom
      unfold finalHead
      split <;> rename_i heq <;> rw [heq] at hhead
      · exact hhead.trans (Runs.tick _)
      · split
        · have htick := hhead.trans (Runs.tick (b := b) _)
          dsimp only
          split
          · exact htick
          · split
            · exact htick
            · exact htick.trans (ih _ _)
        · exact hhead

theorem finalHead_spec (b : Board) (rangeFrom : UInt32) (hops : Nat) (w : World)
    (workingUrl : List UInt8) :
    (∀ rc, (finalHead b rangeFrom hops w workingUrl).2 = .error rc → rc < 0) ∧
      ∀ rsp bs, (finalHead b rangeFrom hops w workingUrl).2 = .ok (rsp, bs) →
        isRedirect rsp.status = false := by
  induction hops generalizing w workingUrl with
  | zero =>
      have herror := (requestHead_spec b w workingUrl rangeFrom).2.2
      unfold finalHead
      split <;> rename_i heq <;> rw [heq] at herror
      · exact ⟨herror, by simp⟩
      · split
        · dsimp only
          split
          · exact ⟨by simp, by simp⟩
          · exact ⟨by simp, by simp⟩
        · rename_i hfinal
          refine ⟨by simp, fun rsp bs hok => ?_⟩
          simp only [Except.ok.injEq, Prod.mk.injEq] at hok
          obtain ⟨rfl, rfl⟩ := hok
          simpa using hfinal
  | succ hops ih =>
      have herror := (requestHead_spec b w workingUrl rangeFrom).2.2
      unfold finalHead
      split <;> rename_i heq <;> rw [heq] at herror
      · exact ⟨herror, by simp⟩
      · split
        · dsimp only
          split
          · exact ⟨by simp, by simp⟩
          · split
            · exact ⟨by simp, by simp⟩
            · exact ih _ _
        · rename_i hfinal
          refine ⟨by simp, fun rsp bs hok => ?_⟩
          simp only [Except.ok.injEq, Prod.mk.injEq] at hok
          obtain ⟨rfl, rfl⟩ := hok
          simpa using hfinal

/-- A hook that makes only calls from `C` and keeps the mode of the sink. -/
def PreStreamCb.Within (b : Board) (C : Call → Prop) (preCb : PreStreamCb) : Prop :=
  ∀ w rsp requestedRange sink,
    Runs b C w (preCb w rsp requestedRange sink).2.1 ∧
      (preCb w rsp requestedRange sink).2.2.mode = sink.mode

theorem imagePreStream_within (b : Board) :
    PreStreamCb.Within b (fun _ => True) (imagePreStream b) := by
  intro w rsp requestedRange sink
  unfold imagePreStream
  split
  · exact ⟨Runs.refl w, rfl⟩
  split
  · split
    · exact ⟨Runs.refl w, rfl⟩
    · have hbegin := Runs.otaCall (b := b) (C := fun _ => True) w
        (.begin rsp.contentLength) trivial
      split <;> rename_i heq <;> rw [heq] at hbegin <;> exact ⟨hbegin, rfl⟩
  split
  · exact ⟨Runs.refl w, rfl⟩
  split
  · have habort := Runs.otaCall (b := b) (C := fun _ => True) w .abort
      trivial
    have hbegin := Runs.otaCall (b := b) (C := fun _ => True)
      (w.otaCall b .abort).1 (.begin rsp.contentLength) trivial
    dsimp only
    split <;> rename_i heq <;> rw [heq] at hbegin <;>
      exact ⟨habort.trans hbegin, rfl⟩
  · exact ⟨Runs.refl w, rfl⟩

theorem streamRecorded_runs (b : Board) (w : World) (bs : ByteStream)
    (sink : SinkCtx) (bodyTotal : UInt32) :
    Runs b sink.mode.calls w (streamRecorded b w bs sink bodyTotal).world := by
  have hstream := (streamFixedBodyFrom_runs b bodyTotal.toNat w bs sink 0).1
  unfold streamRecorded
  cases hmode : sink.mode with
  | buffer =>
      rw [hmode] at hstream
      exact hstream
  | otaChunk =>
      rw [hmode] at hstream
      exact hstream.trans (Runs.own rfl rfl)

theorem streamBody_runs (b : Board) (w : World) (rsp : HttpResponse)
    (bs : ByteStream) (sink : SinkCtx) :
    Runs b sink.mode.calls w (streamBody b w rsp bs sink).2.1 := by
  unfold streamBody
  split
  · exact (streamChunkedBody_runs b w bs sink).1
  · split
    · exact Runs.refl w
    · split
      · exact Runs.refl w
      · exact streamRecorded_runs b w bs sink _

theorem HttpReq.preStream_runs {b : Board} {C : Call → Prop} {r : HttpReq}
    (hpre : ∀ preCb, r.preCb = some preCb → PreStreamCb.Within b C preCb)
    (w : World) (rsp : HttpResponse) :
    Runs b C w (r.preStream w rsp).2.1 ∧
      (r.preStream w rsp).2.2.mode = r.sink.mode := by
  unfold HttpReq.preStream
  cases hcb : r.preCb with
  | none => exact ⟨Runs.refl w, rfl⟩
  | some preCb => exact hpre preCb hcb w rsp r.rangeFrom r.sink

theorem httpAnswer_runs {b : Board} {C : Call → Prop} {r : HttpReq}
    (hsink : ∀ call, r.sink.mode.calls call → C call)
    (hpre : ∀ preCb, r.preCb = some preCb → PreStreamCb.Within b C preCb)
    (w : World) (rsp : HttpResponse) (bs : ByteStream) :
    Runs b C w (httpAnswer b w r rsp bs).2.1 := by
  obtain ⟨hhook, hmode⟩ := HttpReq.preStream_runs hpre w rsp
  unfold httpAnswer
  split
  · exact Runs.refl w
  · dsimp only
    split
    · exact hhook
    · have hbody := streamBody_runs b
        ((r.preStream w rsp).2.1.enterBody (r.preStream w rsp).2.2.mode) rsp bs
        (r.preStream w rsp).2.2
      have henter : Runs b C (r.preStream w rsp).2.1
          ((r.preStream w rsp).2.1.enterBody (r.preStream w rsp).2.2.mode) :=
        Runs.own rfl rfl
      exact (hhook.trans henter).trans
        (hbody.mono (fun call hcall => hsink call (hmode ▸ hcall)))

theorem httpRequest_runs {b : Board} {C : Call → Prop} {r : HttpReq}
    (hsink : ∀ call, r.sink.mode.calls call → C call)
    (hpre : ∀ preCb, r.preCb = some preCb → PreStreamCb.Within b C preCb)
    (w : World) : Runs b C w (httpRequest b w r).2.1 := by
  unfold httpRequest
  split
  · exact Runs.refl w
  rw [httpRequestFrom_eq]
  have hhead := finalHead_runs b C r.rangeFrom APP_OTA_HTTP_MAX_REDIRECTS w
    (text r.url)
  cases hfinal : finalHead b r.rangeFrom APP_OTA_HTTP_MAX_REDIRECTS w (text r.url)
    with
  | mk w' head =>
      rw [hfinal] at hhead
      cases head with
      | error rc => exact hhead
      | ok final =>
          exact (hhead.trans (httpAnswer_runs hsink hpre w' final.1 final.2)).trans
            (Runs.tick _)

end Rw612.Http
