import Rw612.Http.Task

/-!
What an HTTP download leaves to the next one. `app_ota_http_start` initialises
the core on its first run and thereby forgets any session and callback that were
there; and every failure of the task aborts the session, so that a later download
has nothing to resume.
-/

namespace Rw612.Http

open Lib Lib.CString Ota

/-- `s_st`, `s_img_ready`, `s_upload_fa` and the status callback are the same. -/
def SameSession (c c' : Core) : Prop :=
  c'.st = c.st ∧ c'.imgReady = c.imgReady ∧ c'.uploadFa = c.uploadFa ∧
    c'.cb = c.cb ∧ c'.cbArg = c.cbArg

/-- The core as `app_ota_init(NULL, NULL)` leaves it. -/
def Fresh (c : Core) : Prop :=
  c.st = ⟨.idle, .ok, 0, 0⟩ ∧ c.imgReady = false ∧ c.uploadFa = none ∧
    c.cb = none ∧ c.cbArg = none

theorem SameSession.refl (c : Core) : SameSession c c :=
  ⟨rfl, rfl, rfl, rfl, rfl⟩

theorem World.storeHeaderUrl_sys (w : World) (headerUrl : Option (List UInt8)) :
    (w.storeHeaderUrl headerUrl).1.sys = w.sys := by
  unfold World.storeHeaderUrl
  split
  · rfl
  · split
    · rfl
    · split <;> rfl

theorem World.storeUrls_sys (w : World) (imageUrl : List UInt8)
    (headerUrl : Option (List UInt8)) :
    (w.storeUrls imageUrl headerUrl).1.sys = w.sys := by
  unfold World.storeUrls
  split
  · rfl
  · split
    · rfl
    · exact World.storeHeaderUrl_sys _ headerUrl

theorem World.initOnce_core (b : Board) (w : World) (tid : Nat)
    (h : w.otaCoreInited = false) :
    (w.initOnce b tid).sys.core =
      appOtaInitLocked {w.sys.core with inited := true} none none := by
  simp [World.initOnce, h, Sys.locked, Sys.enter, Call.precheck, Call.entered,
    Call.locked]

/-- Beyond its first two checks, a start is `initOnce` as far as the core goes. -/
theorem appOtaHttpStart_sys (b : Board) (w : World) (tid : Nat) (created : Bool)
    {opts : HttpOpts} {imageUrl : List UInt8} (hurl : opts.imageUrl = some imageUrl)
    (hidle : w.running = false) :
    (appOtaHttpStart b w tid created (some opts)).1.sys = (w.initOnce b tid).sys := by
  have hsys := (w.initOnce b tid).storeUrls_sys imageUrl opts.headerUrl
  unfold appOtaHttpStart
  simp only [hurl, hidle, Bool.false_eq_true, if_false]
  split
  · rename_i w' heq
    rw [heq] at hsys
    split <;> exact hsys
  · rename_i w' rc _ heq
    rw [heq] at hsys
    exact hsys

/-- A start leaves the session alone exactly if it stops at its first checks, if
an earlier start has initialised the core, or if there was nothing to lose. -/
theorem http_start_undisturbed_iff (b : Board) (w : World) (tid : Nat)
    (created : Bool) (opts : Option HttpOpts) :
    SameSession w.sys.core (appOtaHttpStart b w tid created opts).1.sys.core ↔
      opts.bind HttpOpts.imageUrl = none ∨ w.running = true ∨
        w.otaCoreInited = true ∨ Fresh w.sys.core := by
  cases opts with
  | none => exact ⟨fun _ => Or.inl rfl, fun _ => SameSession.refl _⟩
  | some opts =>
      cases hurl : opts.imageUrl with
      | none =>
          refine ⟨fun _ => Or.inl (by simpa using hurl), fun _ => ?_⟩
          simp only [appOtaHttpStart, hurl]
          exact SameSession.refl _
      | some imageUrl =>
          cases hrun : w.running with
          | true =>
              refine ⟨fun _ => Or.inr (Or.inl rfl), fun _ => ?_⟩
              simp only [appOtaHttpStart, hurl, hrun, if_true]
              exact SameSession.refl _
          | false =>
              rw [appOtaHttpStart_sys b w tid created hurl hrun]
              cases hinit : w.otaCoreInited with
              | true =>
                  refine ⟨fun _ => Or.inr (Or.inr (Or.inl rfl)), fun _ => ?_⟩
                  simp only [World.initOnce, hinit, if_true]
                  exact SameSession.refl _
              | false =>
                  rw [World.initOnce_core b w tid hinit]
                  constructor
                  · rintro ⟨hst, hready, hfa, hcb, harg⟩
                    exact Or.inr (Or.inr (Or.inr ⟨hst.symm, hready.symm, hfa.symm,
                      hcb.symm, harg.symm⟩))
                  · rintro (hnone | hfalse | hfalse | ⟨hst, hready, hfa, hcb, harg⟩)
                    · simp [hurl] at hnone
                    · cases hfalse
                    · cases hfalse
                    · exact ⟨hst.symm, hready.symm, hfa.symm, hcb.symm, harg.symm⟩

/-- The core after one call of `app_ota_init`. -/
def initedSys (cb : Option Nat) : Sys :=
  ((Sys.powerUp .blank).enter 1 (.init cb none)).locked ⟨8⟩ 1 (.init cb none) .success

def board : Board := ⟨⟨8⟩, fun _ => true⟩

theorem initedSys_reached (cb : Option Nat) : (initedSys cb).Reached board.slot :=
  ⟨.blank, [.enter 1 (.init cb none), .locked 1 .success], rfl⟩

/-- The first start, here with a malformed URL, drops the callback that the BLE
service has registered. -/
theorem http_start_drops_callback :
    ¬ ∀ (b : Board) (w : World) (tid : Nat) (created : Bool)
        (opts : Option HttpOpts),
      w.sys.Reached b.slot → w.sys.core.inited = true →
      SameSession w.sys.core (appOtaHttpStart b w tid created opts).1.sys.core := by
  intro h
  have hsame := h board
    {World.start (initedSys (some 1)) [] [] with
      running := false
      otaCoreInited := false}
    1 true (some ⟨some (ascii "https://h/"), none, false⟩)
    (initedSys_reached (some 1)) rfl
  exact absurd hsame.2.2.2.1 (by decide +kernel)

theorem imageStage_runs (b : Board) (w : World) :
    Runs b (fun _ => True) w (imageStage b w).2.1 := by
  refine (Runs.getStatus w).trans
    (httpRequest_runs (fun _ _ => trivial) (fun preCb hcb => ?_) _)
  obtain rfl : imagePreStream b = preCb := Option.some.inj hcb
  exact imagePreStream_within b

/-- A download that succeeds has read its body to the end. -/
theorem imageStage_streamEnd {b : Board} {w : World} (h : (imageStage b w).1 = 0) :
    ∃ offset, (imageStage b w).2.1.streamEnd = some (0, offset) := by
  obtain ⟨d, hrc, hfinal⟩ := imageRequest_ok h
  refine ⟨d.stream.out.otaOffset, ?_⟩
  have hworld : (imageStage b w).2.1 = d.final := hfinal
  rw [hworld, Download.final, World.tick_own, hrc]
  rfl

/-- The failure exit leaves no session behind. -/
theorem World.failTask_idle {b : Board} {w : World} (hready : w.Ready)
    (hinited : w.sys.core.inited = true) :
    (w.failTask b).sys.core.st.state = .idle := by
  obtain ⟨acts, hacts, _⟩ := (Runs.tick (b := b) (C := fun _ => True) w).exec hready
  have hcheck : Call.abort.precheck (w.tick b).1.sys.core = none := by
    simp [Call.precheck, Sys.inited_of_exec hinited hacts]
  simp only [World.failTask, World.otaCall, hcheck]
  rfl

/-- The request that a task sends first. -/
def firstRequest (b : Board) (w : World) : Option (List UInt8) :=
  match parseUrl w.imageUrl with
  | .error _ => none
  | .ok u => some (requestText u (resumeFrom (w.getStatus b).2))

theorem requestText_range {u : UrlParts} {k : UInt32} (hk : 0 < k) :
    requestText u 0 ≠ requestText u k := by
  intro h
  have hrange := List.append_cancel_left (List.append_cancel_right h)
  rw [if_neg (by decide), if_pos hk] at hrange
  simp [ascii] at hrange

/-- A start on an idle core leaves it idle. -/
theorem appOtaHttpStart_idle {b : Board} {w w' : World} {tid : Nat}
    {created : Bool} {opts : Option HttpOpts} {rc : Int}
    (hidle : w.sys.core.st.state = .idle)
    (h : appOtaHttpStart b w tid created opts = (w', rc)) :
    w'.sys.core.st.state = .idle := by
  obtain rfl : (appOtaHttpStart b w tid created opts).1 = w' := by rw [h]
  cases opts with
  | none => exact hidle
  | some opts =>
      cases hurl : opts.imageUrl with
      | none => simpa only [appOtaHttpStart, hurl] using hidle
      | some imageUrl =>
          cases hrun : w.running with
          | true => simpa only [appOtaHttpStart, hurl, hrun, if_true] using hidle
          | false =>
              rw [appOtaHttpStart_sys b w tid created hurl hrun]
              cases hinit : w.otaCoreInited with
              | true => simpa only [World.initOnce, hinit, if_true] using hidle
              | false =>
                  rw [World.initOnce_core b w tid hinit]
                  rfl

/-- An interrupted download never resumes: the session is gone, and the next
download, if nobody acts before it asks for the status, starts from the
beginning. -/
theorem interrupted_download_forgotten (b : Board) (w : World)
    (hready : w.Ready) (hinited : w.sys.core.inited = true) (k : UInt32)
    (hk : 0 < k) (hend : (imageStage b w).2.1.streamEnd = some (-2, k)) :
    ¬ ((httpTask b w).sys.core.st.state = .writing ∧
      (httpTask b w).sys.core.st.bytesReceived = k) ∧
    ∀ tid opts w', appOtaHttpStart b (httpTask b w) tid true opts = (w', 0) →
      w'.Alone → ∀ u, parseUrl w'.imageUrl = .ok u →
        firstRequest b w' ≠ some (requestText u k) := by
  have hfailed : (imageStage b w).1 ≠ 0 := by
    intro hrc
    obtain ⟨offset, hoffset⟩ := imageStage_streamEnd hrc
    simp [hend] at hoffset
  have htask : httpTask b w = (imageStage b w).2.1.failTask b := by
    unfold httpTask
    simp only [hfailed, ne_eq, not_false_eq_true, if_true]
  obtain ⟨acts, hacts, hready'⟩ := (imageStage_runs b w).exec hready
  have hidle : (httpTask b w).sys.core.st.state = .idle := by
    rw [htask]
    exact World.failTask_idle hready' (Sys.inited_of_exec hinited hacts)
  refine ⟨fun h => by simp [hidle] at h, ?_⟩
  intro tid opts w' hstart halone u hu hfirst
  have hidle' := appOtaHttpStart_idle hidle hstart
  have hresume : resumeFrom (w'.getStatus b).2 = 0 := by
    simp [resumeFrom, World.getStatus, (halone.tick b).1, hidle']
  simp only [firstRequest, hu, hresume, Option.some.injEq] at hfirst
  exact requestText_range hk hfirst

/-- Two of four bytes arrive before the connection fails. -/
def brokenDownload : World :=
  World.start (initedSys none) (ascii "http://h/")
    [⟨0, 0, [1000], [ascii "HTTP/1.1 200 OK\r\nContent-Length: 4\r\n\r\nab"]⟩]

/-- Nobody but the task does anything. -/
def World.Quiet (w : World) : Prop := ∀ s ∈ w.slots, s.others = []

theorem interrupted_download_forgotten_broken :
    (imageStage board brokenDownload).2.1.streamEnd = some (-2, 2) ∧
      ¬ ((httpTask board brokenDownload).sys.core.st.state = .writing ∧
        (httpTask board brokenDownload).sys.core.st.bytesReceived = 2) := by
  have hend : (imageStage board brokenDownload).2.1.streamEnd = some (-2, 2) := by
    decide +kernel
  exact ⟨hend, (interrupted_download_forgotten board brokenDownload rfl rfl 2
    (by decide) hend).1⟩

/-- That download cannot be resumed. -/
theorem interrupted_download_not_resumable :
    ¬ ∀ (b : Board) (w : World) (k : UInt32), w.sys.Reached b.slot → w.Quiet →
      w.Ready → w.sys.core.inited = true → 0 < k →
      (imageStage b w).2.1.streamEnd = some (-2, k) →
      (httpTask b w).sys.core.st.state = .writing ∧
        (httpTask b w).sys.core.st.bytesReceived = k := by
  intro h
  have hquiet : brokenDownload.Quiet := by simp [World.Quiet, brokenDownload,
    World.start]
  have hkept := h board brokenDownload 2 (initedSys_reached none) hquiet rfl rfl
    (by decide) (by decide +kernel)
  have hidle : (httpTask board brokenDownload).sys.core.st.state = .idle := by
    decide +kernel
  rw [hidle] at hkept
  exact absurd hkept.1 (by decide)

end Rw612.Http
