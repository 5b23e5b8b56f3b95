import Rw612.Http.Arrival
import Rw612.Http.Chunked
import Rw612.Http.Complete

/-!
An update from a server that does its part. Nobody disturbs the task, no driver call
fails, and every connection carries the request and then an answer, in segments of
any size. The chain of redirects is followed to its end, and the session that is
opened, resumed or restarted takes the body to the last byte.
-/

namespace Rw612.Http

open Lib Lib.CString Ota

/-- The task runs, nobody else acts, and no call of a driver fails. -/
structure World.Calm (w : World) : Prop where
  running : w.running = true
  slots : ∀ s ∈ w.slots, s.others = [] ∧ s.driver.Succeeds

theorem World.Calm.alone {w : World} (h : w.Calm) : w.Alone := by
  intro s hs o ho
  rw [(h.slots s hs).1] at ho
  cases ho

theorem World.Calm.tick {w : World} (h : w.Calm) (b : Board) :
    (w.tick b).1 = {w with slots := w.slots.tail} ∧ (w.tick b).2.Succeeds := by
  unfold World.tick
  cases hslots : w.slots with
  | nil =>
      dsimp only
      refine ⟨?_, by constructor <;> decide⟩
      rw [List.tail_nil, ← hslots]
  | cons s slots =>
      obtain ⟨hothers, hdriver⟩ := h.slots s (by simp [hslots])
      dsimp only
      rw [hothers]
      exact ⟨rfl, hdriver⟩

/-- What a step leaves to the stages that follow. -/
structure World.Onward (w w' : World) : Prop where
  calm : w'.Calm
  conns : w'.conns = w.conns
  headerUrl : w'.headerUrl = w.headerUrl
  hasHeaderUrl : w'.hasHeaderUrl = w.hasHeaderUrl
  autoCommit : w'.autoCommit = w.autoCommit

namespace World.Onward

variable {b : Board} {w w' w'' : World}

theorem refl (h : w.Calm) : w.Onward w := ⟨h, rfl, rfl, rfl, rfl⟩

theorem trans (h : w.Onward w') (h' : w'.Onward w'') : w.Onward w'' where
  calm := h'.calm
  conns := h'.conns.trans h.conns
  headerUrl := h'.headerUrl.trans h.headerUrl
  hasHeaderUrl := h'.hasHeaderUrl.trans h.hasHeaderUrl
  autoCommit := h'.autoCommit.trans h.autoCommit

theorem tick (h : w.Calm) (b : Board) : w.Onward (w.tick b).1 := by
  rw [(h.tick b).1]
  refine ⟨⟨h.running, fun s hs => h.slots s (List.mem_of_mem_tail hs)⟩, rfl, rfl, rfl, rfl⟩

end World.Onward

/-- A call of the task that passes its checks. -/
theorem World.Calm.otaCall {b : Board} {w : World} {call : Call} (h : w.Calm)
    (hcheck : call.precheck w.sys.core = none) :
    ∃ d w', d.Succeeds ∧ w.Onward w' ∧
      w.otaCall b call = (w', (call.locked b.slot (call.entered w.sys.core) d).2) ∧
      w'.sys.core = (call.locked b.slot (call.entered w.sys.core) d).1 := by
  have hticked := World.Onward.tick h b
  have hcheck' : call.precheck (w.tick b).1.sys.core = none := by
    rw [(h.tick b).1]
    exact hcheck
  have hentering : World.Calm ((w.tick b).1.entering call) :=
    ⟨hticked.calm.running, hticked.calm.slots⟩
  obtain ⟨hlast, hdriver⟩ := hentering.tick b
  have hcore : (((w.tick b).1.entering call).tick b).1.sys.core = call.entered w.sys.core := by
    rw [hlast, (h.tick b).1]
    simp [World.entering, Sys.enter, hcheck]
  have hrest := World.Onward.tick hentering b
  refine ⟨(((w.tick b).1.entering call).tick b).2, ((w.tick b).1.lockedCall b call).1, hdriver,
    ?_, ?_, ?_⟩
  · exact ⟨⟨hrest.calm.running, hrest.calm.slots⟩, hrest.conns.trans hticked.conns,
      hrest.headerUrl.trans hticked.headerUrl, hrest.hasHeaderUrl.trans hticked.hasHeaderUrl,
      hrest.autoCommit.trans hticked.autoCommit⟩
  · simp only [World.otaCall, hcheck']
    refine Prod.ext rfl ?_
    simp only [World.lockedCall, hcore]
  · simp only [World.lockedCall, Sys.locked, hcore]

/-! The session that takes the body. -/

/-- A live session has been prepared. -/
def Prepared (c : Core) : Prop := c.live → c.imgReady = true

theorem Call.locked_prepared (slot : FlashArea) {c : Core} (h : Prepared c) (d : Driver)
    (call : Call) : Prepared (call.locked slot c d).1 := by
  have hidle {c : Core} (hstate : c.st.state ≠ .ready ∧ c.st.state ≠ .writing) : Prepared c :=
    fun hlive => absurd hlive (by simp [Core.live, hstate.1, hstate.2])
  cases call with
  | init cb userArg => exact hidle (by simp [Call.locked, appOtaInitLocked])
  | begin totalSize =>
      rcases appOtaBeginLocked_cases slot c d totalSize with
        ⟨-, -, -, heq⟩ | ⟨-, hfailed, -⟩
      · rw [Call.locked, heq]
        exact fun _ => rfl
      · exact hidle (by simp [Call.locked, hfailed])
  | chunk offset data =>
      have hready : (c.flashWrite d offset data).imgReady = c.imgReady := by
        unfold Core.flashWrite
        split <;> rfl
      rcases appOtaChunkLocked_cases c d offset data with
        ⟨hnot, heq⟩ | ⟨-, -, heq⟩ | ⟨-, -, heq⟩ | ⟨-, -, -, -, heq⟩ | ⟨hlive, -, -, -, heq⟩
      · rw [Call.locked, heq]
        exact fun hlive => absurd hlive hnot
      · rw [Call.locked, heq]
        exact h
      · rw [Call.locked, heq]
        exact hidle (by simp [Core.fail])
      · rw [Call.locked, heq]
        exact hidle (by simp [Core.fail])
      · rw [Call.locked, heq]
        intro _
        exact hready.trans (h hlive)
  | commit header =>
      rcases appOtaCommitLocked_cases c d with
        ⟨-, heq⟩ | ⟨-, -, heq⟩ | ⟨-, heq⟩ | ⟨-, -, heq⟩
      · rw [Call.locked, heq]
        exact h
      · rw [Call.locked, heq]
        exact h
      · rw [Call.locked, heq]
        exact hidle (by simp [Core.fail])
      · rw [Call.locked, heq]
        exact hidle (by simp)
  | abort => exact hidle (by simp [Call.locked, appOtaAbortLocked])

theorem Sys.Reached.prepared {slot : FlashArea} {s : Sys} (h : s.Reached slot) :
    Prepared s.core := by
  obtain ⟨flash, acts, hrun⟩ := h
  let Inv (s : Sys) : Prop := Prepared s.core
  suffices hinv : Inv s from hinv
  refine System.exec_invariant ?_ ?_ hrun
  · intro s s' a hs hstep
    rcases Sys.step_cases hstep with ⟨tid, call, -, rfl⟩ | ⟨tid, call, d, -, -, rfl⟩
    · intro hlive
      have hentered : (s.enter tid call).core.imgReady = s.core.imgReady := by
        unfold Sys.enter
        split
        · rfl
        · cases call <;> rfl
      rw [hentered]
      apply hs
      rw [Core.live, ← (s.enter_core tid call).1]
      exact hlive
    · exact Call.locked_prepared slot hs d call
  · intro hlive
    simp [Sys.powerUp, Core.powerUp, Core.live] at hlive

/-- The session stands at `offset` and has room for `n` bytes. -/
structure Taking (c : Core) (offset : UInt32) (n : Nat) : Prop where
  inited : c.inited = true
  prepared : c.imgReady = true
  live : c.live
  received : c.st.bytesReceived = offset
  room : offset.toNat + n ≤ c.st.totalSize.toNat

/-- The next bytes of the body are stored. -/
theorem Taking.chunk {c : Core} {offset : UInt32} {data : List UInt8} {n : Nat} {d : Driver}
    (h : Taking c offset (data.length + n)) (hd : d.Succeeds) :
    (appOtaChunkLocked c d offset data).2 = .ok ∧
      (appOtaChunkLocked c d offset data).1.st.state = .writing ∧
      Taking (appOtaChunkLocked c d offset data).1 (offset + UInt32.ofNat data.length) n := by
  have hroom := h.room
  have htotal := c.st.totalSize.toNat_lt
  rcases appOtaChunkLocked_cases c d offset data with
    ⟨hnot, -⟩ | ⟨-, hoff, -⟩ | ⟨-, -, heq⟩ | ⟨-, -, -, hrc, -⟩ | ⟨-, -, -, -, heq⟩
  · exact absurd h.live hnot
  · exact absurd h.received.symm hoff
  · exfalso
    unfold appOtaChunkLocked at heq
    rw [if_neg ((Core.live_iff c).mp h.live), if_neg (not_not.mpr h.received.symm),
      if_neg (by omega)] at heq
    have hrc := hd.writeRc
    dsimp only at heq
    rw [if_neg (by omega)] at heq
    simp at heq
  · have hwrite := hd.writeRc
    omega
  · have hinited : (c.flashWrite d offset data).imgReady = c.imgReady := by
      unfold Core.flashWrite
      split <;> rfl
    rw [heq]
    refine ⟨rfl, rfl, ?_, ?_, Or.inr rfl, ?_, ?_⟩
    · exact (c.flashWrite_inited d offset data).trans h.inited
    · exact hinited.trans h.prepared
    · rw [h.received]
    · show (offset + UInt32.ofNat data.length).toNat + n ≤ c.st.totalSize.toNat
      rw [UInt32.toNat_add, UInt32.toNat_ofNat']
      omega

theorem Taking.precheck {c : Core} {offset : UInt32} {data : List UInt8} {n : Nat}
    (h : Taking c offset n) (hne : data ≠ []) (hshort : data.length ≤ APP_OTA_HTTP_RX_CHUNK) :
    (Call.chunk offset data).precheck c = none := by
  have hmax : APP_OTA_HTTP_RX_CHUNK = 1024 := rfl
  rw [Call.precheck, h.inited, h.prepared, if_neg (by decide), if_neg hne, if_neg (by omega),
    if_neg (by decide)]

/-! The sink of a body. -/

/-- The sink has room for `n` bytes. -/
def SinkTakes (w : World) (sink : SinkCtx) (n : Nat) : Prop :=
  match sink.mode with
  | .otaChunk => Taking w.sys.core sink.otaOffset n
  | .buffer => sink.buf.length + n ≤ sink.bufCap

/-- The sink of `w'` has taken `data` since `w`: an OTA session has gone on, a buffer
has grown. -/
structure Took (w : World) (sink : SinkCtx) (data : List UInt8) (w' : World)
    (sink' : SinkCtx) : Prop where
  onward : w.Onward w'
  mode : sink'.mode = sink.mode
  writing : sink.mode = .otaChunk → data ≠ [] → w'.sys.core.st.state = .writing
  buffered : sink.mode = .buffer → w'.sys = w.sys ∧ sink'.buf = sink.buf ++ data

theorem Took.trans {w w' w'' : World} {sink sink' sink'' : SinkCtx} {data data' : List UInt8}
    (h : Took w sink data w' sink') (h' : Took w' sink' data' w'' sink'')
    (hkeeps : data' = [] → w''.sys = w'.sys) : Took w sink (data ++ data') w'' sink'' where
  onward := h.onward.trans h'.onward
  mode := h'.mode.trans h.mode
  writing := by
    intro hmode hne
    by_cases hlast : data' = []
    · rw [hkeeps hlast]
      apply h.writing hmode
      rwa [hlast, List.append_nil] at hne
    · exact h'.writing (h.mode.trans hmode) hlast
  buffered := by
    intro hmode
    obtain ⟨hsys, hbuf⟩ := h.buffered hmode
    obtain ⟨hsys', hbuf'⟩ := h'.buffered (h.mode.trans hmode)
    exact ⟨hsys'.trans hsys, by rw [hbuf', hbuf, List.append_assoc]⟩

theorem sinkWrite_takes {b : Board} {w : World} {sink : SinkCtx} {data : List UInt8} {n : Nat}
    (hcalm : w.Calm) (htakes : SinkTakes w sink (data.length + n)) (hne : data ≠ [])
    (hshort : data.length ≤ APP_OTA_HTTP_RX_CHUNK) :
    ∃ w' sink', sinkWrite b w sink data = (0, w', sink') ∧ Took w sink data w' sink' ∧
      SinkTakes w' sink' n := by
  cases hmode : sink.mode with
  | otaChunk =>
      have htaking : Taking w.sys.core sink.otaOffset (data.length + n) := by
        simpa only [SinkTakes, hmode] using htakes
      obtain ⟨d, w', hd, honward, hcall, hcore⟩ :=
        hcalm.otaCall (b := b) (htaking.precheck hne hshort)
      obtain ⟨hok, hwriting, hnext⟩ := htaking.chunk hd
      have hrc : ((Call.chunk sink.otaOffset data).locked b.slot
          ((Call.chunk sink.otaOffset data).entered w.sys.core) d).2 = .ok := hok
      rw [hrc] at hcall
      refine ⟨w', {sink with otaOffset := sink.otaOffset + UInt32.ofNat data.length}, ?_,
        ⟨honward, rfl, fun _ _ => ?_, fun hbuffer => ?_⟩, ?_⟩
      · simp only [sinkWrite, hmode, hcall]
      · rw [hcore]
        exact hwriting
      · rw [hmode] at hbuffer
        cases hbuffer
      · simp only [SinkTakes, hmode]
        rw [hcore]
        exact hnext
  | buffer =>
      have hroom : sink.buf.length + (data.length + n) ≤ sink.bufCap := by
        simpa only [SinkTakes, hmode] using htakes
      refine ⟨w, {sink with buf := sink.buf ++ data}, sinkWrite_buffer hmode (by omega),
        ⟨.refl hcalm, rfl, fun hota => ?_, fun _ => ⟨rfl, rfl⟩⟩, ?_⟩
      · rw [hmode] at hota
        cases hota
      · simp only [SinkTakes, hmode, List.length_append]
        omega

/-- A body that is there is taken to its end. -/
theorem streamFixedBodyFrom_takes {b : Board} {bodyTotal : Nat} {w : World} {bs : ByteStream}
    {sink : SinkCtx} {seen : Nat} (hcalm : w.Calm)
    (hthere : bodyTotal - seen ≤ bs.bytes.length)
    (htakes : SinkTakes w sink (bodyTotal - seen)) :
    let r := streamFixedBodyFrom b bodyTotal w bs sink seen
    r.rc = 0 ∧ Took w sink (bs.bytes.take (bodyTotal - seen)) r.world r.out ∧
      SinkTakes r.world r.out 0 ∧ (bodyTotal ≤ seen → r.world.sys = w.sys) := by
  have hwant {seen : Nat} (hseen : seen < bodyTotal) :
      0 < min (bodyTotal - seen) APP_OTA_HTTP_RX_CHUNK := by
    simp [APP_OTA_HTTP_RX_CHUNK]
    omega
  fun_induction streamFixedBodyFrom b bodyTotal w bs sink seen with
  | case1 w bs sink seen hseen w₁ hstop =>
      simp [(World.Onward.tick hcalm b).calm.running, w₁] at hstop
  | case2 w bs sink seen hseen w₁ _ hnone =>
      rw [bsReadSome_none (hwant hseen) hnone, List.length_nil] at hthere
      omega
  | case3 w bs sink seen hseen w₁ _ got bs' hread wrc w' sink' hwrite hrefused =>
      obtain ⟨-, hne, hlength⟩ := bsReadSome_some hread (hwant hseen)
      have hsplit : bodyTotal - seen = got.length + (bodyTotal - seen - got.length) := by omega
      have htakes' : SinkTakes w₁ sink (got.length + (bodyTotal - seen - got.length)) := by
        rw [← hsplit]
        simpa only [SinkTakes, w₁, (hcalm.tick b).1] using htakes
      obtain ⟨w'', sink'', hok, -, -⟩ := sinkWrite_takes (b := b)
        (World.Onward.tick hcalm b).calm htakes' hne (Nat.le_trans hlength (Nat.min_le_right _ _))
      cases hwrite.symm.trans hok
      exact absurd rfl hrefused
  | case4 w bs sink seen hseen w₁ _ got bs' hread wrc w' sink' hwrite hwrc ih =>
      obtain ⟨hbytes, hne, hlength⟩ := bsReadSome_some hread (hwant hseen)
      have hsplit : bodyTotal - seen = got.length + (bodyTotal - seen - got.length) := by omega
      have htakes' : SinkTakes w₁ sink (got.length + (bodyTotal - seen - got.length)) := by
        rw [← hsplit]
        simpa only [SinkTakes, w₁, (hcalm.tick b).1] using htakes
      obtain ⟨w'', sink'', hok, htook, hnext⟩ := sinkWrite_takes (b := b)
        (World.Onward.tick hcalm b).calm htakes' hne (Nat.le_trans hlength (Nat.min_le_right _ _))
      cases hwrite.symm.trans hok
      have hrest : bodyTotal - (seen + got.length) = bodyTotal - seen - got.length := by omega
      rw [hbytes, List.length_append] at hthere
      rw [← hrest] at hnext
      obtain ⟨hrc, hlater, hlast, hstill⟩ := ih htook.onward.calm (by omega) hnext
      have hticked : Took w sink [] w₁ sink := by
        refine ⟨World.Onward.tick hcalm b, rfl, fun _ hnil => absurd rfl hnil, fun _ => ?_⟩
        rw [List.append_nil]
        exact ⟨by simp only [w₁, (hcalm.tick b).1], rfl⟩
      refine ⟨hrc, ?_, hlast, fun hdone => absurd hseen (Nat.not_lt.mpr hdone)⟩
      have htake : bs.bytes.take (bodyTotal - seen) =
          got ++ bs'.bytes.take (bodyTotal - (seen + got.length)) := by
        rw [hbytes, List.take_append, List.take_of_length_le (by omega), hrest]
      rw [htake, ← List.nil_append (got ++ _)]
      refine hticked.trans (htook.trans hlater fun hnil => hstill ?_) fun hnil => ?_
      · rcases List.take_eq_nil_iff.mp hnil with hzero | hempty
        · omega
        · rw [hempty, List.length_nil] at hthere
          omega
      · exact absurd (List.append_eq_nil_iff.mp hnil).1 hne
  | case5 w bs sink seen hdone =>
      have hzero : bodyTotal - seen = 0 := by omega
      rw [hzero] at htakes ⊢
      refine ⟨rfl, ⟨.refl hcalm, rfl, fun _ hnil => absurd rfl hnil, fun _ => ?_⟩, htakes,
        fun _ => rfl⟩
      rw [List.take_zero, List.append_nil]
      exact ⟨rfl, rfl⟩

/-! The way to the body. -/

/-- The server of `url` answers with `head` and, behind it, `after`. -/
structure Answers (b : Board) (rangeFrom : UInt32) (url : List UInt8) (conn : Conn) (head : Head)
    (after : List UInt8) : Prop where
  plain : head.Plain
  fits : head.bytes.length ≤ APP_OTA_HTTP_HEADER_MAX
  carries : ∃ u, parseUrl (text url) = .ok u ∧ b.inetPton u.host = true ∧
    conn.Carries (requestText u rangeFrom) (head.bytes ++ after)

/-- The connections that lead from a URL, over redirects, to an answer that is none. -/
inductive Leads (b : Board) (rangeFrom : UInt32) (rsp : HttpResponse) (after : List UInt8) :
    Nat → List UInt8 → List Conn → List Conn → Prop where
  | final {hops : Nat} {url : List UInt8} {conn : Conn} {conns : List Conn} {head : Head}
      (hanswer : Answers b rangeFrom url conn head after) (hrsp : head.response = rsp)
      (hfinal : isRedirect rsp.status = false) :
      Leads b rangeFrom rsp after hops url (conn :: conns) conns
  | redirect {hops : Nat} {url : List UInt8} {conn : Conn} {conns conns' : List Conn}
      {head : Head} {rest : List UInt8} (hanswer : Answers b rangeFrom url conn head rest)
      (hredirect : isRedirect head.response.status = true)
      (hlocation : head.response.hasLocation = true)
      (hshort : strlen head.response.location ≤ APP_OTA_HTTP_URL_MAX)
      (hnext : Leads b rangeFrom rsp after hops head.response.location conns conns') :
      Leads b rangeFrom rsp after (hops + 1) url (conn :: conns) conns'

theorem requestHead_answers {b : Board} {w : World} {rangeFrom : UInt32} {url : List UInt8}
    {conn : Conn} {conns : List Conn} {head : Head} {after : List UInt8} (hcalm : w.Calm)
    (h : Answers b rangeFrom url conn head after) (hconns : w.conns = conn :: conns) :
    ∃ w' bs, requestHead b w (text url) rangeFrom = (w', .ok (head.response, bs)) ∧
      bs.bytes = after ∧ w'.sys = w.sys ∧ World.Onward {w with conns := conns} w' := by
  obtain ⟨u, hurl, hhost, hcarries⟩ := h.carries
  obtain ⟨w', bs, hrequest, hbytes, hframe⟩ :=
    requestHead_carried h.plain h.fits hurl hhost hconns hcarries
  refine ⟨w', bs, hrequest, hbytes, by rw [hframe], ?_⟩
  rw [hframe]
  exact ⟨⟨hcalm.running, hcalm.slots⟩, rfl, rfl, rfl, rfl⟩

theorem finalHead_leads {b : Board} {rangeFrom : UInt32} {rsp : HttpResponse}
    {after : List UInt8} {hops : Nat} {url : List UInt8} {conns conns' : List Conn}
    (h : Leads b rangeFrom rsp after hops url conns conns') {w : World} (hcalm : w.Calm)
    (hconns : w.conns = conns) :
    ∃ w' bs, finalHead b rangeFrom hops w (text url) = (w', .ok (rsp, bs)) ∧
      bs.bytes = after ∧ w'.sys = w.sys ∧ World.Onward {w with conns := conns'} w' ∧
      isRedirect rsp.status = false := by
  induction h generalizing w with
  | final hanswer hrsp hfinal =>
      obtain ⟨w', bs, hrequest, hbytes, hsys, honward⟩ :=
        requestHead_answers hcalm hanswer hconns
      rw [hrsp] at hrequest
      refine ⟨w', bs, ?_, hbytes, hsys, honward, hfinal⟩
      unfold finalHead
      simp only [hrequest, hfinal, Bool.false_eq_true, if_false]
  | redirect hanswer hredirect hlocation hshort hnext ih =>
      obtain ⟨w', bs, hrequest, -, hsys, honward⟩ := requestHead_answers hcalm hanswer hconns
      have hticked := World.Onward.tick honward.calm b
      obtain ⟨w'', bs'', hlater, hbytes, hsys'', honward'', hfinal⟩ :=
        ih hticked.calm (hticked.conns.trans honward.conns)
      refine ⟨w'', bs'', ?_, hbytes, ?_, ?_, hfinal⟩
      · unfold finalHead
        simp only [hrequest, hredirect, if_true, hlocation, Bool.true_eq_false, if_false,
          if_neg (Nat.not_lt.mpr hshort)]
        exact hlater
      · rw [hsys'', (honward.calm.tick b).1, hsys]
      · exact ⟨honward''.calm, honward''.conns,
          honward''.headerUrl.trans (hticked.headerUrl.trans honward.headerUrl),
          honward''.hasHeaderUrl.trans (hticked.hasHeaderUrl.trans honward.hasHeaderUrl),
          honward''.autoCommit.trans (hticked.autoCommit.trans honward.autoCommit)⟩

theorem Took.of_own {w w' v : World} {sink sink' : SinkCtx} {data : List UInt8}
    (h : Took w sink data w' sink') (honward : w'.Onward v) (hsys : v.sys = w'.sys) :
    Took w sink data v sink' where
  onward := h.onward.trans honward
  mode := h.mode
  writing := by
    rw [hsys]
    exact h.writing
  buffered := by
    rw [hsys]
    exact h.buffered

theorem SinkTakes.of_own {w v : World} {sink : SinkCtx} {n : Nat} (h : SinkTakes w sink n)
    (hsys : v.sys = w.sys) : SinkTakes v sink n := by
  unfold SinkTakes at h ⊢
  rwa [hsys]

theorem streamRecorded_takes {b : Board} {w : World} {bs : ByteStream} {sink : SinkCtx}
    {n : UInt32} {body more : List UInt8} (hcalm : w.Calm) (hbytes : bs.bytes = body ++ more)
    (hsize : n.toNat = body.length) (htakes : SinkTakes w sink body.length) :
    let r := streamRecorded b w bs sink n
    r.rc = 0 ∧ Took w sink body r.world r.out ∧ SinkTakes r.world r.out 0 := by
  have hbody : bs.bytes.take (n.toNat - 0) = body := by
    rw [Nat.sub_zero, hsize, hbytes, List.take_left]
  have hthere : n.toNat - 0 ≤ bs.bytes.length := by
    rw [hbytes, List.length_append]
    omega
  have htakes' : SinkTakes w sink (n.toNat - 0) := by
    rw [Nat.sub_zero, hsize]
    exact htakes
  obtain ⟨hrc, htook, hlast, -⟩ := streamFixedBodyFrom_takes (b := b) hcalm hthere htakes'
  rw [hbody] at htook
  unfold streamRecorded
  cases sink.mode with
  | buffer => exact ⟨hrc, htook, hlast⟩
  | otaChunk =>
      refine ⟨hrc, htook.of_own ⟨?_, rfl, rfl, rfl, rfl⟩ rfl, hlast.of_own rfl⟩
      exact ⟨htook.onward.calm.running, htook.onward.calm.slots⟩

/-- A request whose hook prepares the sink for the body that comes. -/
theorem httpRequest_served {b : Board} {w : World} {r : HttpReq} {rsp : HttpResponse}
    {body more : List UInt8} {conns : List Conn} {n : UInt32} (hcalm : w.Calm)
    (hurl : strlen r.url ≤ APP_OTA_HTTP_URL_MAX)
    (hleads : Leads b r.rangeFrom rsp (body ++ more) APP_OTA_HTTP_MAX_REDIRECTS r.url w.conns conns)
    (hchunked : rsp.isChunked = false) (htotal : bodyTotalOf rsp = some n)
    (hsize : n.toNat = body.length) (hne : body ≠ [])
    (hpre : ∀ w₁ : World, w₁.Calm → w₁.sys = w.sys →
      ∃ w₂ sink, r.preStream w₁ rsp = (0, w₂, sink) ∧ Took w₁ r.sink [] w₂ sink ∧
        SinkTakes w₂ sink body.length) :
    ∃ w' sink', httpRequest b w r = (0, w', sink') ∧
      Took {w with conns := conns} r.sink body w' sink' ∧ SinkTakes w' sink' 0 := by
  obtain ⟨w₁, bs, hhead, hbytes, hsys, honward, hfinal⟩ := finalHead_leads hleads hcalm rfl
  obtain ⟨w₂, sink, hhook, hready, htakes⟩ := hpre w₁ honward.calm hsys
  have hpos : n ≠ 0 := by
    rintro rfl
    exact hne (List.length_eq_zero_iff.mp hsize.symm)
  have hbegun : w₂.Onward (w₂.enterBody sink.mode) :=
    ⟨⟨hready.onward.calm.running, hready.onward.calm.slots⟩, rfl, rfl, rfl, rfl⟩
  obtain ⟨hrc, htook, hlast⟩ := streamRecorded_takes (b := b) hbegun.calm hbytes hsize
    (htakes.of_own rfl)
  have hbody : streamBody b (w₂.enterBody sink.mode) rsp bs sink =
      (0, (streamRecorded b (w₂.enterBody sink.mode) bs sink n).world,
        (streamRecorded b (w₂.enterBody sink.mode) bs sink n).out) := by
    simp only [streamBody, hchunked, Bool.false_eq_true, if_false, htotal, if_neg hpos, hrc,
      ne_eq, not_true_eq_false]
  have hticked := World.Onward.tick htook.onward.calm b
  have hstill : ((streamRecorded b (w₂.enterBody sink.mode) bs sink n).world.tick b).1.sys =
      (streamRecorded b (w₂.enterBody sink.mode) bs sink n).world.sys := by
    rw [(htook.onward.calm.tick b).1]
  refine ⟨((streamRecorded b (w₂.enterBody sink.mode) bs sink n).world.tick b).1, _, ?_, ?_,
    hlast.of_own hstill⟩
  · rw [httpRequest, if_neg (Nat.not_lt.mpr hurl), httpRequestFrom_eq, hhead]
    simp only [httpFinish, httpAnswer, hfinal, Bool.false_eq_true, if_false]
    rw [show HttpReq.preStream {r with sink := r.sink} w₁ rsp = (0, w₂, sink) from hhook]
    simp only [ne_eq, not_true_eq_false, if_false, hbody]
  · have hfirst : Took {w with conns := conns} r.sink [] w₂ sink :=
      ⟨honward.trans hready.onward, hready.mode, fun _ hnil => absurd rfl hnil, fun hmode => by
        rw [(hready.buffered hmode).1, hsys]
        exact ⟨rfl, (hready.buffered hmode).2⟩⟩
    have hsecond : Took w₂ sink body _ _ :=
      ⟨hbegun.trans htook.onward, htook.mode, htook.writing, htook.buffered⟩
    have hwhole := hfirst.trans hsecond fun hnil => absurd hnil hne
    rw [List.nil_append] at hwhole
    exact hwhole.of_own hticked hstill

/-! The hook of the image. -/

/-- The whole image, or the rest of it from `rangeFrom` on. -/
inductive Offers (image : List UInt8) (rangeFrom : UInt32) (rsp : HttpResponse) :
    List UInt8 → Prop where
  | whole (hstatus : rsp.status = 200) (hlength : rsp.hasContentLength = true)
      (hsize : rsp.contentLength.toNat = image.length) : Offers image rangeFrom rsp image
  | rest (hpos : 0 < rangeFrom) (hpart : rangeFrom.toNat < image.length)
      (hstatus : rsp.status = 206) (hrange : rsp.hasContentRange = true)
      (hstart : rsp.rangeStart = rangeFrom) (hend : rsp.rangeEnd.toNat + 1 = image.length)
      (htotal : rsp.rangeTotal = 0 ∨ rsp.rangeTotal.toNat = image.length) :
      Offers image rangeFrom rsp (image.drop rangeFrom.toNat)

theorem Offers.size {image body : List UInt8} {rangeFrom : UInt32} {rsp : HttpResponse}
    (h : Offers image rangeFrom rsp body) :
    ∃ n, bodyTotalOf rsp = some n ∧ n.toNat = body.length := by
  cases h with
  | whole hstatus hlength hsize => exact ⟨_, bodyTotalOf_ok hstatus hlength, hsize⟩
  | rest hpos hpart hstatus hrange hstart hend htotal =>
      refine ⟨rsp.rangeEnd + 1 - rsp.rangeStart, by rw [bodyTotalOf, if_pos ⟨hstatus, hrange⟩], ?_⟩
      have hlt := rsp.rangeEnd.toNat_lt
      have hfrom := rangeFrom.toNat_lt
      rw [hstart, UInt32.toNat_sub, UInt32.toNat_add, List.length_drop]
      change (4294967296 - rangeFrom.toNat + (rsp.rangeEnd.toNat + 1) % 4294967296) % 4294967296 = _
      rcases Nat.lt_or_ge (rsp.rangeEnd.toNat + 1) 4294967296 with hlow | hhigh
      · rw [Nat.mod_eq_of_lt hlow]
        omega
      · have hall : rsp.rangeEnd.toNat + 1 = 4294967296 := by omega
        have hnat : 0 < rangeFrom.toNat := UInt32.lt_iff_toNat_lt.mp hpos
        rw [hall, Nat.mod_self, Nat.add_zero, Nat.mod_eq_of_lt (by omega), ← hend, hall]

/-- A new session of the size that was announced. -/
theorem World.Calm.begin {b : Board} {w : World} {n : UInt32} (h : w.Calm)
    (hinited : w.sys.core.inited = true) (hn : n ≠ 0) (hfits : n.toNat ≤ b.slot.faSize) :
    ∃ w', w.otaCall b (.begin n) = (w', .ok) ∧ w.Onward w' ∧ Taking w'.sys.core 0 n.toNat := by
  have hcheck : (Call.begin n).precheck w.sys.core = none := by
    rw [Call.precheck, hinited, if_neg (by decide), if_neg hn]
  obtain ⟨d, w', hd, honward, hcall, hcore⟩ := h.otaCall (b := b) hcheck
  have hok : (appOtaBeginLocked b.slot w.sys.core d n).2 = .ok := by
    simp [appOtaBeginLocked, otaPrepareStorage, hd.openRc, hd.openFa, hd.eraseRc,
      Nat.not_lt.mpr hfits]
  have hcore' : w'.sys.core = (appOtaBeginLocked b.slot w.sys.core d n).1 := hcore
  refine ⟨w', ?_, honward, ?_⟩
  · rw [hcall]
    exact Prod.ext rfl hok
  · rw [hcore', appOtaBeginLocked_ok hok]
    refine ⟨hinited, rfl, Or.inl rfl, rfl, ?_⟩
    exact Nat.le_of_eq (Nat.zero_add _)

theorem World.Calm.abort {b : Board} {w : World} (h : w.Calm)
    (hinited : w.sys.core.inited = true) :
    w.Onward (w.otaCall b .abort).1 ∧ (w.otaCall b .abort).1.sys.core.inited = true := by
  have hcheck : Call.abort.precheck w.sys.core = none := by
    rw [Call.precheck, hinited]
    rfl
  obtain ⟨d, w', hd, honward, hcall, hcore⟩ := h.otaCall (b := b) hcheck
  rw [hcall]
  refine ⟨honward, ?_⟩
  rw [hcore]
  exact hinited

/-- Where a resume would start, the session holds what comes before it. -/
def Resumes (c : Core) (image : List UInt8) : Prop :=
  resumeFrom c.st ≠ 0 → c.st.totalSize.toNat = image.length ∧
    readRange c.flash.bytes 0 c.st.bytesReceived.toNat = image.take c.st.bytesReceived.toNat

/-- The hook opens, keeps or restarts the session. -/
theorem imagePreStream_offers {b : Board} {w : World} {image body : List UInt8}
    {rsp : HttpResponse} (hcalm : w.Calm) (hinited : w.sys.core.inited = true)
    (hprepared : Prepared w.sys.core) (hresumes : Resumes w.sys.core image)
    (hne : image ≠ []) (hfits : image.length ≤ b.slot.faSize) (hchunked : rsp.isChunked = false)
    (hoffers : Offers image (resumeFrom w.sys.core.st) rsp body) :
    let sink : SinkCtx := ⟨.otaChunk, resumeFrom w.sys.core.st, [], 0⟩
    ∃ w' sink', imagePreStream b w rsp (resumeFrom w.sys.core.st) sink = (0, w', sink') ∧
      Took w sink [] w' sink' ∧ SinkTakes w' sink' body.length ∧
      readRange w.sys.core.flash.bytes 0 sink'.otaOffset.toNat ++ body = image := by
  intro sink
  have htook {w' : World} {sink' : SinkCtx} (honward : w.Onward w')
      (hmode : sink'.mode = .otaChunk) : Took w sink [] w' sink' :=
    ⟨honward, hmode, fun _ hnil => absurd rfl hnil, fun hbuffer => by cases hbuffer⟩
  cases hoffers with
  | whole hstatus hlength hsize =>
      have hn : rsp.contentLength ≠ 0 := by
        intro hzero
        rw [hzero] at hsize
        exact hne (List.length_eq_zero_iff.mp hsize.symm)
      have hroom : rsp.contentLength.toNat ≤ b.slot.faSize := hsize ▸ hfits
      by_cases hfresh : resumeFrom w.sys.core.st = 0
      · obtain ⟨w', hbegin, honward, htaking⟩ := hcalm.begin hinited hn hroom
        refine ⟨w', {sink with otaOffset := 0}, ?_, htook honward rfl, ?_, rfl⟩
        · simp only [imagePreStream, hchunked, Bool.false_eq_true, if_false, hfresh, if_true,
            hstatus, hlength, ne_eq, not_true_eq_false, Bool.true_eq_false, or_self, hbegin]
        · rw [← hsize]
          exact htaking
      · obtain ⟨haborted, hstill⟩ := hcalm.abort (b := b) hinited
        obtain ⟨w', hbegin, honward, htaking⟩ := haborted.calm.begin hstill hn hroom
        refine ⟨w', {sink with otaOffset := 0}, ?_, htook (haborted.trans honward) rfl, ?_, rfl⟩
        · have hnot206 : ¬(rsp.status = 206 ∧ rsp.hasContentRange = true ∧
              rsp.rangeStart = resumeFrom w.sys.core.st) := by
            rw [hstatus]
            rintro ⟨h206, -⟩
            cases h206
          simp only [imagePreStream, hchunked, Bool.false_eq_true, if_false, if_neg hfresh,
            if_neg hnot206]
          simp only [hstatus, hlength, and_self, if_true, hbegin]
        · rw [← hsize]
          exact htaking
  | rest hpos hpart hstatus hrange hstart hend htotal =>
      have hfrom : resumeFrom w.sys.core.st ≠ 0 := by
        intro hzero
        rw [hzero] at hpos
        exact absurd hpos (by decide)
      obtain ⟨hstate, hreceived⟩ := resumeFrom_ne_zero hfrom
      obtain ⟨hsize, hheld⟩ := hresumes hfrom
      refine ⟨w, {sink with otaOffset := rsp.rangeStart}, ?_, htook (.refl hcalm) rfl, ?_, ?_⟩
      · simp only [imagePreStream, hchunked, Bool.false_eq_true, if_false, if_neg hfrom, hstatus,
          hrange, hstart, and_self, if_true]
      · have hroom : rsp.rangeStart.toNat +
            (image.drop (resumeFrom w.sys.core.st).toNat).length ≤
              w.sys.core.st.totalSize.toNat := by
          rw [hstart, hsize, List.length_drop]
          omega
        exact ⟨hinited, hprepared (Or.inr hstate), Or.inr hstate,
          hreceived.symm.trans hstart.symm, hroom⟩
      · show readRange w.sys.core.flash.bytes 0 rsp.rangeStart.toNat ++ _ = image
        rw [hstart, hreceived, hheld, List.take_append_drop]

/-! The stages of the task. -/

/-- The header blob is there. -/
structure HeaderServed (b : Board) (url : List UInt8) (conns : List Conn) (header : List UInt8) :
    Prop where
  shortUrl : strlen url ≤ APP_OTA_HTTP_URL_MAX
  notEmpty : header ≠ []
  fits : header.length ≤ APP_OTA_HTTP_SIGNED_HEADER_MAX
  servers : ∃ rsp more conns', rsp.isChunked = false ∧ Offers header 0 rsp header ∧
    Leads b 0 rsp (header ++ more) APP_OTA_HTTP_MAX_REDIRECTS url conns conns'

/-- The image, and the header blob if it is asked for, can be had; a session that is
to be resumed has begun with the same image. -/
structure Served (b : Board) (w : World) (image header : List UInt8) : Prop where
  calm : w.Calm
  ready : w.Ready
  reached : w.sys.Reached b.slot
  inited : w.sys.core.inited = true
  shortUrl : strlen w.imageUrl ≤ APP_OTA_HTTP_URL_MAX
  notEmpty : image ≠ []
  fits : image.length ≤ b.slot.faSize
  resumes : Resumes w.sys.core image
  servers : ∃ rsp body more conns, rsp.isChunked = false ∧
    Offers image (resumeFrom w.sys.core.st) rsp body ∧
    Leads b (resumeFrom w.sys.core.st) rsp (body ++ more) APP_OTA_HTTP_MAX_REDIRECTS w.imageUrl
      w.conns conns ∧
    (w.hasHeaderUrl = true → HeaderServed b w.headerUrl conns header)

/-- The task has ended well: the slot holds the image, and it has been committed if
that was asked for. -/
structure Installed (w w' : World) (image : List UInt8) : Prop where
  done : w'.state = .done
  stopped : w'.running = false
  slot : readRange w'.sys.core.flash.bytes 0 image.length = image
  received : w'.sys.core.st.bytesReceived.toNat = image.length
  session : w'.sys.core.st.state = if w.autoCommit then .committed else .writing
  reboot : w.autoCommit = true → w'.sys.core.rebootScheduled = true

/-- The image stage leaves a session that can be committed. -/
structure Staged (w : World) (image : List UInt8) : Prop where
  inited : w.sys.core.inited = true
  prepared : w.sys.core.imgReady = true
  writing : w.sys.core.st.state = .writing
  complete : w.sys.core.st.bytesReceived = w.sys.core.st.totalSize
  size : w.sys.core.st.totalSize.toNat = image.length
  slot : readRange w.sys.core.flash.bytes 0 image.length = image

theorem Served.imageStage {b : Board} {w : World} {image header : List UInt8}
    (h : Served b w image header) :
    ∃ conns w' sink, imageStage b w = (0, w', sink) ∧ World.Onward {w with conns := conns} w' ∧
      Staged w' image ∧ (w.hasHeaderUrl = true → HeaderServed b w.headerUrl conns header) := by
  obtain ⟨rsp, body, more, conns, hchunked, hoffers, hleads, hheader⟩ := h.servers
  obtain ⟨hticked, -⟩ := h.calm.tick b
  have hcalm := (World.Onward.tick h.calm b).calm
  have hbody : body ≠ [] := by
    cases hoffers with
    | whole => exact h.notEmpty
    | rest hpos hpart => simpa [List.drop_eq_nil_iff] using hpart
  obtain ⟨n, htotal, hsize⟩ := hoffers.size
  have hhook (w₁ : World) (hcalm₁ : w₁.Calm) (hsys : w₁.sys = w.sys) :
      ∃ w₂ sink, imagePreStream b w₁ rsp (resumeFrom w.sys.core.st)
          ⟨.otaChunk, resumeFrom w.sys.core.st, [], 0⟩ = (0, w₂, sink) ∧
        Took w₁ ⟨.otaChunk, resumeFrom w.sys.core.st, [], 0⟩ [] w₂ sink ∧
        SinkTakes w₂ sink body.length ∧
        readRange w₁.sys.core.flash.bytes 0 sink.otaOffset.toNat ++ body = image := by
    rw [← hsys] at hoffers ⊢
    exact imagePreStream_offers hcalm₁ (hsys ▸ h.inited)
      (hsys ▸ Sys.Reached.prepared h.reached) (hsys ▸ h.resumes) h.notEmpty h.fits hchunked
      hoffers
  let r := imageReq b w.imageUrl (resumeFrom w.sys.core.st)
  have hsame : (w.tick b).1.sys = w.sys := by rw [hticked]
  have hserved : ∃ w' sink, httpRequest b (w.tick b).1 r = (0, w', sink) ∧
      Took {(w.tick b).1 with conns := conns} r.sink body w' sink ∧ SinkTakes w' sink 0 := by
    refine httpRequest_served hcalm h.shortUrl (by rw [hticked]; exact hleads) hchunked htotal
      hsize hbody fun w₁ hcalm₁ hsys => ?_
    obtain ⟨w₂, sink, hopens, htook, htakes, -⟩ := hhook w₁ hcalm₁ (hsys.trans hsame)
    exact ⟨w₂, sink, hopens, htook, htakes⟩
  obtain ⟨w', sink, hrequest, htook, hlast⟩ := hserved
  have hstage : Http.imageStage b w = (0, w', sink) := by
    rw [← hrequest]
    simp only [Http.imageStage, World.getStatus, r, hsame]
    rw [hticked]
  -- the body that was read is that of the server
  obtain ⟨w₁, bs, hhead, hbytes, hsys₁, honward₁, -⟩ := finalHead_leads hleads hcalm
    (by rw [hticked])
  have himage : imageHead b w = (w₁, .ok (rsp, bs)) := by
    rw [imageHead_eq h.calm.alone, ← hhead, hticked]
  have hrange : ¬OtherEnd b w := by
    rintro ⟨head, rsp', bs', hresumed, hnot⟩
    have hresume := hresumed.resumes
    have hstatus := hresumed.status
    cases himage.symm.trans hresumed.head
    apply hnot
    cases hoffers with
    | whole h200 => rw [h200] at hstatus; cases hstatus
    | rest hpos hpart _ _ hstart hend _ =>
        have hlength := (h.resumes hresume).1
        exact ⟨hstart.trans (resumeFrom_ne_zero hresume).2, hend.trans hlength.symm⟩
  have hzero : (httpRequest b (w.tick b).1
      (imageReq b (w.tick b).1.imageUrl (resumeFrom w.sys.core.st))).1 = 0 := by
    rw [hticked]
    rw [hticked] at hrequest
    rw [show httpRequest b _ _ = _ from hrequest]
  obtain ⟨d, hrc, hfinal⟩ := imageRequest_ok hzero
  have hd := TaskDownload.imageHead d h.calm.alone
  obtain ⟨hhead₁, hrsp, hbs⟩ : w₁ = d.head ∧ rsp = d.rsp ∧ bs = d.bs := by
    cases himage.symm.trans hd
    exact ⟨rfl, rfl, rfl⟩
  obtain ⟨w₂, sink₂, hopens, -, -, hwhole⟩ := hhook d.head (hhead₁ ▸ honward₁.calm)
    (hhead₁ ▸ hsys₁.trans hsame)
  have hopened := d.hopened
  rw [← hrsp] at hopened
  cases hopened.symm.trans hopens
  have hdtotal := d.htotal
  rw [← hrsp, htotal] at hdtotal
  cases hdtotal
  obtain ⟨-, hcomplete⟩ := TaskDownload.complete d h.calm.alone h.ready h.reached.inv hrange hrc
  have hfinal' : d.final = w' := by
    rw [← hfinal]
    rw [hticked] at hrequest ⊢
    exact congrArg (fun p => p.2.1) hrequest
  have htake : d.bs.bytes.take d.bodyTotal.toNat = body := by
    rw [← hbs, hbytes, hsize, List.take_left]
  have hheld : d.head.sys = w.sys := by rw [← hhead₁, hsys₁, hsame]
  rw [hheld] at hwhole
  have hslot : readRange w'.sys.core.flash.bytes 0 w'.sys.core.st.totalSize.toNat = image := by
    have hread := hcomplete.slot
    rw [htake, hwhole, hfinal'] at hread
    exact hread
  have hlength : w'.sys.core.st.totalSize.toNat = image.length := by
    rw [← hslot, readRange_length]
  have htaking : Taking w'.sys.core sink.otaOffset 0 := by
    have hmode : sink.mode = .otaChunk := htook.mode
    simpa only [SinkTakes, hmode] using hlast
  have honward : World.Onward {w with conns := conns} w' := by
    have hway := htook.onward
    rw [hticked] at hway
    exact ⟨hway.calm, hway.conns, hway.headerUrl, hway.hasHeaderUrl, hway.autoCommit⟩
  refine ⟨conns, w', sink, hstage, honward, ?_, hheader⟩
  constructor
  · exact htaking.inited
  · exact htaking.prepared
  · exact htook.writing rfl hbody
  · have hreceived := hcomplete.received
    rwa [hfinal'] at hreceived
  · exact hlength
  · rw [← hlength]
    exact hslot

theorem HeaderServed.headerStage {b : Board} {w : World} {header : List UInt8}
    (hcalm : w.Calm)
    (h : w.hasHeaderUrl = true → HeaderServed b w.headerUrl w.conns header) :
    ∃ w' blob, headerStage b w = (0, w', blob) ∧ w'.sys = w.sys ∧ w'.Calm ∧
      w'.autoCommit = w.autoCommit := by
  unfold Http.headerStage
  by_cases hasked : w.hasHeaderUrl = true
  · obtain ⟨hshort, hne, hfits, rsp, more, conns', hchunked, hoffers, hleads⟩ := h hasked
    obtain ⟨n, htotal, hsize⟩ := hoffers.size
    let start : World := {w with state := .headerDl}
    have hstart : start.Calm := ⟨hcalm.running, hcalm.slots⟩
    let r := headerReq w.headerUrl
    have hserved : ∃ w' sink, httpRequest b start r = (0, w', sink) ∧
        Took {start with conns := conns'} r.sink header w' sink ∧ SinkTakes w' sink 0 := by
      refine httpRequest_served hstart hshort hleads hchunked htotal hsize hne fun w₁ hcalm₁ _ => ?_
      refine ⟨w₁, r.sink, rfl, ⟨.refl hcalm₁, rfl, ?_, ?_⟩, ?_⟩
      · exact fun _ hnil => absurd rfl hnil
      · exact fun _ => ⟨rfl, (List.append_nil _).symm⟩
      · show 0 + header.length ≤ APP_OTA_HTTP_SIGNED_HEADER_MAX
        rw [Nat.zero_add]
        exact hfits
    obtain ⟨w', sink, hrequest, htook, -⟩ := hserved
    refine ⟨w', sink.buf, ?_, (htook.buffered rfl).1, htook.onward.calm, htook.onward.autoCommit⟩
    rw [if_pos hasked, show httpRequest b {w with state := .headerDl} _ = _ from hrequest]
  · refine ⟨w, [], ?_, rfl, hcalm, rfl⟩
    rw [if_neg hasked]

theorem Staged.commitStage {b : Board} {w : World} {image header : List UInt8} (h : Staged w image)
    (hcalm : w.Calm) : Installed w (commitStage b w header) image := by
  unfold Http.commitStage
  by_cases hauto : w.autoCommit = true
  · have hcheck : (Call.commit header).precheck w.sys.core = none := by
      rw [Call.precheck, h.inited, h.prepared]
      rfl
    have hcommitting : World.Calm {w with state := .committing} := ⟨hcalm.running, hcalm.slots⟩
    obtain ⟨d, w', hd, honward, hcall, hcore⟩ := hcommitting.otaCall (b := b) hcheck
    have hlocked : appOtaCommitLocked w.sys.core d = ({w.sys.core with
        st := {w.sys.core.st with state := .committed, lastErr := .ok}
        rebootScheduled := true}, .ok) := by
      rw [appOtaCommitLocked, if_neg (not_not.mpr h.writing), if_neg (not_and_or.mpr
        (Or.inr (not_not.mpr h.complete))), if_neg (not_not.mpr hd.upgradeRc)]
    have hcore' : w'.sys.core = (appOtaCommitLocked w.sys.core d).1 := hcore
    have hcall' : World.otaCall b {w with state := .committing} (.commit header) = (w', .ok) := by
      have hok : (appOtaCommitLocked w.sys.core d).2 = .ok := by rw [hlocked]
      rw [hcall]
      exact Prod.ext rfl hok
    rw [if_pos hauto, hcall']
    rw [hlocked] at hcore'
    constructor
    · rfl
    · rfl
    · show readRange w'.sys.core.flash.bytes 0 image.length = image
      rw [hcore']
      exact h.slot
    · show w'.sys.core.st.bytesReceived.toNat = image.length
      rw [hcore', ← h.size, ← h.complete]
    · show w'.sys.core.st.state = _
      rw [hcore', if_pos hauto]
    · intro _
      show w'.sys.core.rebootScheduled = true
      rw [hcore']
  · rw [if_neg hauto]
    constructor
    · rfl
    · rfl
    · exact h.slot
    · show w.sys.core.st.bytesReceived.toNat = image.length
      rw [h.complete, h.size]
    · rw [if_neg hauto]
      exact h.writing
    · exact fun hyes => absurd hyes hauto

/-- An update that is served is installed, whatever way the network cuts up the
answers: fresh, resumed or restarted, with or without the header blob. -/
theorem served_update_installed (b : Board) (w : World) (image header : List UInt8)
    (h : Served b w image header) : Installed w (httpTask b w) image := by
  obtain ⟨conns, w₁, sink, himage, honward, hstaged, hheader⟩ := h.imageStage
  have hserved : w₁.hasHeaderUrl = true → HeaderServed b w₁.headerUrl w₁.conns header := by
    intro hasked
    rw [honward.headerUrl, honward.conns]
    exact hheader (honward.hasHeaderUrl ▸ hasked)
  obtain ⟨w₂, blob, hblob, hsys, hcalm, hauto⟩ := HeaderServed.headerStage honward.calm hserved
  have hstaged₂ : Staged w₂ image := by
    obtain ⟨hinited, hprepared, hwriting, hcomplete, hsize, hslot⟩ := hstaged
    rw [← hsys] at hinited hprepared hwriting hcomplete hsize hslot
    exact ⟨hinited, hprepared, hwriting, hcomplete, hsize, hslot⟩
  have hdone := @Staged.commitStage b w₂ image blob hstaged₂ hcalm
  have htask : httpTask b w = commitStage b w₂ blob := by
    simp only [httpTask, himage, hblob, ne_eq, not_true_eq_false, if_false]
  have hsame : w₂.autoCommit = w.autoCommit := hauto.trans honward.autoCommit
  rw [htask]
  exact ⟨hdone.done, hdone.stopped, hdone.slot, hdone.received, hsame ▸ hdone.session,
    fun hasked => hdone.reboot (hsame.trans hasked)⟩

theorem restHead_firstFree : CrlfFree (ascii "HTTP/1.1 206 Partial Content") := by decide

theorem restHead_linesFree :
    ∀ line ∈ [ascii "Content-Range: bytes 2-3/4"], line ≠ [] ∧ CrlfFree line :=
  List.forall_mem_singleton.mpr ⟨by decide, by decide⟩

/-- The head of a server that resumes. -/
def restHead : Head where
  first := ascii "HTTP/1.1 206 Partial Content"
  lines := [ascii "Content-Range: bytes 2-3/4"]
  firstFree := restHead_firstFree
  linesFree := restHead_linesFree

/-- Two bytes of four are missing; the answer is cut within its head and its body. -/
def cutAnswer : World :=
  {World.start sessionSys (ascii "http://h/") [⟨0, 0, [50, 100],
    [ascii "HTTP/1.1 206 Par", ascii "tial Content\r\nContent-Range: bytes 2-3/4\r\n\r\nc",
      ascii "d"]⟩] with autoCommit := true}

theorem served_update_installed_cut :
    Installed cutAnswer (httpTask board cutAnswer) (ascii "abcd") := by
  apply served_update_installed board cutAnswer (ascii "abcd") []
  have hplain : restHead.Plain := by
    refine ⟨by decide, by decide, List.forall_mem_singleton.mpr (by decide), ?_,
      List.forall_mem_singleton.mpr ?_⟩
    · exact ⟨ascii " 206 Partial Content", by decide, by decide⟩
    · rw [ValueInLine, if_neg (by decide), if_pos (by decide)]
      exact ⟨by decide, fun _ => ⟨by decide, fun _ => by decide⟩⟩
  refine ⟨⟨rfl, by simp [cutAnswer, World.start]⟩, rfl, sessionSys_reached, by decide +kernel,
    by decide, by decide, by decide, fun _ => ⟨by decide +kernel, by decide +kernel⟩, ?_⟩
  refine ⟨restHead.response, ascii "cd", [], [], by decide +kernel, ?_, ?_, fun hasked => ?_⟩
  · have hfrom : resumeFrom cutAnswer.sys.core.st = 2 := by decide +kernel
    rw [hfrom]
    exact .rest (by decide) (by decide) (by decide +kernel) (by decide +kernel)
      (by decide +kernel) (by decide +kernel) (.inr (by decide +kernel))
  · refine .final ⟨hplain, by decide, ⟨ascii "h", ascii "/", 80⟩, by decide +kernel, by decide,
      ⟨by decide, by decide, by decide, by decide +kernel, by decide⟩⟩ rfl (by decide +kernel)
  · cases hasked

end Rw612.Http
