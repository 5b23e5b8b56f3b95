import Rw612.Http.Task

/-!
What has been delivered when an image body ends well. Other threads may act
between any two slices, so the argument is about the log of locked sections since
the body began, its base. `Stands` says that the task's own chunks have so far
spelled out `D`: nothing foreign was stored in between, and whatever was stored
since comes after `D`. A chunk of the task that is accepted at the end of `D`
shows that nothing foreign was stored at all.
-/

namespace Rw612.Http

open Lib Ota

/-- The bytes that a locked section added to the session. -/
def stored : Done → List UInt8
  | ⟨_, .chunk _ data, .ok⟩ => data
  | _ => []

/-- No `begin` has held the lock since the log was `base`. -/
def Undisturbed (base log : List Done) : Prop :=
  ∀ ev ∈ log.drop base.length, ∀ n, ev.call ≠ .begin n

theorem Undisturbed.mono {base log log' : List Done} (hlog : log <+: log')
    (h : Undisturbed base log') : Undisturbed base log := by
  obtain ⟨later, rfl⟩ := hlog
  intro ev member
  exact h ev (by simp [List.drop_append, member])

theorem Undisturbed.of_append {base own rest : List Done}
    (h : Undisturbed base (base ++ own ++ rest)) :
    ∀ ev ∈ rest, ∀ n, ev.call ≠ .begin n := by
  intro ev member
  apply h ev
  rw [List.append_assoc, List.drop_left]
  simp [member]

theorem Session.next_of_not_begin (ses : Session) {ev : Done}
    (hev : ∀ n, ev.call ≠ .begin n) :
    Session.next (some ses) ev = some {ses with data := ses.data ++ stored ev} := by
  obtain ⟨tid, call, rc⟩ := ev
  cases call with
  | begin n => exact absurd rfl (hev n)
  | chunk offset data => cases rc <;> simp [Session.next, stored]
  | init cb userArg => simp [Session.next, stored]
  | commit header => simp [Session.next, stored]
  | abort => simp [Session.next, stored]

/-- Without a `begin`, a session only grows by what is stored. -/
theorem session_append {log rest : List Done} {ses : Session}
    (hses : session log = some ses) (hrest : ∀ ev ∈ rest, ∀ n, ev.call ≠ .begin n) :
    session (log ++ rest) =
      some {ses with data := ses.data ++ rest.flatMap stored} := by
  induction rest generalizing log ses with
  | nil => simpa using hses
  | cons ev rest ih =>
      have hnext : session (log ++ [ev]) =
          some {ses with data := ses.data ++ stored ev} := by
        rw [session_snoc, hses, Session.next_of_not_begin ses (hrest ev (by simp))]
      have happend := ih hnext (fun ev' member => hrest ev' (by simp [member]))
      simpa using happend

/-- A locked section other than `begin` leaves the received bytes alone. -/
theorem Call.locked_frame (slot : FlashArea) {c : Core} (d : Driver) {call : Call}
    (hcall : ∀ n, call ≠ .begin n) {n : Nat}
    (hn : c.live → n ≤ c.st.bytesReceived.toNat) :
    readRange (call.locked slot c d).1.flash.bytes 0 n =
      readRange c.flash.bytes 0 n := by
  cases call with
  | init cb userArg => rfl
  | begin size => exact absurd rfl (hcall size)
  | chunk offset data =>
      have hwrite (hlive : c.live) (hoff : offset = c.st.bytesReceived) :
          readRange (c.flashWrite d offset data).flash.bytes 0 n =
            readRange c.flash.bytes 0 n := by
        unfold Core.flashWrite
        split
        · rfl
        · exact readRange_patch_below _ _ data (by rw [hoff]; simpa using hn hlive)
      rcases appOtaChunkLocked_cases c d offset data with
        ⟨_, heq⟩ | ⟨_, _, heq⟩ | ⟨_, _, heq⟩ | ⟨hlive, hoff, _, _, heq⟩ |
          ⟨hlive, hoff, _, _, heq⟩
      · simp [Call.locked, heq]
      · simp [Call.locked, heq]
      · simp [Call.locked, heq]
      · simpa [Call.locked, heq] using hwrite hlive hoff
      · simpa [Call.locked, heq] using hwrite hlive hoff
  | commit header =>
      rcases appOtaCommitLocked_cases c d with
        ⟨_, heq⟩ | ⟨_, _, heq⟩ | ⟨_, heq⟩ | ⟨_, _, heq⟩ <;>
        simp [Call.locked, heq]
  | abort => rfl

/-- Since `base` the task's own chunks have brought the session to `D`. -/
structure Stands (slot : FlashArea) (base : List Done) (size : UInt32)
    (D : List UInt8) (s : Sys) : Prop where
  inv : s.Inv slot
  log : ∃ own rest, s.log = base ++ own ++ rest ∧
    session (base ++ own) = some ⟨size, D⟩ ∧
    (∀ ev ∈ own, stored ev ≠ [] → ev.tid = httpTid) ∧
    ∀ ev ∈ rest, stored ev ≠ [] → ev.tid ≠ httpTid
  flash : readRange s.core.flash.bytes 0 D.length = D

namespace Stands

variable {slot : FlashArea} {base : List Done} {size : UInt32} {D : List UInt8}
  {s s' : Sys}

/-- The session begins with `D`. -/
theorem session (h : Stands slot base size D s) (hund : Undisturbed base s.log) :
    ∃ extra, Ota.session s.log = some ⟨size, D ++ extra⟩ := by
  obtain ⟨own, rest, hlog, hses, _, _⟩ := h.log
  refine ⟨rest.flatMap stored, ?_⟩
  rw [hlog] at hund ⊢
  exact session_append hses hund.of_append

/-- Where the task has been alone, the session is `D`. -/
theorem session_of_alone (h : Stands slot base size D s)
    (hund : Undisturbed base s.log)
    (halone : ∀ ev ∈ s.log.drop base.length, ev.tid = httpTid) :
    Ota.session s.log = some ⟨size, D⟩ := by
  obtain ⟨own, rest, hlog, hses, _, hrest⟩ := h.log
  rw [hlog] at hund halone ⊢
  have hnone : rest.flatMap stored = [] := by
    apply List.flatMap_eq_nil_iff.mpr
    intro ev member
    by_contra hstored
    refine hrest ev member hstored (halone ev ?_)
    rw [List.append_assoc, List.drop_left]
    simp [member]
  rw [session_append hses hund.of_append, hnone, List.append_nil]

theorem length_le_received (h : Stands slot base size D s)
    (hund : Undisturbed base s.log) (hlive : s.core.live) :
    D.length ≤ s.core.st.bytesReceived.toNat := by
  obtain ⟨extra, hses⟩ := h.session hund
  obtain ⟨ses, hses', hholds⟩ := h.inv.core.live hlive
  obtain rfl : (⟨size, D ++ extra⟩ : Session) = ses :=
    Option.some.inj (hses.symm.trans hses')
  rw [hholds.received, List.length_append]
  exact Nat.le_add_right _ _

theorem enter (h : Stands slot base size D s) (tid : Nat) (call : Call) :
    Stands slot base size D (s.enter tid call) := by
  refine ⟨h.inv.enter tid call, ?_, ?_⟩
  · rw [s.enter_log]
    exact h.log
  · rw [(s.enter_core tid call).2]
    exact h.flash

/-- A locked section of another thread comes after `D`. -/
theorem locked (h : Stands slot base size D s) {tid : Nat} {call : Call}
    (hcall : s.pending tid = some call) (d : Driver) (htid : tid ≠ httpTid)
    (hund : Undisturbed base (s.locked slot tid call d).log) :
    Stands slot base size D (s.locked slot tid call d) := by
  obtain ⟨own, rest, hlog, hses, hown, hrest⟩ := h.log
  have hund' : Undisturbed base s.log := hund.mono (List.prefix_append _ _)
  have hnot : ∀ n, call ≠ .begin n := by
    refine hund ⟨tid, call, (call.locked slot s.core d).2⟩ ?_
    have hbase : base.length ≤ s.log.length := by
      rw [hlog, List.append_assoc, List.length_append]
      exact Nat.le_add_right _ _
    simp [Sys.locked, List.drop_append_of_le_length hbase]
  refine ⟨h.inv.locked hcall d, ?_, ?_⟩
  · refine ⟨own, rest ++ [⟨tid, call, (call.locked slot s.core d).2⟩], ?_, hses,
      hown, ?_⟩
    · simp [Sys.locked, hlog]
    · intro ev member
      rcases List.mem_append.mp member with hold | hnew
      · exact hrest ev hold
      · obtain rfl := List.mem_singleton.mp hnew
        exact fun _ => htid
  · simp only [Sys.locked]
    rw [Call.locked_frame slot d hnot (h.length_le_received hund')]
    exact h.flash

theorem step (h : Stands slot base size D s) {a : Act} (htid : a.tid ≠ httpTid)
    (hstep : (otaSystem slot).step s a = some s') (hund : Undisturbed base s'.log) :
    Stands slot base size D s' := by
  rcases Sys.step_cases hstep with
    ⟨tid, call, rfl, rfl⟩ | ⟨tid, call, d, rfl, hcall, rfl⟩
  · exact h.enter tid call
  · exact h.locked hcall d htid hund

theorem exec (h : Stands slot base size D s) {acts : List Act}
    (htid : ∀ a ∈ acts, a.tid ≠ httpTid)
    (hrun : (otaSystem slot).exec s acts = some s') (hund : Undisturbed base s'.log) :
    Stands slot base size D s' := by
  induction acts generalizing s with
  | nil =>
      obtain rfl : s = s' := Option.some.inj hrun
      exact h
  | cons a acts ih =>
      obtain ⟨mid, hmid, hrest⟩ := System.exec_cons_some hrun
      refine ih (h.step (htid a (by simp)) hmid ?_)
        (fun a' member => htid a' (by simp [member])) hrest
      exact hund.mono (Sys.log_grows_of_exec hrest)

theorem tick {b : Board} {w : World} (h : Stands b.slot base size D w.sys)
    (hund : Undisturbed base (w.tick b).1.sys.log) :
    Stands b.slot base size D (w.tick b).1.sys := by
  obtain ⟨acts, hacts, htid⟩ := w.tick_exec b
  exact h.exec htid hacts hund

/-- A chunk of the task that is accepted right behind `D` extends it. -/
theorem chunk (h : Stands slot base size D s) (hund : Undisturbed base s.log)
    {offset : UInt32} {data : List UInt8} (d : Driver)
    (hcall : s.pending httpTid = some (.chunk offset data))
    (hoff : offset.toNat = D.length)
    (hrc : ((Call.chunk offset data).locked slot s.core d).2 = .ok) :
    Stands slot base size (D ++ data)
        (s.locked slot httpTid (.chunk offset data) d) ∧
      (s.locked slot httpTid (.chunk offset data) d).core.live ∧
      (offset + UInt32.ofNat data.length).toNat = (D ++ data).length := by
  obtain ⟨own, rest, hlog, hses, hown, _⟩ := h.log
  have hinv := h.inv.locked hcall d
  obtain ⟨hlive, hreceived, heq⟩ := appOtaChunkLocked_ok hrc
  -- the offset is the length of the session, so nothing was stored behind `D`
  have hnone : rest.flatMap stored = [] := by
    have hsession : Ota.session s.log = some ⟨size, D ++ rest.flatMap stored⟩ := by
      rw [hlog] at hund ⊢
      exact session_append hses hund.of_append
    obtain ⟨ses, hses', hholds⟩ := h.inv.core.live hlive
    obtain rfl : (⟨size, D ++ rest.flatMap stored⟩ : Session) = ses :=
      Option.some.inj (hsession.symm.trans hses')
    have hlength := hholds.received
    rw [← hreceived, hoff, List.length_append] at hlength
    exact List.length_eq_zero_iff.mp (by omega)
  have hquiet : ∀ ev ∈ rest, stored ev = [] := List.flatMap_eq_nil_iff.mp hnone
  have hown' : Ota.session (base ++ (own ++ rest)) = some ⟨size, D⟩ := by
    rw [hlog] at hund
    rw [← List.append_assoc, session_append hses hund.of_append, hnone,
      List.append_nil]
  have hlog' : (s.locked slot httpTid (.chunk offset data) d).log =
      base ++ (own ++ rest ++ [⟨httpTid, .chunk offset data, .ok⟩]) := by
    simp only [Sys.locked, hrc, hlog, List.append_assoc]
  have hses' : Ota.session (s.locked slot httpTid (.chunk offset data) d).log =
      some ⟨size, D ++ data⟩ := by
    rw [hlog', ← List.append_assoc, session_snoc, hown']
    rfl
  have hlive' : (s.locked slot httpTid (.chunk offset data) d).core.live := by
    simp [Sys.locked, Call.locked, heq, Core.live]
  obtain ⟨ses, hsession, hholds⟩ := hinv.core.live hlive'
  obtain rfl : (⟨size, D ++ data⟩ : Session) = ses :=
    Option.some.inj (hses'.symm.trans hsession)
  refine ⟨⟨hinv, ⟨own ++ rest ++ [⟨httpTid, .chunk offset data, .ok⟩], [], ?_, ?_,
    ?_, by simp⟩, hholds.bytes⟩, hlive', ?_⟩
  · rw [hlog', List.append_nil]
  · rw [← hlog']
    exact hses'
  · intro ev member hstored
    rcases List.mem_append.mp member with hold | hnew
    · rcases List.mem_append.mp hold with hin | hin
      · exact hown ev hin hstored
      · exact absurd (hquiet ev hin) hstored
    · rw [List.mem_singleton.mp hnew]
  · rw [hreceived]
    have hreceived' := hholds.received
    simpa [Sys.locked, Call.locked, heq] using hreceived'

/-- The same for the whole call, before which and within which others may act. -/
theorem otaCall {b : Board} {w : World} (h : Stands b.slot base size D w.sys)
    {offset : UInt32} {data : List UInt8} (hoff : offset.toNat = D.length)
    (hrc : (w.otaCall b (.chunk offset data)).2 = .ok)
    (hund : Undisturbed base (w.otaCall b (.chunk offset data)).1.sys.log) :
    Stands b.slot base size (D ++ data) (w.otaCall b (.chunk offset data)).1.sys ∧
      (w.otaCall b (.chunk offset data)).1.sys.core.live ∧
      (offset + UInt32.ofNat data.length).toNat = (D ++ data).length := by
  unfold World.otaCall at hrc hund ⊢
  cases hcheck : (Call.chunk offset data).precheck (w.tick b).1.sys.core with
  | some rc =>
      simp only [hcheck] at hrc
      rw [hrc] at hcheck
      exact absurd hcheck (Call.precheck_ne_ok _ (by simp))
  | none =>
      simp only [hcheck] at hrc hund ⊢
      unfold World.lockedCall at hrc hund ⊢
      let entered : World := (w.tick b).1.entering (.chunk offset data)
      have hpending : entered.sys.pending httpTid = some (.chunk offset data) :=
        Sys.enter_pending hcheck
      have hundLocked : Undisturbed base (entered.tick b).1.sys.log :=
        hund.mono (List.prefix_append _ _)
      have hundEntered : Undisturbed base entered.sys.log :=
        hundLocked.mono (entered.tick_log b)
      have hundTick : Undisturbed base (w.tick b).1.sys.log := by
        simpa only [entered, World.entering, Sys.enter_log] using hundEntered
      have hentered : Stands b.slot base size D entered.sys :=
        (h.tick hundTick).enter httpTid _
      exact (hentered.tick hundLocked).chunk hundLocked (entered.tick b).2
        ((entered.tick_pending b).trans hpending) hoff hrc

end Stands

/-- The loop over a fixed-length body: if it ends well and no `begin` came in
between, the task's chunks were the first bytes of the stream, and nothing
foreign was stored before the last of them. -/
theorem streamFixedBodyFrom_stands {b : Board} (bodyTotal : Nat) (w : World)
    (bs : ByteStream) (sink : SinkCtx) (seen : Nat) {base : List Done}
    {size : UInt32} {D : List UInt8}
    (h : Stands b.slot base size D w.sys) (hmode : sink.mode = .otaChunk)
    (hoff : sink.otaOffset.toNat = D.length)
    (hrc : (streamFixedBodyFrom b bodyTotal w bs sink seen).rc = 0)
    (hund : Undisturbed base
      (streamFixedBodyFrom b bodyTotal w bs sink seen).world.sys.log) :
    Stands b.slot base size (D ++ bs.bytes.take (bodyTotal - seen))
        (streamFixedBodyFrom b bodyTotal w bs sink seen).world.sys ∧
      bodyTotal - seen ≤ bs.bytes.length ∧
      (seen < bodyTotal →
        (streamFixedBodyFrom b bodyTotal w bs sink seen).world.sys.core.live) := by
  fun_induction streamFixedBodyFrom b bodyTotal w bs sink seen generalizing D with
  | case1 => simp at hrc
  | case2 => simp at hrc
  | case3 => simp at hrc
  | case4 w bs sink seen hseen w₁ _ got bs' hread wrc w' sink' hwrite hwrc =>
      rename_i ih
      obtain rfl : wrc = 0 := not_not.mp hwrc
      obtain ⟨hcall, hsink⟩ := sinkWrite_ota_ok hmode hwrite
      obtain ⟨hbytes, _, hlength⟩ := bsReadSome_some hread
        (by simp [APP_OTA_HTTP_RX_CHUNK]; omega)
      have hfits : got.length ≤ bodyTotal - seen :=
        Nat.le_trans hlength (Nat.min_le_left _ _)
      have hrest := (streamFixedBodyFrom_runs b bodyTotal w' bs' sink'
        (seen + got.length)).1.log_grows
      have hund' := hund.mono hrest
      have hcalled : (w₁.otaCall b (.chunk sink.otaOffset got)).1 = w' := by
        rw [hcall]
      have hund₁ : Undisturbed base w₁.sys.log := by
        have hlog := (Runs.otaCall (b := b) (C := fun _ => True) w₁
          (.chunk sink.otaOffset got) trivial).log_grows
        rw [hcalled] at hlog
        exact hund'.mono hlog
      obtain ⟨hstands, hlive, hoff'⟩ := (h.tick hund₁).otaCall hoff
        (by rw [hcall]) (by rw [hcalled]; exact hund')
      rw [hcalled] at hstands hlive
      obtain ⟨hfinal, hlast, hend⟩ := ih hstands (by rw [hsink]; exact hmode)
        (by rw [hsink]; exact hoff') hrc hund
      have htake : bs.bytes.take (bodyTotal - seen) =
          got ++ bs'.bytes.take (bodyTotal - (seen + got.length)) := by
        rw [hbytes, List.take_append, List.take_of_length_le hfits,
          Nat.sub_add_eq]
      refine ⟨?_, ?_, fun _ => ?_⟩
      · rw [htake, ← List.append_assoc]
        exact hfinal
      · rw [hbytes, List.length_append]
        omega
      · by_cases hmore : seen + got.length < bodyTotal
        · exact hend hmore
        · rw [streamFixedBodyFrom, dif_neg hmore]
          exact hlive
  | case5 w bs sink seen hseen =>
      have hzero : bodyTotal - seen = 0 := by omega
      refine ⟨?_, by omega, fun hlt => absurd hlt hseen⟩
      rw [hzero, List.take_zero, List.append_nil]
      exact h

end Rw612.Http
