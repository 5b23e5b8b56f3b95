import Rw612.Ota.Threads

/-!
Whole runs of the OTA core after a decisive point. A call that is refused for
its offset leaves no trace but `last_err`, so it can be deleted from a run. A
committed image, on the other hand, is only as final as the later calls allow:
`init`, `begin` and `abort` do not look at the state they leave.
-/

namespace Rw612.Ota

open Lib

/-- `last_err` reset: what two cores that differ in it alone have in common. -/
def Core.forgetErr (c : Core) : Core := c.withErr .ok

theorem Call.precheck_withErr (c : Core) (call : Call) (e : Err) :
    call.precheck (c.withErr e) = call.precheck c := by
  cases call <;> rfl

theorem otaPrepareStorage_withErr (slot : FlashArea) (c : Core) (d : Driver)
    (n : UInt32) (e : Err) :
    otaPrepareStorage slot (c.withErr e) d n =
      ((otaPrepareStorage slot c d n).1.withErr e,
        (otaPrepareStorage slot c d n).2) := by
  unfold otaPrepareStorage
  by_cases hopen : d.openRc ≠ 0 ∨ d.openFa = false
  · simp only [if_pos hopen]
    rfl
  · by_cases hsize : slot.faSize < n.toNat
    · simp only [if_neg hopen, if_pos hsize]
      rfl
    · by_cases herase : d.eraseRc ≠ 0
      · simp only [if_neg hopen, if_neg hsize, if_pos herase]
        rfl
      · simp only [if_neg hopen, if_neg hsize, if_neg herase]
        rfl

theorem appOtaBeginLocked_withErr (slot : FlashArea) (c : Core) (d : Driver)
    (n : UInt32) (e : Err) :
    appOtaBeginLocked slot (c.withErr e) d n = appOtaBeginLocked slot c d n := by
  have hdrop : (c.withErr e).dropUpload = c.dropUpload.withErr e := rfl
  unfold appOtaBeginLocked
  rw [hdrop, otaPrepareStorage_withErr]
  cases otaPrepareStorage slot c.dropUpload d n with
  | mk core rc => cases rc <;> rfl

/-- A locked section overwrites `last_err` before anyone reads it. -/
theorem Call.locked_withErr (slot : FlashArea) (c : Core) (d : Driver)
    (call : Call) (e : Err) :
    call.locked slot (c.withErr e) d = call.locked slot c d := by
  cases call with
  | init cb userArg => rfl
  | begin n => exact appOtaBeginLocked_withErr slot c d n e
  | chunk offset data =>
      simp only [Call.locked, appOtaChunkLocked, Core.flashWrite]
      cases hfa : c.uploadFa <;> simp [Core.withErr, Core.fail, hfa]
  | commit header => rfl
  | abort => rfl

theorem Call.entered_withErr (c : Core) (call : Call) (e : Err) :
    call.entered (c.withErr e) = (call.entered c).withErr e := by
  cases call <;> rfl

theorem Core.eq_withErr {c c' : Core} (h : c.forgetErr = c'.forgetErr) :
    c' = c.withErr c'.st.lastErr := by
  have hrest := congrArg (Core.withErr · c'.st.lastErr) h
  exact hrest.symm

/-- Cores that differ in `last_err` alone answer every call alike. -/
theorem Call.run_forgetErr (slot : FlashArea) {c c' : Core} (d : Driver)
    (call : Call) (h : c.forgetErr = c'.forgetErr) :
    (call.run slot c d).1.forgetErr = (call.run slot c' d).1.forgetErr ∧
      (call.run slot c d).2 = (call.run slot c' d).2 := by
  rw [Core.eq_withErr h]
  simp only [Call.run, Call.precheck_withErr, Call.entered_withErr,
    Call.locked_withErr]
  cases call.precheck c with
  | some rc => exact ⟨rfl, rfl⟩
  | none => exact ⟨rfl, rfl⟩

/-- A call together with the answers of its own driver calls. -/
def otaStep (slot : FlashArea) (c : Core) (op : Call × Driver) : Core × Err :=
  op.1.run slot c op.2

/-- A `chunk` or `commit` that returned `APP_OTA_ERR_INVALID_OFFSET`. -/
def refusedOffset (op : Call × Driver) (rc : Err) : Bool :=
  match op.1 with
  | .chunk _ _ | .commit _ => rc == .invalidOffset
  | _ => false

theorem appOtaChunkLocked_refused {c : Core} {d : Driver} {offset : UInt32}
    {data : List UInt8}
    (h : (appOtaChunkLocked c d offset data).2 = .invalidOffset) :
    (appOtaChunkLocked c d offset data).1 = c.withErr .invalidOffset := by
  rcases appOtaChunkLocked_cases c d offset data with
    ⟨_, heq⟩ | ⟨_, _, heq⟩ | ⟨_, _, heq⟩ | ⟨_, _, _, _, heq⟩ | ⟨_, _, _, _, heq⟩
  all_goals simp_all

theorem appOtaCommitLocked_refused {c : Core} {d : Driver}
    (h : (appOtaCommitLocked c d).2 = .invalidOffset) :
    (appOtaCommitLocked c d).1 = c.withErr .invalidOffset := by
  rcases appOtaCommitLocked_cases c d with
    ⟨_, heq⟩ | ⟨_, _, heq⟩ | ⟨_, heq⟩ | ⟨_, _, heq⟩
  all_goals simp_all

/-- A call refused for its offset changes `last_err` and nothing else. -/
theorem otaStep_refused {slot : FlashArea} {c : Core} {op : Call × Driver}
    (h : refusedOffset op (otaStep slot c op).2 = true) :
    (otaStep slot c op).1.forgetErr = c.forgetErr := by
  obtain ⟨call, d⟩ := op
  simp only [otaStep, Call.run] at h ⊢
  cases hcheck : call.precheck c with
  | some rc => rfl
  | none =>
      simp only [hcheck] at h
      cases call with
      | chunk offset data =>
          have hrc : (appOtaChunkLocked c d offset data).2 = .invalidOffset := by
            simpa [refusedOffset, Call.locked, Call.entered] using h
          simp only [Call.locked, Call.entered, appOtaChunkLocked_refused hrc]
          rfl
      | commit header =>
          have hrc : (appOtaCommitLocked c d).2 = .invalidOffset := by
            simpa [refusedOffset, Call.locked, Call.entered] using h
          simp only [Call.locked, Call.entered, appOtaCommitLocked_refused hrc]
          rfl
      | init cb userArg => simp [refusedOffset] at h
      | begin n => simp [refusedOffset] at h
      | abort => simp [refusedOffset] at h

/-- Duplicate, early and out-of-order requests are harmless: deleting every
`chunk` and `commit` that was refused for its offset leaves all other return
codes, and the final core up to `last_err`, as they were. -/
theorem refused_calls_harmless (slot : FlashArea) (c : Core)
    (ops : List (Call × Driver)) :
    answers (otaStep slot) c (erase (otaStep slot) refusedOffset c ops) =
        keptAnswers (otaStep slot) refusedOffset c ops ∧
      (finish (otaStep slot) c
        (erase (otaStep slot) refusedOffset c ops)).forgetErr =
      (finish (otaStep slot) c ops).forgetErr := by
  have hstep : ∀ c c' op, Core.forgetErr c = Core.forgetErr c' →
      (otaStep slot c op).1.forgetErr = (otaStep slot c' op).1.forgetErr ∧
        (otaStep slot c op).2 = (otaStep slot c' op).2 :=
    fun _ _ op h => Call.run_forgetErr slot op.2 op.1 h
  have hdrop : ∀ c c' op, Core.forgetErr c = Core.forgetErr c' →
      refusedOffset op (otaStep slot c op).2 = true →
      (otaStep slot c op).1.forgetErr = c'.forgetErr :=
    fun _ _ _ h hrefused => (otaStep_refused hrefused).trans h
  obtain ⟨hfinal, hanswers⟩ :=
    erase_simulates hstep hdrop (rfl : c.forgetErr = c.forgetErr) ops
  exact ⟨hanswers, hfinal.symm⟩

/-- The locked sections that look at the state before they change it. -/
def Call.checksState : Call → Bool
  | .chunk _ _ | .commit _ => true
  | .init _ _ | .begin _ | .abort => false

/-- A step that is no locked section of `init`, `begin` or `abort`. -/
def ChecksState (s : Sys) : Act → Prop
  | .enter _ _ => True
  | .locked tid _ => ∀ call, s.pending tid = some call → call.checksState = true

/-- The image that was committed is still in the slot and still committed. -/
def Final (committed t : Sys) : Prop :=
  t.core.st.state = .committed ∧ t.core.flash = committed.core.flash

/-- A committed session refuses every chunk and every further commit. -/
theorem Call.locked_committed (slot : FlashArea) {c : Core} (d : Driver)
    {call : Call} (hstate : c.st.state = .committed)
    (hcall : call.checksState = true) :
    (call.locked slot c d).1 = c.withErr .invalidState := by
  cases call with
  | chunk offset data =>
      simp [Call.locked, appOtaChunkLocked, hstate]
  | commit header => simp [Call.locked, appOtaCommitLocked, hstate]
  | init cb userArg => cases hcall
  | begin n => cases hcall
  | abort => cases hcall

/-- The three other locked sections always leave `COMMITTED`. -/
theorem Call.locked_leaves_committed {slot : FlashArea} {c : Core}
    (d : Driver) {call : Call} (hcall : call.checksState = false) :
    (call.locked slot c d).1.st.state ≠ .committed := by
  cases call with
  | init cb userArg => simp [Call.locked, appOtaInitLocked]
  | begin n =>
      rcases appOtaBeginLocked_cases slot c d n with
        ⟨_, _, _, heq⟩ | ⟨_, hfailed, _, _⟩
      · simp [Call.locked, heq]
      · simp [Call.locked, hfailed]
  | abort => simp [Call.locked, appOtaAbortLocked]
  | chunk offset data => cases hcall
  | commit header => cases hcall

theorem Final.step {slot : FlashArea} {committed s s' : Sys} {a : Act}
    (h : Final committed s) (ha : ChecksState s a)
    (hstep : (otaSystem slot).step s a = some s') : Final committed s' := by
  rcases Sys.step_cases hstep with
    ⟨tid, call, rfl, rfl⟩ | ⟨tid, call, d, rfl, hcall, rfl⟩
  · obtain ⟨hst, hflash⟩ := s.enter_core tid call
    exact ⟨by rw [hst]; exact h.1, by rw [hflash]; exact h.2⟩
  · have hcore := Call.locked_committed slot d h.1 (ha call hcall)
    exact ⟨by simp only [Sys.locked, hcore]; exact h.1,
      by simp only [Sys.locked, hcore]; exact h.2⟩

/-- A committed image is final exactly in those continuations in which no
`init`, `begin` or `abort` obtains the lock before the reboot. -/
theorem committed_final_iff (slot : FlashArea) (s : Sys)
    (hstate : s.core.st.state = .committed) (later : List Act) :
    (otaSystem slot).Always (Final s) s later ↔
      (otaSystem slot).Meets ChecksState s later := by
  constructor
  · apply System.meets_of_always
    intro t a t' _ hnext hstep
    cases a with
    | enter tid call => trivial
    | locked tid d =>
        intro call hcall
        obtain rfl : t.locked slot tid call d = t' := by
          simpa [otaSystem, hcall] using hstep
        by_contra hother
        exact Call.locked_leaves_committed d (by simpa using hother) hnext.1
  · exact System.always_of_meets (fun _ _ _ h ha hstep => h.step ha hstep)
      ⟨hstate, rfl⟩

/-- A chunk and a commit that obtain the lock while the reboot is pending. -/
def lateWrites : List Act :=
  [.enter 0 (.chunk 0 [7]), .enter 1 (.commit []), .locked 0 .success, .locked 1 .success]

theorem committed_final_iff_upload :
    ∃ s, (otaSystem ⟨8⟩).exec (Sys.powerUp .blank)
        (uploadActs ++ [.locked 2 .success]) = some s ∧
      ((otaSystem ⟨8⟩).exec s lateWrites).isSome = true ∧
      (otaSystem ⟨8⟩).Always (Final s) s lateWrites := by
  refine ⟨_, rfl, by decide, (committed_final_iff ⟨8⟩ _ rfl lateWrites).mpr ?_⟩
  iterate 2
    rintro _ ⟨⟩
    refine ⟨trivial, ?_⟩
  iterate 2
    rintro _ ⟨⟩
    refine ⟨?_, ?_⟩
    · rintro call ⟨⟩
      rfl
  trivial

def lateBegin : List Act := [.enter 0 (.begin 1), .locked 0 .success]

/-- A `begin` that arrives while the reboot is pending erases the image. -/
theorem committed_not_final :
    ¬ ∀ acts s later,
      (otaSystem ⟨8⟩).exec (Sys.powerUp .blank) acts = some s →
      s.core.st.state = .committed → (otaSystem ⟨8⟩).Always (Final s) s later := by
  intro h
  have hfinal := System.Always.of_exec lateBegin []
    (h (uploadActs ++ [.locked 2 .success]) _ lateBegin rfl rfl) rfl
  exact absurd hfinal.1 (by decide)

end Rw612.Ota
