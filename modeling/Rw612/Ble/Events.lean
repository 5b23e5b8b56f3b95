import Rw612.Ble.Central

/-!
What the events of `ble_central.c` say to the application that registered
`evt_cb`. It sees neither the scan nor the link, but it can follow the events:
they tell it when the sensor link is up, and while the central runs also whether
it is still seeking a sensor or has given up with `APP_CENTRAL_EVT_ERROR`. A
subscription that the sensor removes is the one change that no event reports.
-/

namespace Rw612.Ble

open Lib

/-- What an application can conclude from the events. -/
inductive Heard where
  | down
  | seeking
  | up
  | ready
  deriving DecidableEq, Repr

def Heard.next : Heard → CentralEvt → Heard
  | _, .scanning => .seeking
  | _, .connected => .up
  | _, .subscribed => .ready
  | _, .disconnected => .down
  | .seeking, .error => .down
  | h, .error => h

def heard (events : List CentralEvt) : Heard := events.foldl Heard.next .down

/-- The link is up or the subscription made, as far as the events go. -/
def Heard.Linked (h : Heard) : Prop := h = .up ∨ h = .ready

def Central.LinkUp (s : Central) : Prop :=
  ∃ id, s.conn = some id ∧ s.links id = some .connected

/-- The central scans, or waits for the link it has asked for. -/
def Central.Seeking (s : Central) : Prop :=
  s.scanning = true ∨ ∃ id, s.conn = some id ∧ s.links id = some .connecting

structure Central.Told (s : Central) : Prop where
  up : (heard s.emitted).Linked ↔ s.LinkUp
  ready : appCentralIsConnected s = true → heard s.emitted = .ready
  seeking : s.running = true → (heard s.emitted = .seeking ↔ s.Seeking)

theorem heard_emit (s : Central) (e : CentralEvt) :
    heard (s.emit e).emitted = (heard s.emitted).next e := by
  simp [heard, Central.emit]

/-- An error ends the seeking and nothing else. -/
theorem Heard.next_error {h : Heard} (hlinked : ¬h.Linked) : h.next .error = .down := by
  cases h with
  | down | seeking => rfl
  | up => exact absurd (Or.inl rfl) hlinked
  | ready => exact absurd (Or.inr rfl) hlinked

namespace Central

variable {s : Central}

theorem LinkUp.not_seeking (hup : s.LinkUp) (h : s.Inv) : ¬s.Seeking := by
  obtain ⟨id, hconn, hlink⟩ := hup
  rintro (hscan | ⟨id', hconn', hlink'⟩)
  · exact absurd (hconn.symm.trans (h.scanning hscan).2) (by simp)
  · obtain rfl := Option.some.inj (hconn.symm.trans hconn')
    exact absurd (hlink.symm.trans hlink') (by simp)

theorem Inv.linkUp_of_isConnected (h : s.Inv) (hconnected : appCentralIsConnected s = true) :
    s.LinkUp := by
  obtain ⟨id, hconn, hlink, -⟩ := h.accounts.connected.mp hconnected
  exact ⟨id, hconn, hlink⟩

theorem told_powerUp : Central.powerUp.Told := by
  constructor
  · constructor
    · rintro (h | h) <;> cases h
    · rintro ⟨id, hconn, -⟩
      cases hconn
  · intro h
    cases h
  · intro h
    cases h

/-- A scan is asked for while there is no link. -/
theorem Told.startScan (hconn : s.conn = none) (hlinked : ¬(heard s.emitted).Linked)
    (hscanning : s.scanning = false) (rc : Int) : (startScan s rc).1.Told := by
  have hdown : ∀ e, ¬(s.emit e).LinkUp := by
    rintro e ⟨id, hid, -⟩
    exact absurd (hconn.symm.trans hid) (by simp)
  rcases startScan_cases s rc with hs | hs <;> rw [hs]
  · have herror : heard (s.emit .error).emitted = .down :=
      (heard_emit s .error).trans (Heard.next_error hlinked)
    refine ⟨?_, ?_, fun _ => ?_⟩
    · rw [herror]
      exact iff_of_false (by rintro (h | h) <;> cases h) (hdown .error)
    · intro h
      simp [appCentralIsConnected, Central.emit, hconn] at h
    · rw [herror]
      refine iff_of_false (by simp) ?_
      rintro (h | ⟨id, hid, -⟩)
      · exact absurd (hscanning.symm.trans h) (by simp)
      · exact absurd (hconn.symm.trans hid) (by simp)
  · have hseeking : heard (({s with scanning := true}).emit .scanning).emitted = .seeking :=
      heard_emit {s with scanning := true} .scanning
    refine ⟨?_, ?_, fun _ => ?_⟩
    · rw [hseeking]
      exact iff_of_false (by rintro (h | h) <;> cases h) (hdown .scanning)
    · intro h
      simp [appCentralIsConnected, Central.emit, hconn] at h
    · rw [hseeking]
      exact iff_of_true rfl (Or.inl rfl)

/-- A step that emits nothing and touches neither the link nor the scan. -/
theorem Told.congr {s' : Central} (h : s.Told) (hemitted : s'.emitted = s.emitted)
    (hup : s'.LinkUp ↔ s.LinkUp)
    (hconnected : appCentralIsConnected s' = true → appCentralIsConnected s = true)
    (hrunning : s'.running = true → s.running = true) (hseeking : s'.Seeking ↔ s.Seeking) :
    s'.Told := by
  refine ⟨?_, fun hc => ?_, fun hr => ?_⟩
  · rw [hemitted, hup]
    exact h.up
  · rw [hemitted]
    exact h.ready (hconnected hc)
  · rw [hemitted, hseeking]
    exact h.seeking (hrunning hr)

theorem Told.setLink (h : s.Told) {id : Nat} (hconn : s.conn ≠ some id) (link : Option Link)
    (nextId : Nat) (subscription : Option Nat) :
    Told {s with
      links := Function.update s.links id link
      nextId := nextId
      subscription := subscription} := by
  have hsame : ∀ id', s.conn = some id' → Function.update s.links id link id' = s.links id' := by
    intro id' hid'
    refine Function.update_of_ne ?_ ..
    rintro rfl
    exact hconn hid'
  have hcases : ∀ l, (∃ id', s.conn = some id' ∧ Function.update s.links id link id' = some l) ↔
      ∃ id', s.conn = some id' ∧ s.links id' = some l := by
    intro l
    refine exists_congr (fun id' => and_congr_right (fun hid' => ?_))
    rw [hsame id' hid']
  exact h.congr rfl (hcases .connected) (fun hc => hc) (fun hr => hr)
    (or_congr_right (hcases .connecting))

theorem Told.ended (hconn : s.conn = none) (hscanning : s.scanning = false) {e : CentralEvt}
    (hdown : (heard s.emitted).next e = .down) (scanRc : Int) :
    (if (s.emit e).running then (Ble.startScan (s.emit e) scanRc).1 else s.emit e).Told := by
  have hlinked : ¬(heard (s.emit e).emitted).Linked := by
    rw [heard_emit, hdown]
    rintro (h | h) <;> cases h
  split
  · exact Told.startScan (s := s.emit e) hconn hlinked hscanning scanRc
  · next hstopped =>
    refine ⟨iff_of_false hlinked ?_, ?_, fun hr => absurd hr hstopped⟩
    · rintro ⟨id, hid, -⟩
      exact absurd (hconn.symm.trans hid) (by simp)
    · intro h
      simp [appCentralIsConnected, Central.emit, hconn] at h

theorem not_linkUp {id : Nat} (hconn : s.conn = some id)
    (hlink : s.links id = some .connecting) : ¬s.LinkUp := by
  rintro ⟨id', hid', hup⟩
  obtain rfl := Option.some.inj (hconn.symm.trans hid')
  exact absurd (hlink.symm.trans hup) (by simp)

theorem Inv.not_scanning (h : s.Inv) {id : Nat} (hconn : s.conn = some id) :
    s.scanning = false := by
  cases hs : s.scanning with
  | false => rfl
  | true => exact absurd (hconn.symm.trans (h.scanning hs).2) (by simp)

/-- The events have just said `e`, and the link is up. -/
theorem Told.said {e : CentralEvt} (hinv : s.Inv) (hup : s.LinkUp)
    (hlinked : ((heard s.emitted).next e).Linked)
    (hready : s.subscribed = true → (heard s.emitted).next e = .ready) :
    (s.emit e).Told := by
  have hseeking : ¬s.Seeking := hup.not_seeking hinv
  refine ⟨?_, fun hc => ?_, fun _ => ?_⟩
  · rw [heard_emit]
    exact iff_of_true hlinked hup
  · rw [heard_emit]
    rw [appCentralIsConnected, Bool.and_eq_true] at hc
    exact hready hc.2
  · rw [heard_emit]
    refine iff_of_false ?_ hseeking
    intro heq
    rw [heq] at hlinked
    rcases hlinked with h | h <;> cases h

theorem Told.discover (h : s.Told) (id : Nat) (rc : Int) : (s.discover id rc).Told := by
  unfold Central.discover
  split
  · exact h.congr rfl Iff.rfl (fun hc => hc) (fun hr => hr) Iff.rfl
  · exact h

theorem Told.setDisc (h : s.Told) (disc : Option Disc) (sub : Sub) (pending : Option Nat) :
    Told {s with disc := disc, sub := sub, pending := pending} :=
  h.congr rfl Iff.rfl (fun hc => hc) (fun hr => hr) Iff.rfl

theorem Told.connectedCb (h : s.Told) (hinv : s.Inv) {id : Nat}
    (hlink : s.links id = some .connecting) (err : UInt8) (discoverRc scanRc : Int) :
    (connectedCb {s with
      links := Function.update s.links id (if err = 0 then some .connected else none)}
      id err discoverRc scanRc).Told := by
  unfold Ble.connectedCb
  dsimp only
  by_cases hconn : s.conn = some id
  · have hlinked : ¬(heard s.emitted).Linked := by
      rw [h.up]
      exact not_linkUp hconn hlink
    rw [if_neg (not_not.mpr hconn)]
    by_cases herr : err = 0
    · subst herr
      obtain ⟨-, -, hsubscribed⟩ := hinv.connecting hconn hlink
      have hsaid := Told.said (e := .connected) (hinv.up hconn hlink)
        ⟨id, hconn, Function.update_self ..⟩ (Or.inl rfl)
        (fun hs => absurd (hsubscribed.symm.trans hs) (by simp))
      exact (hsaid.setDisc _ _ _).discover id discoverRc
    · rw [if_pos herr]
      refine Told.ended ?_ ?_ ?_ scanRc
      · rfl
      · exact hinv.not_scanning hconn
      · exact Heard.next_error hlinked
  · rw [if_pos hconn]
    exact h.setLink hconn _ s.nextId s.subscription

theorem Told.disconnectedCb (h : s.Told) (hinv : s.Inv) (id : Nat) (scanRc : Int) :
    (disconnectedCb {s with
      links := Function.update s.links id none
      subscription := if s.subscription = some id then none else s.subscription}
      id scanRc).Told := by
  unfold Ble.disconnectedCb
  dsimp only
  by_cases hconn : s.conn = some id
  · rw [if_neg (not_not.mpr hconn)]
    refine Told.ended ?_ ?_ ?_ scanRc
    · rfl
    · exact hinv.not_scanning hconn
    · rfl
  · rw [if_pos hconn]
    exact h.setLink hconn none s.nextId _

theorem Told.discoverFunc (h : s.Told) (hinv : s.Inv) {id : Nat}
    (hpending : s.pending = some id) (attr : Option Attr) (rc : Int) :
    (discoverFunc {s with pending := none} id attr rc).Told := by
  obtain ⟨hconn, hlink⟩ := hinv.pending id hpending
  have hup : s.LinkUp := ⟨id, hconn, hlink⟩
  have hlinked := h.up.mpr hup
  have hsubscribed : s.subscribed ≠ true := by
    rw [Ne, hinv.subscribed, Option.isSome_iff_exists]
    rintro ⟨id', hs⟩
    exact absurd ((hinv.subscription id' hs).2.2.symm.trans hpending) (by simp)
  have hun := hinv.unpend
  unfold Ble.discoverFunc
  split
  · exact h.setDisc none s.sub none
  · exact h.setDisc s.disc s.sub none
  · split
    · exact (h.setDisc _ s.sub none).discover id rc
    split
    · exact (h.setDisc _ _ none).discover id rc
    · dsimp only
      split
      · refine Told.said (hun.setDisc s.disc _) hup ?_ (fun hs => absurd hs hsubscribed)
        rcases hlinked with hh | hh <;> rw [hh]
        · exact Or.inl rfl
        · exact Or.inr rfl
      · exact Told.said ((hun.setDisc s.disc _).subscribe hconn hlink rfl) hup (Or.inr rfl)
          (fun _ => rfl)

theorem Told.scanCb (h : s.Told) (hinv : s.Inv) (hscanning : s.scanning = true)
    (d : ReportAnswer) (advType : UInt8) (els : List BtData) :
    (scanCb s d advType els).Told := by
  obtain ⟨hrunning, hconn⟩ := hinv.scanning hscanning
  have hseeking := (h.seeking hrunning).mpr (Or.inl hscanning)
  rcases scanCb_cases s d advType els with hs | hs | hs <;> rw [hs]
  · exact h
  · refine Told.startScan (s := {s with scanning := false}) hconn ?_ rfl d.scanRc
    change ¬(heard s.emitted).Linked
    rw [hseeking]
    rintro (hh | hh) <;> cases hh
  · have hlink : Function.update s.links s.nextId (some .connecting) s.nextId =
        some Link.connecting := Function.update_self ..
    have hnew := hinv.setScanning false (by simp)
    refine ⟨?_, fun hc => ?_, fun _ => iff_of_true hseeking (Or.inr ⟨s.nextId, rfl, hlink⟩)⟩
    · refine iff_of_false ?_ (not_linkUp rfl hlink)
      change ¬(heard s.emitted).Linked
      rw [hseeking]
      rintro (hh | hh) <;> cases hh
    · exact absurd ((hnew.create hconn rfl).linkUp_of_isConnected hc)
        (not_linkUp rfl hlink)

theorem Told.notifyFunc (h : s.Told) (id : Nat) (data : Option (List UInt8)) :
    (notifyFunc {s with subscription := if data.isNone then none else some id} data).Told := by
  unfold Ble.notifyFunc
  cases data with
  | none =>
      refine h.congr rfl Iff.rfl (fun hc => ?_) (fun hr => hr) Iff.rfl
      simp [appCentralIsConnected] at hc
  | some data =>
      dsimp only
      split
      · exact h.congr rfl Iff.rfl (fun hc => hc) (fun hr => hr) Iff.rfl
      · exact h.congr rfl Iff.rfl (fun hc => hc) (fun hr => hr) Iff.rfl

theorem Told.start (h : s.Told) (hinv : s.Inv) (hclear : s.running = true ∨ s.conn = none)
    (rxCb : Bool) (scanRc : Int) : (appCentralStart s rxCb scanRc).1.Told := by
  unfold appCentralStart
  split
  · exact h
  · next hstopped =>
    have hconn := hclear.resolve_left hstopped
    refine Told.startScan (s := {s with rxCb := rxCb, running := true}) hconn ?_ ?_ scanRc
    · change ¬(heard s.emitted).Linked
      rw [h.up]
      rintro ⟨id, hid, -⟩
      exact absurd (hconn.symm.trans hid) (by simp)
    · cases hs : s.scanning with
      | false => rfl
      | true => exact absurd (hinv.scanning hs).1 hstopped

theorem Told.step {s' : Central} {a : CentralAct} (h : s.Told) (hinv : s.Inv)
    (hclear : StartsUnlinked s a) (hstep : centralSystem.step s a = some s') : s'.Told := by
  cases a with
  | start rxCb scanRc =>
      obtain rfl := Option.some.inj hstep
      exact h.start hinv hclear rxCb scanRc
  | stop =>
      obtain rfl := Option.some.inj hstep
      exact ⟨h.up, h.ready, fun hr => absurd hr (by simp [appCentralStop])⟩
  | report advType els d =>
      obtain ⟨hscanning, hs⟩ := Option.ite_none_right_eq_some.mp hstep
      obtain rfl := Option.some.inj hs
      exact h.scanCb hinv hscanning d advType els
  | incoming =>
      have hother : s.conn ≠ some s.nextId := by
        intro hconn
        have hlink := hinv.link s.nextId hconn
        simp [hinv.fresh s.nextId (Nat.le_refl _)] at hlink
      obtain rfl := Option.some.inj hstep
      unfold Ble.connectedCb
      rw [if_pos hother]
      exact h.setLink hother (some .connected) (s.nextId + 1) s.subscription
  | connected id err discoverRc scanRc =>
      obtain ⟨hlink, hs⟩ := Option.ite_none_right_eq_some.mp hstep
      obtain rfl := Option.some.inj hs
      exact h.connectedCb hinv hlink err discoverRc scanRc
  | disconnected id scanRc =>
      obtain ⟨-, hs⟩ := Option.ite_none_right_eq_some.mp hstep
      obtain rfl := Option.some.inj hs
      exact h.disconnectedCb hinv id scanRc
  | discovered attr rc =>
      cases hpending : s.pending with
      | none => simp [centralSystem, hpending] at hstep
      | some id =>
          simp only [centralSystem, hpending, Option.some.injEq] at hstep
          subst hstep
          exact h.discoverFunc hinv hpending attr rc
  | notify data =>
      cases hsub : s.subscription with
      | none => simp [centralSystem, hsub] at hstep
      | some id =>
          simp only [centralSystem, hsub, Option.some.injEq] at hstep
          subst hstep
          exact h.notifyFunc id data

end Central

/-- An application that follows the events knows of the link, and while the central
runs also whether it seeks a sensor or has given up. -/
theorem events_tell (acts : List CentralAct)
    (hclear : centralSystem.Meets StartsUnlinked .powerUp acts) :
    centralSystem.Always Central.Told .powerUp acts := by
  have hboth : centralSystem.Always (fun s => s.Inv ∧ s.Told) .powerUp acts :=
    System.always_of_meets (fun _ _ _ h hc hstep => ⟨h.1.step hc hstep, h.2.step h.1 hc hstep⟩)
      ⟨Central.inv_powerUp, Central.told_powerUp⟩ hclear
  exact hboth.mono (fun _ h => h.2)

/-- The host refuses the second scan; the central stays without a sensor. -/
def givenUpSession : List CentralAct :=
  [.start true 0, .report 0 [⟨0x07, uuidBase 0xe300⟩] ⟨0, 0⟩, .connected 0 0 0 0,
    .disconnected 0 (-EALREADY)]

theorem events_tell_givenUp :
    centralSystem.Always Central.Told .powerUp givenUpSession := by
  refine events_tell givenUpSession (fun _ _ => ⟨Or.inr rfl, ?_⟩)
  repeat' first | exact trivial | refine fun _ _ => ⟨trivial, ?_⟩

end Rw612.Ble
