import Rw612.Lib.Transition
import Rw612.Lib.Wire

/-!
The central role of `ble_central.c`: the link to the sensor board, from the scan
over `bt_conn_le_create` and the three stages of the discovery to the
subscription. The Bluetooth host is the environment: it answers every call, and
it delivers reports, link events, discovered attributes and notifications as
documented. The callbacks run on the host's thread one after the other, and
`app_central_start` and `app_central_stop` between two of them.

The module holds one reference to its link, from `bt_conn_le_create` to the
callback that reports the end of the link, and scans only while it has none.
Both need `app_central_start` not to come while the link of an earlier start is
still there, since `s_conn` would be overwritten by the next sensor found.
-/

namespace Rw612.Ble

open Lib

def EALREADY : Int := 120

/-- `BT_UUID_128_ENCODE(0x5a637562, eXXX, 0x4000, 0x8000, 0x000000000001)` -/
def uuidBase (eXXX : UInt16) : List UInt8 :=
  [1, 0, 0, 0, 0, 0] ++ le16 0x8000 ++ le16 0x4000 ++ le16 eXXX ++ le32 0x5a637562

/-- `struct bt_uuid` -/
inductive Uuid where
  | short (v : UInt16)
  | long (v : List UInt8)
  deriving DecidableEq, Repr

/-- A 16-bit UUID stands for a 128-bit one of the Bluetooth base. -/
def Uuid.value : Uuid → List UInt8
  | .short v =>
      [0xFB, 0x34, 0x9B, 0x5F, 0x80, 0, 0, 0x80, 0, 0x10, 0, 0] ++ le16 v ++ [0, 0]
  | .long v => v

def btUuidCmp (u v : Uuid) : Bool := u.value != v.value

def sensorSvc : Uuid := .long (uuidBase 0xe300)
def sensorData : Uuid := .long (uuidBase 0xe301)
def cccUuid : Uuid := .short 0x2902

/-- `app_central_evt_t` -/
inductive CentralEvt where
  | scanning
  | connected
  | subscribed
  | disconnected
  | error
  deriving DecidableEq, Repr

inductive DiscoverType where
  | primary
  | characteristic
  | descriptor
  deriving DecidableEq, Repr

/-- `struct bt_gatt_discover_params` -/
structure Disc where
  uuid : Uuid
  startHandle : UInt16
  endHandle : UInt16
  type : DiscoverType
  deriving DecidableEq, Repr

/-- What a discovery reports. The value handle is that of a characteristic. -/
structure Attr where
  handle : UInt16
  valueHandle : UInt16
  deriving DecidableEq, Repr

/-- `struct bt_gatt_subscribe_params` -/
structure Sub where
  valueHandle : UInt16
  cccHandle : UInt16
  deriving DecidableEq, Repr

inductive Link where
  | connecting
  | connected
  deriving DecidableEq, Repr

/-- `disc` is `none` while `s_disc` is all zero. The fields from `scanning` on are
the host's: its links, the references to them that this module has been given less
those that it has given back, the link with a discovery under way and the one with
a subscription. -/
structure Central where
  conn : Option Nat
  disc : Option Disc
  sub : Sub
  rxCb : Bool
  running : Bool
  subscribed : Bool
  emitted : List CentralEvt
  received : List (List UInt8)
  scanning : Bool
  links : Nat → Option Link
  refs : Nat → Int
  nextId : Nat
  pending : Option Nat
  subscription : Option Nat

def Central.powerUp : Central where
  conn := none
  disc := none
  sub := ⟨0, 0⟩
  rxCb := false
  running := false
  subscribed := false
  emitted := []
  received := []
  scanning := false
  links := fun _ => none
  refs := fun _ => 0
  nextId := 0
  pending := none
  subscription := none

def Central.emit (s : Central) (e : CentralEvt) : Central :=
  {s with emitted := s.emitted ++ [e]}

/-- `rc` is the host's answer; it never starts a second scan. -/
def startScan (s : Central) (rc : Int) : Central × Int :=
  let err := if s.scanning then -EALREADY else rc
  if err ≠ 0 then (s.emit .error, err)
  else (({s with scanning := true}).emit .scanning, 0)

def BT_DATA_UUID128_SOME : UInt8 := 0x06
def BT_DATA_UUID128_ALL : UInt8 := 0x07
def BT_GAP_ADV_TYPE_ADV_IND : UInt8 := 0x00
def BT_GAP_ADV_TYPE_ADV_DIRECT_IND : UInt8 := 0x01

/-- `struct bt_data` -/
structure BtData where
  type : UInt8
  data : List UInt8
  deriving DecidableEq, Repr

/-- The loop of `eir_found` over the UUIDs of one element. -/
def listsSensor (data : List UInt8) : Bool :=
  (List.range (data.length / 16)).any
    (fun k => !btUuidCmp (.long ((data.drop (16 * k)).take 16)) sensorSvc)

/-- The host's answers to one advertising report. -/
structure ReportAnswer where
  createRc : Int
  scanRc : Int

/-- `bt_conn_le_create` has made a link and a reference to it. -/
def Central.create (s : Central) : Central :=
  {s with
    conn := some s.nextId
    links := Function.update s.links s.nextId (some .connecting)
    refs := Function.update s.refs s.nextId (s.refs s.nextId + 1)
    nextId := s.nextId + 1}

/-- The second component says whether the parsing goes on. -/
def eirFound (s : Central) (d : ReportAnswer) (el : BtData) : Central × Bool :=
  if el.type ≠ BT_DATA_UUID128_ALL ∧ el.type ≠ BT_DATA_UUID128_SOME then (s, true)
  else if el.data.length % 16 ≠ 0 then (s, true)
  else if listsSensor el.data then
    let s := {s with scanning := false}
    if d.createRc ≠ 0 then ((startScan s d.scanRc).1, false) else (s.create, false)
  else (s, true)

def btDataParse (s : Central) (d : ReportAnswer) : List BtData → Central
  | [] => s
  | el :: els =>
      match eirFound s d el with
      | (s, true) => btDataParse s d els
      | (s, false) => s

def scanCb (s : Central) (d : ReportAnswer) (advType : UInt8) (els : List BtData) : Central :=
  if advType ≠ BT_GAP_ADV_TYPE_ADV_IND ∧ advType ≠ BT_GAP_ADV_TYPE_ADV_DIRECT_IND then s
  else btDataParse s d els

/-- A list of 128-bit UUIDs, the sensor's among them. -/
def BtData.Lists (el : BtData) : Prop :=
  (el.type = BT_DATA_UUID128_ALL ∨ el.type = BT_DATA_UUID128_SOME) ∧
    ∃ front back, el.data = front ++ uuidBase 0xe300 ++ back ∧ front.length % 16 = 0 ∧
      back.length % 16 = 0

/-- A connectable report of a board that offers the sensor service. -/
def Advertises (advType : UInt8) (els : List BtData) : Prop :=
  (advType = BT_GAP_ADV_TYPE_ADV_IND ∨ advType = BT_GAP_ADV_TYPE_ADV_DIRECT_IND) ∧
    ∃ el ∈ els, el.Lists

/-- `bt_gatt_discover` with the parameters `s_disc`; `rc` is its answer. -/
def Central.discover (s : Central) (id : Nat) (rc : Int) : Central :=
  if rc = 0 then {s with pending := some id} else s

def beginDiscovery (s : Central) (id : Nat) (rc : Int) : Central :=
  ({s with disc := some ⟨sensorSvc, 0x0001, 0xffff, .primary⟩}).discover id rc

/-- `attr` is `none` for the call that ends a discovery; `rc` is the host's answer
to the call of `bt_gatt_discover` or `bt_gatt_subscribe` that is made here. -/
def discoverFunc (s : Central) (id : Nat) (attr : Option Attr) (rc : Int) : Central :=
  match attr, s.disc with
  | none, _ => {s with disc := none}
  | some _, none => s
  | some attr, some disc =>
      if !btUuidCmp disc.uuid sensorSvc then
        ({s with
          disc := some {disc with
            uuid := sensorData
            startHandle := attr.handle + 1
            type := .characteristic}}).discover id rc
      else if !btUuidCmp disc.uuid sensorData then
        ({s with
          sub := {s.sub with valueHandle := attr.valueHandle}
          disc := some {disc with
            uuid := cccUuid
            startHandle := attr.handle + 2
            type := .descriptor}}).discover id rc
      else
        let s := {s with sub := {s.sub with cccHandle := attr.handle}}
        if rc ≠ 0 ∧ rc ≠ -EALREADY then s.emit .error
        else ({s with subscribed := true, subscription := some id}).emit .subscribed

def notifyFunc (s : Central) (data : Option (List UInt8)) : Central :=
  match data with
  | none => {s with subscribed := false}
  | some data => if s.rxCb then {s with received := s.received ++ [data]} else s

/-- `bt_conn_unref` -/
def Central.unref (s : Central) (id : Nat) : Central :=
  {s with refs := Function.update s.refs id (s.refs id - 1)}

def connectedCb (s : Central) (id : Nat) (err : UInt8) (discoverRc scanRc : Int) : Central :=
  if s.conn ≠ some id then s
  else if err ≠ 0 then
    let s := ({s.unref id with conn := none}).emit .error
    if s.running then (startScan s scanRc).1 else s
  else beginDiscovery (s.emit .connected) id discoverRc

def disconnectedCb (s : Central) (id : Nat) (scanRc : Int) : Central :=
  if s.conn ≠ some id then s
  else
    let s := ({s.unref id with conn := none, subscribed := false}).emit .disconnected
    if s.running then (startScan s scanRc).1 else s

def appCentralStart (s : Central) (rxCb : Bool) (scanRc : Int) : Central × Int :=
  if s.running then (s, 0)
  else startScan {s with rxCb := rxCb, running := true} scanRc

/-- The disconnect request shows in a later callback only. -/
def appCentralStop (s : Central) : Central :=
  {s with running := false, scanning := false}

def appCentralIsConnected (s : Central) : Bool := s.conn.isSome && s.subscribed

inductive CentralAct where
  | start (rxCb : Bool) (scanRc : Int)
  | stop
  | report (advType : UInt8) (els : List BtData) (d : ReportAnswer)
  | incoming
  | connected (id : Nat) (err : UInt8) (discoverRc scanRc : Int)
  | disconnected (id : Nat) (scanRc : Int)
  | discovered (attr : Option Attr) (rc : Int)
  | notify (data : Option (List UInt8))

/-- The host reports to every module, also the links that phones open. It ends the
discovery of a link before it reports the end of the link. -/
def centralSystem : System Central CentralAct where
  step s
    | .start rxCb scanRc => some (appCentralStart s rxCb scanRc).1
    | .stop => some (appCentralStop s)
    | .report advType els d => if s.scanning then some (scanCb s d advType els) else none
    | .incoming =>
        let s' := {s with
          links := Function.update s.links s.nextId (some .connected)
          nextId := s.nextId + 1}
        some (connectedCb s' s.nextId 0 0 0)
    | .connected id err discoverRc scanRc =>
        if s.links id = some .connecting then
          let link := if err = 0 then some .connected else none
          some (connectedCb {s with links := Function.update s.links id link} id err
            discoverRc scanRc)
        else none
    | .disconnected id scanRc =>
        if s.links id = some .connected ∧ s.pending ≠ some id then
          some (disconnectedCb {s with
            links := Function.update s.links id none
            subscription := if s.subscription = some id then none else s.subscription}
            id scanRc)
        else none
    | .discovered attr rc =>
        match s.pending with
        | none => none
        | some id => some (discoverFunc {s with pending := none} id attr rc)
    | .notify data =>
        match s.subscription with
        | none => none
        | some id =>
            some (notifyFunc {s with
              subscription := if data.isNone then none else some id} data)

/-- An application that starts the central only when no link is left from before. -/
def StartsUnlinked (s : Central) : CentralAct → Prop
  | .start _ _ => s.running = true ∨ s.conn = none
  | _ => True

/-- What the module says of its link agrees with the host: one reference to the
link it has and none to another, a scan only while it runs and has no link, a
discovery or else a subscription of this link only, while it is up, and
`app_central_is_connected` as long as the host has the subscription. -/
structure Central.Accounts (s : Central) : Prop where
  refs : ∀ id, s.refs id = if s.conn = some id then 1 else 0
  link : ∀ id, s.conn = some id → (s.links id).isSome
  scanning : s.scanning = true → s.running = true ∧ s.conn = none
  pending : ∀ id, s.pending = some id → s.conn = some id ∧ s.links id = some .connected
  subscription : ∀ id, s.subscription = some id →
    s.conn = some id ∧ s.links id = some .connected ∧ s.pending = none
  connected : appCentralIsConnected s = true ↔
    ∃ id, s.conn = some id ∧ s.links id = some .connected ∧ s.subscription = some id

theorem listsSensor_iff {data : List UInt8} (hlen : data.length % 16 = 0) :
    listsSensor data = true ↔
      ∃ front back, data = front ++ uuidBase 0xe300 ++ back ∧ front.length % 16 = 0 ∧
        back.length % 16 = 0 := by
  have huuid : (uuidBase 0xe300).length = 16 := rfl
  have hblock : ∀ u : List UInt8, (!btUuidCmp (.long u) sensorSvc) = true ↔
      u = uuidBase 0xe300 := by
    intro u
    simp [btUuidCmp, sensorSvc, Uuid.value]
  simp only [listsSensor, List.any_eq_true, List.mem_range, hblock]
  constructor
  · rintro ⟨k, hk, hat⟩
    have hroom : 16 * k + 16 ≤ data.length := by omega
    refine ⟨data.take (16 * k), (data.drop (16 * k)).drop 16, ?_, ?_, ?_⟩
    · rw [← hat, List.append_assoc, List.take_append_drop, List.take_append_drop]
    · rw [List.length_take]
      omega
    · simp only [List.length_drop]
      omega
  · rintro ⟨front, back, rfl, hfront, -⟩
    have hk : 16 * (front.length / 16) = front.length := by omega
    refine ⟨front.length / 16, ?_, ?_⟩
    · simp only [List.length_append, huuid]
      omega
    · rw [hk, List.append_assoc, List.drop_left, ← huuid, List.take_left]

/-- What a match does: the scan ends and the link is asked for, and where the host
refuses the link the scan goes on. -/
def Central.matched (s : Central) (d : ReportAnswer) : Central :=
  if d.createRc ≠ 0 then (startScan {s with scanning := false} d.scanRc).1
  else ({s with scanning := false}).create

theorem eirFound_eq (s : Central) (d : ReportAnswer) (el : BtData) :
    (el.Lists → eirFound s d el = (s.matched d, false)) ∧
      (¬el.Lists → eirFound s d el = (s, true)) := by
  unfold eirFound BtData.Lists
  by_cases htype : el.type ≠ BT_DATA_UUID128_ALL ∧ el.type ≠ BT_DATA_UUID128_SOME
  · rw [if_pos htype]
    exact ⟨fun h => absurd h.1 (not_or.mpr htype), fun _ => rfl⟩
  · rw [if_neg htype]
    have hlist : el.type = BT_DATA_UUID128_ALL ∨ el.type = BT_DATA_UUID128_SOME := by
      by_contra hne
      exact htype (not_or.mp hne)
    by_cases hlen : el.data.length % 16 = 0
    · rw [if_neg (not_not.mpr hlen), ← listsSensor_iff hlen]
      constructor
      · rintro ⟨-, hsensor⟩
        rw [if_pos hsensor, Central.matched]
        dsimp only
        split <;> rfl
      · intro hnot
        rw [if_neg (fun hsensor => hnot ⟨hlist, hsensor⟩)]
    · rw [if_pos hlen]
      refine ⟨?_, fun _ => rfl⟩
      rintro ⟨-, front, back, hdata, hfront, hback⟩
      have huuid : (uuidBase 0xe300).length = 16 := rfl
      simp only [hdata, List.length_append, huuid] at hlen
      omega

theorem btDataParse_eq (s : Central) (d : ReportAnswer) (els : List BtData) :
    ((∃ el ∈ els, el.Lists) → btDataParse s d els = s.matched d) ∧
      ((¬∃ el ∈ els, el.Lists) → btDataParse s d els = s) := by
  induction els with
  | nil => exact ⟨by simp, fun _ => rfl⟩
  | cons el els ih =>
      obtain ⟨hyes, hno⟩ := eirFound_eq s d el
      by_cases hel : el.Lists
      · refine ⟨fun _ => by rw [btDataParse, hyes hel], fun hnone => ?_⟩
        exact absurd ⟨el, List.mem_cons_self, hel⟩ hnone
      · rw [btDataParse, hno hel]
        simpa [hel] using ih

/-- The central asks for a link exactly to those who advertise the sensor service in
a connectable report. -/
theorem scan_asks_iff (s : Central) (d : ReportAnswer) (advType : UInt8) (els : List BtData) :
    (Advertises advType els → scanCb s d advType els = s.matched d) ∧
      (¬Advertises advType els → scanCb s d advType els = s) := by
  unfold scanCb Advertises
  by_cases htype : advType ≠ BT_GAP_ADV_TYPE_ADV_IND ∧ advType ≠ BT_GAP_ADV_TYPE_ADV_DIRECT_IND
  · rw [if_pos htype]
    exact ⟨fun h => absurd h.1 (not_or.mpr htype), fun _ => rfl⟩
  · rw [if_neg htype]
    have hind : advType = BT_GAP_ADV_TYPE_ADV_IND ∨ advType = BT_GAP_ADV_TYPE_ADV_DIRECT_IND := by
      by_contra hne
      exact htype (not_or.mp hne)
    simpa [hind] using btDataParse_eq s d els

/-- A scan that the host refuses leaves a report of it. -/
theorem startScan_cases (s : Central) (rc : Int) :
    (startScan s rc).1 = s.emit .error ∨
      (startScan s rc).1 = ({s with scanning := true}).emit .scanning := by
  unfold startScan
  generalize (if s.scanning then -EALREADY else rc) = err
  dsimp only
  split
  · exact Or.inl rfl
  · exact Or.inr rfl

theorem scanCb_cases (s : Central) (d : ReportAnswer) (advType : UInt8) (els : List BtData) :
    scanCb s d advType els = s ∨
      scanCb s d advType els = (startScan {s with scanning := false} d.scanRc).1 ∨
      scanCb s d advType els = ({s with scanning := false}).create := by
  have hparse : btDataParse s d els = s ∨ btDataParse s d els = s.matched d := by
    obtain ⟨hyes, hno⟩ := btDataParse_eq s d els
    exact (Classical.em (∃ el ∈ els, el.Lists)).symm.imp hno hyes
  unfold scanCb
  split
  · exact Or.inl rfl
  · refine hparse.imp_right (fun hmatched => ?_)
    rw [hmatched, Central.matched]
    split
    · exact Or.inl rfl
    · exact Or.inr rfl

structure Central.Inv (s : Central) : Prop where
  refs : ∀ id, s.refs id = if s.conn = some id then 1 else 0
  link : ∀ id, s.conn = some id → (s.links id).isSome
  scanning : s.scanning = true → s.running = true ∧ s.conn = none
  subscribed : s.subscribed = true ↔ s.subscription.isSome = true
  subscription : ∀ id, s.subscription = some id →
    s.conn = some id ∧ s.links id = some .connected ∧ s.pending = none
  pending : ∀ id, s.pending = some id → s.conn = some id ∧ s.links id = some .connected
  fresh : ∀ id, s.nextId ≤ id → s.links id = none

theorem Central.inv_powerUp : Central.powerUp.Inv := by
  constructor <;> simp [Central.powerUp]

namespace Central.Inv

variable {s : Central}

theorem accounts (h : s.Inv) : s.Accounts where
  refs := h.refs
  link := h.link
  scanning := h.scanning
  pending := h.pending
  subscription := h.subscription
  connected := by
    rw [appCentralIsConnected, Bool.and_eq_true, h.subscribed]
    constructor
    · rintro ⟨-, hsome⟩
      obtain ⟨id, hid⟩ := Option.isSome_iff_exists.mp hsome
      obtain ⟨hconn, hlink, -⟩ := h.subscription id hid
      exact ⟨id, hconn, hlink, hid⟩
    · rintro ⟨id, hconn, -, hid⟩
      simp [hconn, hid]

theorem emit (h : s.Inv) (e : CentralEvt) : (s.emit e).Inv :=
  ⟨h.refs, h.link, h.scanning, h.subscribed, h.subscription, h.pending, h.fresh⟩

theorem setScanning (h : s.Inv) (scanning : Bool)
    (hscanning : scanning = true → s.running = true ∧ s.conn = none) :
    Inv {s with scanning := scanning} :=
  ⟨h.refs, h.link, hscanning, h.subscribed, h.subscription, h.pending, h.fresh⟩

theorem startScan (h : s.Inv) (hrunning : s.running = true) (hconn : s.conn = none)
    (rc : Int) : (startScan s rc).1.Inv := by
  rcases startScan_cases s rc with hs | hs <;> rw [hs]
  · exact h.emit .error
  · exact (h.setScanning true (fun _ => ⟨hrunning, hconn⟩)).emit .scanning

/-- The link that has no callback to come any more is given back. -/
theorem unlink (h : s.Inv) {id : Nat} (hconn : s.conn = some id)
    (hpending : s.pending ≠ some id) {subscribed : Bool} {subscription : Option Nat}
    (hsubscribed : subscribed = false) (hsub : subscription = none) :
    Inv {s with
      conn := none
      subscribed := subscribed
      links := Function.update s.links id none
      refs := Function.update s.refs id (s.refs id - 1)
      subscription := subscription} := by
  subst hsubscribed hsub
  refine ⟨fun id' => ?_, by simp, fun hscan => ⟨(h.scanning hscan).1, rfl⟩, by simp, by simp,
    fun id' hid' => ?_, fun id' hid' => ?_⟩
  · by_cases hid : id' = id
    · subst hid
      simp [h.refs, hconn]
    · have hne : s.conn ≠ some id' := by
        rw [hconn]
        exact fun heq => hid (Option.some.inj heq).symm
      simp [Function.update_of_ne hid, h.refs, hne]
  · obtain ⟨hconn', -⟩ := h.pending id' hid'
    rw [hconn] at hconn'
    exact absurd (hconn' ▸ hid') hpending
  · by_cases hid : id' = id
    · subst hid
      exact Function.update_self ..
    · exact (Function.update_of_ne hid ..).trans (h.fresh id' hid')

theorem create (h : s.Inv) (hconn : s.conn = none) (hscanning : s.scanning = false) :
    s.create.Inv := by
  have hnone : ∀ id, s.conn ≠ some id := by simp [hconn]
  have hpending : ∀ id, s.pending ≠ some id := fun id hid => hnone id (h.pending id hid).1
  have hsub : ∀ id, s.subscription ≠ some id := fun id hid => hnone id (h.subscription id hid).1
  refine ⟨fun id => ?_, fun id hid => ?_, ?_, h.subscribed, fun id hid => absurd hid (hsub id),
    fun id hid => absurd hid (hpending id), fun id hid => ?_⟩
  · by_cases hid : id = s.nextId
    · subst hid
      simp [Central.create, h.refs, hconn]
    · simp [Central.create, Function.update_of_ne hid, h.refs, hconn, Ne.symm hid]
  · obtain rfl := Option.some.inj hid
    simp [Central.create]
  · intro hscan
    exact absurd hscan (by simp [Central.create, hscanning])
  · have hne : id ≠ s.nextId := Nat.ne_of_gt hid
    exact (Function.update_of_ne hne ..).trans (h.fresh id (Nat.le_of_succ_le hid))

theorem scanCb (h : s.Inv) (hscanning : s.scanning = true) (d : ReportAnswer)
    (advType : UInt8) (els : List BtData) : (scanCb s d advType els).Inv := by
  obtain ⟨hrunning, hconn⟩ := h.scanning hscanning
  have hstopped := h.setScanning false (by simp)
  rcases scanCb_cases s d advType els with hs | hs | hs <;> rw [hs]
  · exact h
  · exact hstopped.startScan hrunning hconn d.scanRc
  · exact hstopped.create hconn rfl

theorem discover (h : s.Inv) {id : Nat} (hconn : s.conn = some id)
    (hlink : s.links id = some .connected) (hsub : s.subscription = none) (rc : Int) :
    (s.discover id rc).Inv := by
  unfold Central.discover
  split
  · refine ⟨h.refs, h.link, h.scanning, h.subscribed, fun id' hid' => ?_, fun id' hid' => ?_,
      h.fresh⟩
    · exact absurd (hsub.symm.trans hid') (by simp)
    · obtain rfl := Option.some.inj hid'
      exact ⟨hconn, hlink⟩
  · exact h

theorem setDisc (h : s.Inv) (disc : Option Disc) (sub : Sub) :
    Inv {s with disc := disc, sub := sub} :=
  ⟨h.refs, h.link, h.scanning, h.subscribed, h.subscription, h.pending, h.fresh⟩

/-- The discovery of the link has ended, or a callback of it is being served. -/
theorem unpend (h : s.Inv) : Inv {s with pending := none} :=
  ⟨h.refs, h.link, h.scanning, h.subscribed,
    fun id hid => ⟨(h.subscription id hid).1, (h.subscription id hid).2.1, rfl⟩,
    fun _ hid => absurd hid (by simp), h.fresh⟩

theorem subscribe (h : s.Inv) {id : Nat} (hconn : s.conn = some id)
    (hlink : s.links id = some .connected) (hpending : s.pending = none) :
    Inv {s with subscribed := true, subscription := some id} := by
  refine ⟨h.refs, h.link, h.scanning, by simp, fun id' hid' => ?_, h.pending, h.fresh⟩
  obtain rfl := Option.some.inj hid'
  exact ⟨hconn, hlink, hpending⟩

theorem discoverFunc (h : s.Inv) {id : Nat} (hpending : s.pending = some id)
    (attr : Option Attr) (rc : Int) :
    (discoverFunc {s with pending := none} id attr rc).Inv := by
  obtain ⟨hconn, hlink⟩ := h.pending id hpending
  have hsub : s.subscription = none := by
    cases hs : s.subscription with
    | none => rfl
    | some id' => exact absurd ((h.subscription id' hs).2.2.symm.trans hpending) (by simp)
  have hun := h.unpend
  unfold Ble.discoverFunc
  split
  · exact hun.setDisc none s.sub
  · exact hun
  · split
    · exact (hun.setDisc _ s.sub).discover hconn hlink hsub rc
    split
    · exact (hun.setDisc _ _).discover hconn hlink hsub rc
    · dsimp only
      split
      · exact (hun.setDisc s.disc _).emit .error
      · exact ((hun.setDisc s.disc _).subscribe hconn hlink rfl).emit .subscribed

theorem notifyFunc (h : s.Inv) {id : Nat} (hsub : s.subscription = some id)
    (data : Option (List UInt8)) :
    (notifyFunc {s with subscription := if data.isNone then none else some id} data).Inv := by
  unfold Ble.notifyFunc
  cases data with
  | none =>
      exact ⟨h.refs, h.link, h.scanning, by simp, by simp, h.pending, h.fresh⟩
  | some data =>
      have hsame : {s with subscription := some id} = s := by rw [← hsub]
      simp only [Option.isNone_some, Bool.false_eq_true, if_false, hsame]
      split
      · rw [← hsub]
        exact ⟨h.refs, h.link, h.scanning, h.subscribed, h.subscription, h.pending, h.fresh⟩
      · exact h

theorem lt_nextId (h : s.Inv) {id : Nat} {link : Link} (hlink : s.links id = some link) :
    id < s.nextId := by
  by_contra hfresh
  simp [h.fresh id (Nat.le_of_not_lt hfresh)] at hlink

/-- A link of another role changes. -/
theorem setLink (h : s.Inv) {id : Nat} (hconn : s.conn ≠ some id) (link : Option Link)
    {nextId : Nat} (hnext : s.nextId ≤ nextId) (hid : id < nextId) :
    Inv {s with links := Function.update s.links id link, nextId := nextId} := by
  have hsame : ∀ id', s.conn = some id' → Function.update s.links id link id' = s.links id' := by
    intro id' hid'
    refine Function.update_of_ne ?_ ..
    rintro rfl
    exact hconn hid'
  refine ⟨h.refs, fun id' hid' => ?_, h.scanning, h.subscribed, fun id' hid' => ?_,
    fun id' hid' => ?_, fun id' hid' => ?_⟩
  · exact (congrArg Option.isSome (hsame id' hid')).trans (h.link id' hid')
  · obtain ⟨hconn', hlink, hpending⟩ := h.subscription id' hid'
    exact ⟨hconn', (hsame id' hconn').trans hlink, hpending⟩
  · obtain ⟨hconn', hlink⟩ := h.pending id' hid'
    exact ⟨hconn', (hsame id' hconn').trans hlink⟩
  · have hne : id' ≠ id := Nat.ne_of_gt (Nat.lt_of_lt_of_le hid hid')
    exact (Function.update_of_ne hne ..).trans (h.fresh id' (Nat.le_trans hnext hid'))

/-- Nothing is under way on a link that is not up. -/
theorem connecting (h : s.Inv) {id : Nat} (hconn : s.conn = some id)
    (hlink : s.links id = some .connecting) :
    s.subscription = none ∧ s.pending = none ∧ s.subscribed = false := by
  have hdown : ∀ id', s.conn = some id' → s.links id' ≠ some .connected := by
    intro id' hid'
    obtain rfl := Option.some.inj (hconn.symm.trans hid')
    simp [hlink]
  have hsub : s.subscription = none := by
    cases hs : s.subscription with
    | none => rfl
    | some id' => exact absurd (h.subscription id' hs).2.1 (hdown id' (h.subscription id' hs).1)
  refine ⟨hsub, ?_, ?_⟩
  · cases hp : s.pending with
    | none => rfl
    | some id' => exact absurd (h.pending id' hp).2 (hdown id' (h.pending id' hp).1)
  · have := h.subscribed
    simpa [hsub] using this

/-- The host reports the link as up. -/
theorem up (h : s.Inv) {id : Nat} (hconn : s.conn = some id)
    (hlink : s.links id = some .connecting) :
    Inv {s with links := Function.update s.links id (some .connected)} := by
  obtain ⟨hsub, hpending, -⟩ := h.connecting hconn hlink
  have hid := h.lt_nextId hlink
  refine ⟨h.refs, fun id' hid' => ?_, h.scanning, h.subscribed, by simp [hsub],
    by simp [hpending], fun id' hid' => ?_⟩
  · obtain rfl := Option.some.inj (hconn.symm.trans hid')
    simp
  · have hne : id' ≠ id := Nat.ne_of_gt (Nat.lt_of_lt_of_le hid hid')
    exact (Function.update_of_ne hne ..).trans (h.fresh id' hid')

/-- The end of the module's link, and the scan that may follow. -/
theorem ended (h : s.Inv) (hconn : s.conn = none) (e : CentralEvt) (scanRc : Int) :
    (if (s.emit e).running then (Ble.startScan (s.emit e) scanRc).1 else s.emit e).Inv := by
  split
  · next hrunning => exact (h.emit e).startScan hrunning hconn scanRc
  · exact h.emit e

theorem connectedCb (h : s.Inv) {id : Nat} (hlink : s.links id = some .connecting)
    (err : UInt8) (discoverRc scanRc : Int) :
    (connectedCb {s with
      links := Function.update s.links id (if err = 0 then some .connected else none)}
      id err discoverRc scanRc).Inv := by
  unfold Ble.connectedCb
  dsimp only
  by_cases hconn : s.conn = some id
  · obtain ⟨hsub, hpending, hsubscribed⟩ := h.connecting hconn hlink
    rw [if_neg (not_not.mpr hconn)]
    by_cases herr : err = 0
    · subst herr
      have hup := h.up hconn hlink
      exact ((hup.emit .connected).setDisc _ _).discover hconn (Function.update_self ..) hsub
        discoverRc
    · have hun := h.unlink hconn (by simp [hpending]) hsubscribed hsub
      simp only [if_pos herr, if_neg herr]
      exact hun.ended rfl .error scanRc
  · rw [if_pos hconn]
    exact h.setLink hconn _ (Nat.le_refl _) (h.lt_nextId hlink)

theorem disconnectedCb (h : s.Inv) {id : Nat} (hlink : s.links id = some .connected)
    (hpending : s.pending ≠ some id) (scanRc : Int) :
    (disconnectedCb {s with
      links := Function.update s.links id none
      subscription := if s.subscription = some id then none else s.subscription}
      id scanRc).Inv := by
  unfold Ble.disconnectedCb
  dsimp only
  by_cases hconn : s.conn = some id
  · have hsub : (if s.subscription = some id then none else s.subscription) = none := by
      split
      · rfl
      · next hne =>
        cases hs : s.subscription with
        | none => rfl
        | some id' =>
            have hconn' := (h.subscription id' hs).1
            exact absurd (hs.trans (hconn'.symm.trans hconn)) hne
    rw [if_neg (not_not.mpr hconn)]
    exact (h.unlink hconn hpending rfl hsub).ended rfl .disconnected scanRc
  · have hsub : (if s.subscription = some id then none else s.subscription) =
        s.subscription := by
      refine if_neg (fun hs => ?_)
      exact hconn (h.subscription id hs).1
    rw [if_pos hconn, hsub]
    exact h.setLink hconn none (Nat.le_refl _) (h.lt_nextId hlink)

theorem start (h : s.Inv) (hclear : s.running = true ∨ s.conn = none) (rxCb : Bool)
    (scanRc : Int) : (appCentralStart s rxCb scanRc).1.Inv := by
  unfold appCentralStart
  split
  · exact h
  · next hstopped =>
    have hconn := hclear.resolve_left hstopped
    have hready : Inv {s with rxCb := rxCb, running := true} :=
      ⟨h.refs, h.link, fun hscan => ⟨rfl, (h.scanning hscan).2⟩, h.subscribed, h.subscription,
        h.pending, h.fresh⟩
    exact hready.startScan rfl hconn scanRc

theorem step {s' : Central} {a : CentralAct} (h : s.Inv) (hclear : StartsUnlinked s a)
    (hstep : centralSystem.step s a = some s') : s'.Inv := by
  cases a with
  | start rxCb scanRc =>
      obtain rfl := Option.some.inj hstep
      exact h.start hclear rxCb scanRc
  | stop =>
      obtain rfl := Option.some.inj hstep
      exact ⟨h.refs, h.link, by simp [appCentralStop], h.subscribed, h.subscription, h.pending,
        h.fresh⟩
  | report advType els d =>
      obtain ⟨hscanning, hs⟩ := Option.ite_none_right_eq_some.mp hstep
      obtain rfl := Option.some.inj hs
      exact h.scanCb hscanning d advType els
  | incoming =>
      have hother : s.conn ≠ some s.nextId := by
        intro hconn
        have hlink := h.link s.nextId hconn
        simp [h.fresh s.nextId (Nat.le_refl _)] at hlink
      obtain rfl := Option.some.inj hstep
      unfold Ble.connectedCb
      rw [if_pos hother]
      exact h.setLink hother (some .connected) (Nat.le_succ _) (Nat.lt_succ_self _)
  | connected id err discoverRc scanRc =>
      obtain ⟨hlink, hs⟩ := Option.ite_none_right_eq_some.mp hstep
      obtain rfl := Option.some.inj hs
      exact h.connectedCb hlink err discoverRc scanRc
  | disconnected id scanRc =>
      obtain ⟨⟨hlink, hpending⟩, hs⟩ := Option.ite_none_right_eq_some.mp hstep
      obtain rfl := Option.some.inj hs
      exact h.disconnectedCb hlink hpending scanRc
  | discovered attr rc =>
      cases hpending : s.pending with
      | none => simp [centralSystem, hpending] at hstep
      | some id =>
          simp only [centralSystem, hpending, Option.some.injEq] at hstep
          subst hstep
          exact h.discoverFunc hpending attr rc
  | notify data =>
      cases hsub : s.subscription with
      | none => simp [centralSystem, hsub] at hstep
      | some id =>
          simp only [centralSystem, hsub, Option.some.injEq] at hstep
          subst hstep
          exact h.notifyFunc hsub data

end Central.Inv

/-- However the calls, the reports, the links and the host's answers are ordered,
the module's references, its scan and `app_central_is_connected` agree with the
host. -/
theorem central_accounts (acts : List CentralAct)
    (hclear : centralSystem.Meets StartsUnlinked .powerUp acts) :
    centralSystem.Always Central.Accounts .powerUp acts :=
  (System.always_of_meets (fun _ _ _ h hc hstep => h.step hc hstep) Central.inv_powerUp
    hclear).mono (fun _ h => h.accounts)

/-- A sensor is found, discovered and subscribed to, sends a value and goes away. -/
def sensorSession : List CentralAct :=
  [.start true 0, .report 0 [⟨0x01, [6]⟩, ⟨0x07, uuidBase 0xe300⟩] ⟨0, 0⟩, .connected 0 0 0 0,
    .discovered (some ⟨16, 0⟩) 0, .discovered (some ⟨17, 18⟩) 0, .discovered (some ⟨19, 0⟩) 0,
    .notify (some [1, 2]), .notify none, .disconnected 0 0]

theorem central_accounts_sensorSession :
    (centralSystem.exec .powerUp sensorSession).map Central.received = some [[1, 2]] ∧
      centralSystem.Always Central.Accounts .powerUp sensorSession := by
  refine ⟨by decide +kernel, central_accounts sensorSession (fun _ _ => ⟨Or.inr rfl, ?_⟩)⟩
  repeat' first | exact trivial | refine fun _ _ => ⟨trivial, ?_⟩

end Rw612.Ble
