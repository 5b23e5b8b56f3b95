import Rw612.Ble.Central

/-!
The discovery of `ble_central.c` against a whole attribute table. `discover_func`
only ever moves the start handle on: it looks for the sensor service, for the
data characteristic after it and for a CCC descriptor after that. On the table of
a board whose sensor service has the data characteristic with its CCC, among any
other services, characteristics and descriptors, it arrives at the handles of
that characteristic and of that descriptor.
-/

namespace Rw612.Ble

open Lib

/-- What an attribute declares. A characteristic's value follows its declaration. -/
inductive AttrKind where
  | service (uuid : Uuid)
  | characteristic (uuid : Uuid)
  | value
  | descriptor (uuid : Uuid)
  deriving DecidableEq, Repr

structure Entry where
  handle : Nat
  kind : AttrKind
  deriving DecidableEq, Repr

structure Characteristic where
  uuid : Uuid
  descriptors : List Uuid

structure Service where
  uuid : Uuid
  characteristics : List Characteristic

/-- The entries of one thing after the other, handles counting on. -/
def layout {α : Type*} (place : Nat → α → List Entry) : (h : Nat) → List α → List Entry
  | _, [] => []
  | h, x :: xs => place h x ++ layout place (h + (place h x).length) xs

def placeDescriptor (h : Nat) (uuid : Uuid) : List Entry := [⟨h, .descriptor uuid⟩]

def Characteristic.place (h : Nat) (c : Characteristic) : List Entry :=
  ⟨h, .characteristic c.uuid⟩ :: ⟨h + 1, .value⟩ :: layout placeDescriptor (h + 2) c.descriptors

def Service.place (h : Nat) (v : Service) : List Entry :=
  ⟨h, .service v.uuid⟩ :: layout Characteristic.place (h + 1) v.characteristics

/-- The attribute table of a board; handles start at 1. -/
def attributes (profile : List Service) : List Entry := layout Service.place 1 profile

def AttrKind.matches (kind : AttrKind) (type : DiscoverType) (uuid : Uuid) : Bool :=
  match kind, type with
  | .service u, .primary => !btUuidCmp u uuid
  | .characteristic u, .characteristic => !btUuidCmp u uuid
  | .descriptor u, .descriptor => !btUuidCmp u uuid
  | _, _ => false

def Disc.hits (disc : Disc) (e : Entry) : Bool :=
  decide (disc.startHandle.toNat ≤ e.handle) && decide (e.handle ≤ disc.endHandle.toNat) &&
    e.kind.matches disc.type disc.uuid

/-- The first attribute that a discovery reports. -/
def findAttr (table : List Entry) (disc : Disc) : Option Attr :=
  (table.find? disc.hits).map (fun e => ⟨UInt16.ofNat e.handle, UInt16.ofNat (e.handle + 1)⟩)

/-- The host serves the discovery under way from the table of the board. -/
def serve (table : List Entry) (s : Central) : Option Central :=
  centralSystem.step s (.discovered (s.disc.bind (findAttr table)) 0)

/-- Handles that count on from `h`. -/
def Consecutive (h : Nat) (es : List Entry) : Prop :=
  es.map Entry.handle = List.range' h es.length

theorem Consecutive.append {h : Nat} {es es' : List Entry} (hes : Consecutive h es)
    (hes' : Consecutive (h + es.length) es') : Consecutive h (es ++ es') := by
  unfold Consecutive at *
  rw [List.map_append, hes, hes', List.range'_append_1, List.length_append]

theorem Consecutive.cons {h : Nat} {kind : AttrKind} {es : List Entry}
    (hes : Consecutive (h + 1) es) : Consecutive h (⟨h, kind⟩ :: es) := by
  have hhead : Consecutive h [⟨h, kind⟩] := rfl
  exact hhead.append hes

theorem Consecutive.bounds {h : Nat} {es : List Entry} (hes : Consecutive h es) {e : Entry}
    (he : e ∈ es) : h ≤ e.handle ∧ e.handle < h + es.length := by
  have hmem : e.handle ∈ List.range' h es.length := by
    rw [← hes]
    exact List.mem_map_of_mem he
  rw [List.mem_range'_1] at hmem
  exact hmem

theorem consecutive_layout {α : Type*} {place : Nat → α → List Entry}
    (hplace : ∀ h x, Consecutive h (place h x)) (h : Nat) (xs : List α) :
    Consecutive h (layout place h xs) := by
  induction xs generalizing h with
  | nil => rfl
  | cons x xs ih => exact (hplace h x).append (ih _)

theorem consecutive_descriptor (h : Nat) (uuid : Uuid) :
    Consecutive h (placeDescriptor h uuid) := rfl

theorem consecutive_characteristic (h : Nat) (c : Characteristic) :
    Consecutive h (c.place h) :=
  (consecutive_layout consecutive_descriptor (h + 2) c.descriptors).cons.cons

theorem consecutive_service (h : Nat) (v : Service) : Consecutive h (v.place h) :=
  (consecutive_layout consecutive_characteristic (h + 1) v.characteristics).cons

theorem layout_append {α : Type*} (place : Nat → α → List Entry) (h : Nat) (xs ys : List α) :
    layout place h (xs ++ ys) =
      layout place h xs ++ layout place (h + (layout place h xs).length) ys := by
  induction xs generalizing h with
  | nil => rfl
  | cons x xs ih => simp [layout, ih, Nat.add_assoc]

theorem mem_layout {α : Type*} {place : Nat → α → List Entry} {h : Nat} {xs : List α}
    {e : Entry} (he : e ∈ layout place h xs) : ∃ x ∈ xs, ∃ h', e ∈ place h' x := by
  induction xs generalizing h with
  | nil => cases he
  | cons x xs ih =>
      rcases List.mem_append.mp he with hhead | htail
      · exact ⟨x, List.mem_cons_self, h, hhead⟩
      · obtain ⟨y, hy, found⟩ := ih htail
        exact ⟨y, List.mem_cons_of_mem x hy, found⟩

/-- The kinds of entries a descriptor list, a characteristic and a service are
made of, as a search of each type sees them. -/
theorem descriptor_matches {h : Nat} {us : List Uuid} {e : Entry}
    (he : e ∈ layout placeDescriptor h us) {type : DiscoverType} {uuid : Uuid}
    (hmatch : e.kind.matches type uuid = true) :
    type = .descriptor ∧ ∃ u ∈ us, btUuidCmp u uuid = false := by
  obtain ⟨u, hu, h', hplace⟩ := mem_layout he
  obtain rfl := List.mem_singleton.mp hplace
  cases type with
  | descriptor => exact ⟨rfl, u, hu, by simpa [AttrKind.matches] using hmatch⟩
  | primary | characteristic => cases hmatch

theorem characteristic_matches {h : Nat} {c : Characteristic} {e : Entry} (he : e ∈ c.place h)
    {type : DiscoverType} {uuid : Uuid} (hmatch : e.kind.matches type uuid = true) :
    type = .descriptor ∨ type = .characteristic ∧ btUuidCmp c.uuid uuid = false := by
  rcases List.mem_cons.mp he with rfl | he
  · cases type with
    | characteristic => exact Or.inr ⟨rfl, by simpa [AttrKind.matches] using hmatch⟩
    | primary | descriptor => cases hmatch
  rcases List.mem_cons.mp he with rfl | he
  · cases type <;> cases hmatch
  · exact Or.inl (descriptor_matches he hmatch).1

theorem service_matches {h : Nat} {v : Service} {e : Entry} (he : e ∈ v.place h)
    {uuid : Uuid} (hmatch : e.kind.matches .primary uuid = true) :
    btUuidCmp v.uuid uuid = false := by
  rcases List.mem_cons.mp he with rfl | he
  · simpa [AttrKind.matches] using hmatch
  · obtain ⟨c, -, h', hplace⟩ := mem_layout he
    rcases characteristic_matches hplace hmatch with htype | ⟨htype, -⟩ <;> cases htype

/-- A board that has the sensor service among other services, with the data
characteristic among others and the CCC among its descriptors, each the first of
its kind, and whose handles fit in 16 bits. -/
structure SensorBoard where
  servicesBefore : List Service
  servicesAfter : List Service
  charsBefore : List Characteristic
  charsAfter : List Characteristic
  descsBefore : List Uuid
  descsAfter : List Uuid
  firstService : ∀ v ∈ servicesBefore, btUuidCmp v.uuid sensorSvc = true
  firstData : ∀ c ∈ charsBefore, btUuidCmp c.uuid sensorData = true
  firstCcc : ∀ u ∈ descsBefore, btUuidCmp u cccUuid = true
  fits : (attributes (servicesBefore ++
    ⟨sensorSvc, charsBefore ++ ⟨sensorData, descsBefore ++ cccUuid :: descsAfter⟩ :: charsAfter⟩ ::
      servicesAfter)).length ≤ 0xFFFF

namespace SensorBoard

variable (b : SensorBoard)

def data : Characteristic := ⟨sensorData, b.descsBefore ++ cccUuid :: b.descsAfter⟩

def service : Service := ⟨sensorSvc, b.charsBefore ++ b.data :: b.charsAfter⟩

def table : List Entry := attributes (b.servicesBefore ++ b.service :: b.servicesAfter)

/-- What the table has before the sensor service. -/
def front : List Entry := layout Service.place 1 b.servicesBefore

def serviceHandle : Nat := 1 + b.front.length

/-- What it has between the service and the data characteristic. -/
def chars : List Entry := layout Characteristic.place (b.serviceHandle + 1) b.charsBefore

def dataHandle : Nat := b.serviceHandle + 1 + b.chars.length

/-- What it has between the data characteristic's value and its CCC. -/
def descs : List Entry := layout placeDescriptor (b.dataHandle + 2) b.descsBefore

def cccHandle : Nat := b.dataHandle + 2 + b.descs.length

def toData : List Entry := b.front ++ ⟨b.serviceHandle, .service sensorSvc⟩ :: b.chars

def toCcc : List Entry :=
  b.toData ++ ⟨b.dataHandle, .characteristic sensorData⟩ :: ⟨b.dataHandle + 1, .value⟩ :: b.descs

theorem table_eq : ∃ rest,
    b.table = b.toCcc ++ ⟨b.cccHandle, .descriptor cccUuid⟩ :: rest := by
  refine ⟨?_, ?_⟩
  rotate_left
  · unfold table attributes
    rw [layout_append, layout]
    change b.front ++ (b.service.place b.serviceHandle ++ _) = _
    unfold Service.place service
    rw [layout_append, layout]
    change b.front ++ (_ :: (b.chars ++ (b.data.place b.dataHandle ++ _)) ++ _) = _
    unfold Characteristic.place data
    rw [layout_append, layout]
    change b.front ++ (_ :: (b.chars ++ (_ :: _ :: (b.descs ++
      (placeDescriptor b.cccHandle cccUuid ++ _)) ++ _)) ++ _) = _
    simp only [toCcc, toData, placeDescriptor, List.append_assoc, List.cons_append,
      List.nil_append]
    rfl

theorem bounds {e : Entry} (he : e ∈ b.table) : 1 ≤ e.handle ∧ e.handle ≤ 0xFFFF := by
  have hbounds := (consecutive_layout consecutive_service 1 _).bounds he
  have hfits := b.fits
  change b.table.length ≤ 0xFFFF at hfits
  change _ ∧ e.handle < 1 + b.table.length at hbounds
  omega

theorem handles : b.serviceHandle ≤ 0xFFFF ∧ b.dataHandle + 1 ≤ 0xFFFF ∧ b.cccHandle ≤ 0xFFFF := by
  obtain ⟨rest, htable⟩ := b.table_eq
  refine ⟨(b.bounds (e := ⟨b.serviceHandle, .service sensorSvc⟩) ?_).2,
    (b.bounds (e := ⟨b.dataHandle + 1, .value⟩) ?_).2,
    (b.bounds (e := ⟨b.cccHandle, .descriptor cccUuid⟩) ?_).2⟩ <;>
    rw [htable] <;> simp [toCcc, toData]

/-- The handles before the data characteristic are smaller than its handle. -/
theorem consecutive_toData : Consecutive 1 b.toData :=
  (consecutive_layout consecutive_service 1 b.servicesBefore).append
    (consecutive_layout consecutive_characteristic (b.serviceHandle + 1) b.charsBefore).cons

theorem length_toData : 1 + b.toData.length = b.dataHandle := by
  simp only [toData, List.length_append, List.length_cons, dataHandle, serviceHandle]
  omega

end SensorBoard

/-- A search reports the first entry that it hits. -/
theorem findAttr_first {table front rest : List Entry} {e : Entry} {disc : Disc}
    (htable : table = front ++ e :: rest) (hfront : ∀ x ∈ front, disc.hits x = false)
    (hhit : disc.hits e = true) :
    findAttr table disc = some ⟨UInt16.ofNat e.handle, UInt16.ofNat (e.handle + 1)⟩ := by
  have hnone : front.find? disc.hits = none := by
    rw [List.find?_eq_none]
    exact fun x hx => by simp [hfront x hx]
  rw [findAttr, htable, List.find?_append, hnone, Option.none_or, List.find?_cons_of_pos hhit]
  rfl

theorem Disc.hits_iff {disc : Disc} {e : Entry} : disc.hits e = true ↔
    disc.startHandle.toNat ≤ e.handle ∧ e.handle ≤ disc.endHandle.toNat ∧
      e.kind.matches disc.type disc.uuid = true := by
  simp [Disc.hits, and_assoc]

namespace SensorBoard

variable (b : SensorBoard)

theorem find_service :
    findAttr b.table ⟨sensorSvc, 0x0001, 0xffff, .primary⟩ =
      some ⟨UInt16.ofNat b.serviceHandle, UInt16.ofNat (b.serviceHandle + 1)⟩ := by
  obtain ⟨rest, htable⟩ := b.table_eq
  simp only [toCcc, toData, List.append_assoc, List.cons_append] at htable
  refine findAttr_first htable (fun x hx => ?_) ?_
  · rw [Bool.eq_false_iff]
    intro hhit
    obtain ⟨v, hv, h', hplace⟩ := mem_layout hx
    have hmatch := service_matches hplace (Disc.hits_iff.mp hhit).2.2
    exact absurd (b.firstService v hv) (by simp [hmatch])
  · rw [Disc.hits_iff]
    exact ⟨Nat.le_add_right 1 _, b.handles.1, rfl⟩

theorem find_data {start : UInt16} (hstart : start.toNat = b.serviceHandle + 1) :
    findAttr b.table ⟨sensorData, start, 0xffff, .characteristic⟩ =
      some ⟨UInt16.ofNat b.dataHandle, UInt16.ofNat (b.dataHandle + 1)⟩ := by
  obtain ⟨rest, htable⟩ := b.table_eq
  simp only [toCcc, List.append_assoc, List.cons_append] at htable
  refine findAttr_first htable (fun x hx => ?_) ?_
  · rw [Bool.eq_false_iff]
    intro hhit
    obtain ⟨hlow, -, hmatch⟩ := Disc.hits_iff.mp hhit
    change start.toNat ≤ x.handle at hlow
    rcases List.mem_append.mp hx with hx | hx
    · have := ((consecutive_layout consecutive_service 1 _).bounds hx).2
      change x.handle < b.serviceHandle at this
      omega
    rcases List.mem_cons.mp hx with rfl | hx
    · cases hmatch
    · obtain ⟨c, hc, h', hplace⟩ := mem_layout hx
      rcases characteristic_matches hplace hmatch with htype | ⟨-, hcmp⟩
      · cases htype
      · exact absurd (b.firstData c hc) (by simp [hcmp])
  · rw [Disc.hits_iff]
    have hdata := b.handles.2.1
    refine ⟨?_, Nat.le_of_succ_le hdata, rfl⟩
    change start.toNat ≤ b.dataHandle
    unfold dataHandle
    omega

theorem find_ccc {start : UInt16} (hstart : start.toNat = b.dataHandle + 2) :
    findAttr b.table ⟨cccUuid, start, 0xffff, .descriptor⟩ =
      some ⟨UInt16.ofNat b.cccHandle, UInt16.ofNat (b.cccHandle + 1)⟩ := by
  obtain ⟨rest, htable⟩ := b.table_eq
  refine findAttr_first htable (fun x hx => ?_) ?_
  · rw [Bool.eq_false_iff]
    intro hhit
    obtain ⟨hlow, -, hmatch⟩ := Disc.hits_iff.mp hhit
    change start.toNat ≤ x.handle at hlow
    rcases List.mem_append.mp hx with hx | hx
    · have hbefore := (b.consecutive_toData.bounds hx).2
      rw [b.length_toData] at hbefore
      omega
    rcases List.mem_cons.mp hx with rfl | hx
    · cases hmatch
    rcases List.mem_cons.mp hx with rfl | hx
    · cases hmatch
    · obtain ⟨-, u, hu, hcmp⟩ := descriptor_matches hx hmatch
      exact absurd (b.firstCcc u hu) (by simp [hcmp])
  · rw [Disc.hits_iff]
    refine ⟨?_, b.handles.2.2, rfl⟩
    change start.toNat ≤ b.cccHandle
    unfold cccHandle
    omega

end SensorBoard

theorem toNat_ofNat_add {h k : Nat} (hk : h + k ≤ 0xFFFF) :
    (UInt16.ofNat h + UInt16.ofNat k).toNat = h + k := by
  rw [← UInt16.ofNat_add]
  exact UInt16.toNat_ofNat_of_lt' (Nat.lt_succ_of_le hk)

/-- The subscription that the discovery is to arrive at. -/
def SensorBoard.target (b : SensorBoard) : Sub :=
  ⟨UInt16.ofNat (b.dataHandle + 1), UInt16.ofNat b.cccHandle⟩

/-- The discovery with the parameters `disc` is under way on the module's link. -/
structure Discovering (s : Central) (id : Nat) (disc : Disc) : Prop where
  conn : s.conn = some id
  pending : s.pending = some id
  params : s.disc = some disc

theorem Discovering.serve {s : Central} {id : Nat} {disc : Disc} (h : Discovering s id disc)
    {table : List Entry} {attr : Attr} (hattr : findAttr table disc = some attr) :
    serve table s = some (discoverFunc {s with pending := none} id (some attr) 0) := by
  simp only [Ble.serve, centralSystem, h.pending, h.params, Option.bind_some, hattr]

theorem Discovering.service_found {s : Central} {id : Nat} {e : UInt16}
    (h : Discovering s id ⟨sensorSvc, 1, e, .primary⟩) (attr : Attr) :
    Discovering (discoverFunc {s with pending := none} id (some attr) 0) id
      ⟨sensorData, attr.handle + 1, e, .characteristic⟩ := by
  have hcmp : btUuidCmp sensorSvc sensorSvc = false := by decide
  simp only [discoverFunc, h.params, hcmp, Bool.not_false, if_true, Central.discover]
  exact ⟨h.conn, rfl, rfl⟩

theorem Discovering.data_found {s : Central} {id : Nat} {start e : UInt16}
    (h : Discovering s id ⟨sensorData, start, e, .characteristic⟩) (attr : Attr) :
    let s' := discoverFunc {s with pending := none} id (some attr) 0
    Discovering s' id ⟨cccUuid, attr.handle + 2, e, .descriptor⟩ ∧
      s'.sub.valueHandle = attr.valueHandle := by
  have hsvc : btUuidCmp sensorData sensorSvc = true := by decide
  have hcmp : btUuidCmp sensorData sensorData = false := by decide
  simp only [discoverFunc, h.params, hsvc, hcmp, Bool.not_true, Bool.not_false, if_true,
    Bool.false_eq_true, if_false, Central.discover]
  exact ⟨⟨h.conn, rfl, rfl⟩, trivial⟩

theorem Discovering.ccc_found {s : Central} {id : Nat} {start e : UInt16}
    (h : Discovering s id ⟨cccUuid, start, e, .descriptor⟩) (attr : Attr) :
    let s' := discoverFunc {s with pending := none} id (some attr) 0
    s'.sub = ⟨s.sub.valueHandle, attr.handle⟩ ∧ s'.pending = none ∧
      appCentralIsConnected s' = true ∧ s'.subscription = some id := by
  have hsvc : btUuidCmp cccUuid sensorSvc = true := by decide
  have hdata : btUuidCmp cccUuid sensorData = true := by decide
  simp only [discoverFunc, h.params, hsvc, hdata, Bool.not_true, Bool.false_eq_true, if_false,
    ne_eq, not_true_eq_false, false_and]
  refine ⟨rfl, rfl, ?_, rfl⟩
  simp [appCentralIsConnected, Central.emit, h.conn]

/-- Three answers from the table of a sensor board lead from the new link to the
subscription to its data characteristic. -/
theorem discovery_subscribes (b : SensorBoard) {s : Central} {id : Nat}
    (hconn : s.conn = some id) (hlink : s.links id = some .connecting) (scanRc : Int) :
    ∃ s', (((centralSystem.step s (.connected id 0 0 scanRc)).bind (serve b.table)).bind
        (serve b.table)).bind (serve b.table) = some s' ∧
      s'.sub = b.target ∧ s'.pending = none ∧ appCentralIsConnected s' = true ∧
      s'.subscription = some id := by
  have hstart : (UInt16.ofNat b.serviceHandle + 1).toNat = b.serviceHandle + 1 := by
    refine toNat_ofNat_add (k := 1) (Nat.le_trans ?_ b.handles.2.1)
    unfold SensorBoard.dataHandle
    omega
  have hvalue : (UInt16.ofNat b.dataHandle + 2).toNat = b.dataHandle + 2 := by
    refine toNat_ofNat_add (k := 2) (Nat.le_trans ?_ b.handles.2.2)
    unfold SensorBoard.cccHandle
    omega
  obtain ⟨s₀, hs₀, h₀⟩ : ∃ s₀, centralSystem.step s (.connected id 0 0 scanRc) = some s₀ ∧
      Discovering s₀ id ⟨sensorSvc, 1, 0xffff, .primary⟩ := by
    refine ⟨_, if_pos hlink, ?_⟩
    simp only [connectedCb, hconn, ne_eq, not_true_eq_false, if_false, if_true, beginDiscovery,
      Central.emit, Central.discover]
    exact ⟨rfl, rfl, rfl⟩
  have h₁ := h₀.service_found ⟨UInt16.ofNat b.serviceHandle, UInt16.ofNat (b.serviceHandle + 1)⟩
  obtain ⟨h₂, hsub⟩ := h₁.data_found ⟨UInt16.ofNat b.dataHandle, UInt16.ofNat (b.dataHandle + 1)⟩
  obtain ⟨htarget, hdone⟩ :=
    h₂.ccc_found ⟨UInt16.ofNat b.cccHandle, UInt16.ofNat (b.cccHandle + 1)⟩
  refine ⟨_, ?_, htarget.trans (by rw [hsub]; rfl), hdone⟩
  rw [hs₀, Option.bind_some, h₀.serve b.find_service, Option.bind_some,
    h₁.serve (b.find_data hstart), Option.bind_some, h₂.serve (b.find_ccc hvalue)]

/-- Two services, the second with two characteristics, the last with two descriptors. -/
def smallBoard : SensorBoard where
  servicesBefore := [⟨.short 0x1800, [⟨.short 0x2A00, []⟩]⟩]
  servicesAfter := []
  charsBefore := [⟨.short 0x2A19, [cccUuid]⟩]
  charsAfter := []
  descsBefore := [.short 0x2901]
  descsAfter := []
  firstService := by decide
  firstData := by decide
  firstCcc := by decide
  fits := by decide

/-- The central has found the board and asked for the link. -/
def askedForLink : Central :=
  scanCb (appCentralStart .powerUp true 0).1 ⟨0, 0⟩ 0 [⟨0x07, uuidBase 0xe300⟩]

theorem discovery_subscribes_smallBoard :
    smallBoard.target = ⟨9, 11⟩ ∧
      ∃ s', (((centralSystem.step askedForLink (.connected 0 0 0 0)).bind
          (serve smallBoard.table)).bind (serve smallBoard.table)).bind
          (serve smallBoard.table) = some s' ∧
        s'.sub = smallBoard.target ∧ s'.pending = none ∧ appCentralIsConnected s' = true ∧
        s'.subscription = some 0 :=
  ⟨by decide, discovery_subscribes smallBoard (by decide) (by decide) 0⟩

end Rw612.Ble
