import Rw612.Http.Delivery

/-!
Bodies of known length. A body reader only ever offers slices of its stream to
the sink, one after another; `offer` is that alone, without the stream. A fixed
body is an offer of the front of the stream, up to its length.
-/

namespace Rw612.Http

open Lib Ota

/-- Slices offered to a sink until it refuses one; other threads run before each. -/
def offer (b : Board) (w : World) (sink : SinkCtx) :
    List (List UInt8) → Int × World × SinkCtx
  | [] => (0, w, sink)
  | data :: slices =>
      match sinkWrite b (w.tick b).1 sink data with
      | (rc, w, sink) => if rc ≠ 0 then (rc, w, sink) else offer b w sink slices

theorem offer_cons_ok {b : Board} {w w' : World} {sink sink' : SinkCtx} {data : List UInt8}
    (h : sinkWrite b (w.tick b).1 sink data = (0, w', sink')) (slices : List (List UInt8)) :
    offer b w sink (data :: slices) = offer b w' sink' slices := by
  simp only [offer, h, ne_eq, not_true_eq_false, if_false]

theorem offer_cons_refused {b : Board} {w w' : World} {sink sink' : SinkCtx}
    {data : List UInt8} {rc : Int} (hrc : rc ≠ 0)
    (h : sinkWrite b (w.tick b).1 sink data = (rc, w', sink')) (slices : List (List UInt8)) :
    offer b w sink (data :: slices) = (rc, w', sink') := by
  simp only [offer, h, hrc, ne_eq, not_false_eq_true, if_true]

/-- Nothing is read only when nothing arrives any more. -/
theorem bsReadSome_none {bs : ByteStream} {want : Nat} (hwant : 0 < want)
    (h : bsReadSome bs want = none) : bs.bytes = [] := by
  unfold bsReadSome at h
  split at h
  · cases h
  case isFalse hpre =>
      rw [not_not] at hpre
      rw [Option.map_eq_none_iff] at h
      have harriving : arriving bs.recvs = [] := by
        unfold recv at h
        split at h
        case h_1 hrecvs => rw [hrecvs, arriving]
        case h_2 seg rest hrecvs =>
            split at h
            case isTrue htake =>
                have hseg : seg = [] := by
                  rcases List.take_eq_nil_iff.mp htake with hzero | hnil
                  · omega
                  · exact hnil
                rw [hrecvs, arriving, if_pos hseg]
            case isFalse => cases h
      rw [ByteStream.bytes, hpre, harriving, List.append_nil]

/-- What a body reader has done with its stream: `slices` were taken off its
front and offered to the sink, which accepted all of them but perhaps the last. -/
structure Offered (b : Board) (w : World) (bs : ByteStream) (sink : SinkCtx)
    (slices : List (List UInt8)) (r : Read SinkCtx) : Prop where
  slice : ∀ data ∈ slices, data ≠ [] ∧ data.length ≤ APP_OTA_HTTP_RX_CHUNK
  order : bs.bytes = slices.flatten ++ r.bs.bytes
  accepted : (offer b w sink slices.dropLast).1 = 0
  out : r.out = (offer b w sink slices).2.2
  world : r.world = (offer b w sink slices).2.1 ∨
    r.world = ((offer b w sink slices).2.1.tick b).1

theorem Offered.cons {b : Board} {w w' : World} {bs bs' : ByteStream} {sink sink' : SinkCtx}
    {data : List UInt8} {slices : List (List UInt8)} {r : Read SinkCtx}
    (hdata : data ≠ [] ∧ data.length ≤ APP_OTA_HTTP_RX_CHUNK)
    (hbytes : bs.bytes = data ++ bs'.bytes)
    (hwrite : sinkWrite b (w.tick b).1 sink data = (0, w', sink'))
    (h : Offered b w' bs' sink' slices r) : Offered b w bs sink (data :: slices) r where
  slice := List.forall_mem_cons.mpr ⟨hdata, h.slice⟩
  order := by rw [hbytes, h.order, List.flatten_cons, List.append_assoc]
  accepted := by
    cases slices with
    | nil => rfl
    | cons next slices =>
        rw [List.dropLast_cons_cons, offer_cons_ok hwrite]
        exact h.accepted
  out := by rw [h.out, offer_cons_ok hwrite]
  world := by
    rw [offer_cons_ok hwrite]
    exact h.world

/-- The loop over a fixed body, with `total - seen` bytes still to come. -/
theorem streamFixedBodyFrom_offered (b : Board) (bodyTotal : Nat) (w : World)
    (bs : ByteStream) (sink : SinkCtx) (seen : Nat) :
    let r := streamFixedBodyFrom b bodyTotal w bs sink seen
    ∃ slices, Offered b w bs sink slices r ∧
      slices.flatten.length ≤ bodyTotal - seen ∧
      (r.rc = 0 ↔ slices.flatten.length = bodyTotal - seen ∧
        (offer b w sink slices).1 = 0) ∧
      (r.rc = 0 → r.world = (offer b w sink slices).2.1) ∧
      (r.rc ≠ 0 → r.world.running = false ∨ bs.bytes.length < bodyTotal - seen ∨
        (offer b w sink slices).1 ≠ 0) := by
  fun_induction streamFixedBodyFrom b bodyTotal w bs sink seen with
  | case1 w bs sink seen hseen w₁ hstop =>
      refine ⟨[], ⟨by simp, rfl, rfl, rfl, .inr rfl⟩, Nat.zero_le _, ?_, by simp, ?_⟩
      · simp only [List.flatten_nil, List.length_nil]
        omega
      · exact fun _ => .inl (by simpa using hstop)
  | case2 w bs sink seen hseen w₁ _ hnone =>
      have hempty := bsReadSome_none (by simp [APP_OTA_HTTP_RX_CHUNK]; omega) hnone
      refine ⟨[], ⟨by simp, rfl, rfl, rfl, .inr rfl⟩, Nat.zero_le _, ?_, by simp, ?_⟩
      · simp only [List.flatten_nil, List.length_nil]
        omega
      · intro _
        right
        left
        rw [hempty, List.length_nil]
        omega
  | case3 w bs sink seen hseen w₁ _ got bs' hread wrc w' sink' hwrite hrefused =>
      obtain ⟨hbytes, hne, hlength⟩ := bsReadSome_some hread
        (by simp [APP_OTA_HTTP_RX_CHUNK]; omega)
      have hoffer := offer_cons_refused hrefused hwrite []
      refine ⟨[got], ⟨?_, ?_, rfl, ?_, ?_⟩, ?_, ?_, by simp, ?_⟩
      · rw [List.forall_mem_singleton]
        exact ⟨hne, Nat.le_trans hlength (Nat.min_le_right _ _)⟩
      · rw [List.flatten_singleton]
        exact hbytes
      · rw [hoffer]
      · rw [hoffer]
        exact .inl rfl
      · rw [List.flatten_singleton]
        exact Nat.le_trans hlength (Nat.min_le_left _ _)
      · rw [hoffer]
        simp [hrefused]
      · rw [hoffer]
        exact fun _ => .inr (.inr hrefused)
  | case4 w bs sink seen hseen w₁ _ got bs' hread wrc w' sink' hwrite hwrc ih =>
      obtain rfl : wrc = 0 := not_not.mp hwrc
      obtain ⟨hbytes, hne, hlength⟩ := bsReadSome_some hread
        (by simp [APP_OTA_HTTP_RX_CHUNK]; omega)
      have hfits : got.length ≤ bodyTotal - seen :=
        Nat.le_trans hlength (Nat.min_le_left _ _)
      obtain ⟨slices, hoffered, hwithin, hrc, hworld, hfailure⟩ := ih
      refine ⟨got :: slices, hoffered.cons ⟨hne, Nat.le_trans hlength (Nat.min_le_right _ _)⟩
        hbytes hwrite, ?_, ?_, ?_, ?_⟩
      · rw [List.flatten_cons, List.length_append]
        omega
      · rw [hrc, offer_cons_ok hwrite, List.flatten_cons, List.length_append]
        constructor
        · rintro ⟨hlen, hok⟩
          exact ⟨by omega, hok⟩
        · rintro ⟨hlen, hok⟩
          exact ⟨by omega, hok⟩
      · rw [offer_cons_ok hwrite]
        exact hworld
      · rw [offer_cons_ok hwrite, hbytes, List.length_append]
        intro hne
        rcases hfailure hne with hstop | hshort | hrefused
        · exact .inl hstop
        · exact .inr (.inl (by omega))
        · exact .inr (.inr hrefused)
  | case5 w bs sink seen hdone =>
      refine ⟨[], ⟨by simp, rfl, rfl, rfl, .inl rfl⟩, Nat.zero_le _, ?_, fun _ => rfl, by simp⟩
      have hzero : 0 = bodyTotal - seen := by omega
      exact ⟨fun _ => ⟨hzero, rfl⟩, fun _ => rfl⟩

/-- An accepted chunk comes right behind what the core has, and the count stays
in its range. -/
theorem appOtaChunkLocked_advances {slot : FlashArea} {c : Core} {log : List Done} {d : Driver}
    {offset : UInt32} {data : List UInt8} (hinv : Ota.Inv slot c log)
    (hok : (appOtaChunkLocked c d offset data).2 = .ok) :
    c.st.bytesReceived = offset ∧
      (appOtaChunkLocked c d offset data).1.st.bytesReceived =
        offset + UInt32.ofNat data.length ∧
      (offset + UInt32.ofNat data.length).toNat = offset.toNat + data.length := by
  rcases appOtaChunkLocked_cases c d offset data with
    ⟨_, heq⟩ | ⟨_, _, heq⟩ | ⟨_, _, heq⟩ | ⟨_, _, _, _, heq⟩ |
      ⟨hlive, hoff, hfits, _, heq⟩
  · simp [heq] at hok
  · simp [heq] at hok
  · simp [heq] at hok
  · simp [heq] at hok
  · obtain ⟨ses, _, hholds⟩ := hinv.live hlive
    have hbound := hfits (hholds.total ▸ hholds.nonzero)
    have htotal := c.st.totalSize.toNat_lt
    refine ⟨hoff.symm, ?_, ?_⟩
    · rw [heq, hoff]
    · rw [UInt32.toNat_add, UInt32.toNat_ofNat']
      omega

/-- An OTA call of the task that is accepted, as a locked section. -/
theorem World.otaCall_chunk_ok {b : Board} {w w' : World} {offset : UInt32}
    {data : List UInt8} (hready : w.Ready) (hinv : w.sys.Inv b.slot)
    (h : w.otaCall b (.chunk offset data) = (w', .ok)) :
    w'.Ready ∧ w'.sys.Inv b.slot ∧
      w'.sys.core.st.bytesReceived = offset + UInt32.ofNat data.length ∧
      (offset + UInt32.ofNat data.length).toNat = offset.toNat + data.length ∧
      (w.Alone → w.sys.core.st.bytesReceived = offset) := by
  have hruns := Runs.otaCall (b := b) (C := fun _ => True) w (.chunk offset data) trivial
  rw [h] at hruns
  have hready' : w'.Ready := (hruns.exec hready).choose_spec.2
  have hinv' : w'.sys.Inv b.slot := hruns.inv hready hinv
  have hticked : (w.tick b).1.sys.Inv b.slot := (Runs.tick (C := fun _ => True) w).inv hready hinv
  unfold World.otaCall at h
  cases hcheck : (Call.chunk offset data).precheck (w.tick b).1.sys.core with
  | some rc =>
      simp only [hcheck, Prod.mk.injEq] at h
      rw [h.2] at hcheck
      exact absurd hcheck (Call.precheck_ne_ok _ (by simp))
  | none =>
      simp only [hcheck] at h
      unfold World.lockedCall at h
      -- `v` is the world in which the section runs
      let v : World := (((w.tick b).1.entering (.chunk offset data)).tick b).1
      have hv : v.sys.Inv b.slot := by
        obtain ⟨acts, hacts, _⟩ := ((w.tick b).1.entering (.chunk offset data)).tick_exec b
        exact System.exec_invariant (fun _ _ _ hs hstep => hs.step hstep)
          (hticked.enter httpTid _) hacts
      obtain ⟨hw', hok⟩ := Prod.mk.inj h
      obtain ⟨hoff, hafter, hnat⟩ := appOtaChunkLocked_advances hv.core hok
      refine ⟨hready', hinv', ?_, hnat, ?_⟩
      · rw [← hw']
        exact hafter
      · intro halone
        obtain ⟨hsys, hstill⟩ := halone.tick b
        have hsame := (World.Alone.tick (w := (w.tick b).1.entering (.chunk offset data))
          hstill b).1
        rw [← hoff, ← hsys]
        have hcore := congrArg Sys.core hsame
        rw [show v.sys.core = _ from hcore]
        exact congrArg Status.bytesReceived
          (((w.tick b).1.sys.enter_core httpTid (.chunk offset data)).1).symm

/-- Slices that an OTA sink accepts, one behind the other. -/
structure Advanced (b : Board) (w : World) (sink : SinkCtx) (len : Nat) (w' : World)
    (sink' : SinkCtx) : Prop where
  offset : sink'.otaOffset.toNat = sink.otaOffset.toNat + len
  received : w'.sys.core.st.bytesReceived = sink'.otaOffset
  before : w.Alone → w.sys.core.st.bytesReceived = sink.otaOffset

/-- Whatever other threads do, each accepted slice lies where the core stands. -/
theorem offer_ota {b : Board} {w : World} {sink : SinkCtx} (slices : List (List UInt8))
    (hmode : sink.mode = .otaChunk) (hready : w.Ready) (hinv : w.sys.Inv b.slot)
    (hne : slices ≠ []) (hok : (offer b w sink slices).1 = 0) :
    Advanced b w sink slices.flatten.length (offer b w sink slices).2.1
      (offer b w sink slices).2.2 := by
  induction slices generalizing w sink with
  | nil => exact absurd rfl hne
  | cons data slices ih =>
      obtain ⟨rc, w', sink', hwrite⟩ :
          ∃ rc w' sink', sinkWrite b (w.tick b).1 sink data = (rc, w', sink') := ⟨_, _, _, rfl⟩
      have hrc : rc = 0 := by
        by_contra hrefused
        rw [offer_cons_refused hrefused hwrite] at hok
        exact hrefused hok
      subst hrc
      obtain ⟨hcall, hsink⟩ := sinkWrite_ota_ok hmode hwrite
      have hticked := Runs.tick (b := b) (C := fun _ => True) w
      obtain ⟨hready', hinv', hreceived, hnat, hbefore⟩ :=
        World.otaCall_chunk_ok (hticked.exec hready).choose_spec.2 (hticked.inv hready hinv)
          hcall
      have hoffset : sink'.otaOffset.toNat = sink.otaOffset.toNat + data.length := by
        rw [hsink]
        exact hnat
      have hstart : w.Alone → w.sys.core.st.bytesReceived = sink.otaOffset := by
        intro halone
        obtain ⟨hsys, hstill⟩ := halone.tick b
        rw [← hsys]
        exact hbefore hstill
      rw [offer_cons_ok hwrite] at hok ⊢
      by_cases hlast : slices = []
      · subst hlast
        exact ⟨by simpa [offer] using hoffset, by simpa [offer, hsink] using hreceived, hstart⟩
      · have hmode' : sink'.mode = .otaChunk := by rw [hsink, hmode]
        have hrest := ih hmode' hready' hinv' hlast hok
        refine ⟨?_, hrest.received, hstart⟩
        rw [hrest.offset, hoffset, List.flatten_cons, List.length_append]
        omega

/-- A fixed body of `bodyTotal` bytes: the sink is offered the front of the
stream in slices, never more than the body; the result is 0 if all of it arrived
and was accepted, and then an OTA sink and the core have both advanced by it. -/
structure FixedBody (b : Board) (w : World) (bs : ByteStream) (sink : SinkCtx)
    (bodyTotal : UInt32) (slices : List (List UInt8)) (r : Read SinkCtx) : Prop where
  offered : Offered b w bs sink slices r
  within : slices.flatten.length ≤ bodyTotal.toNat
  success : r.rc = 0 ↔
    slices.flatten.length = bodyTotal.toNat ∧ (offer b w sink slices).1 = 0
  failure : r.rc ≠ 0 → r.world.running = false ∨ bs.bytes.length < bodyTotal.toNat ∨
    (offer b w sink slices).1 ≠ 0
  ota : sink.mode = .otaChunk → w.Ready → w.sys.Reached b.slot → r.rc = 0 →
    Advanced b w sink bodyTotal.toNat r.world r.out

theorem fixed_body_delivered (b : Board) (w : World) (bs : ByteStream) (sink : SinkCtx)
    (bodyTotal : UInt32) (hpos : 0 < bodyTotal) :
    ∃ slices, FixedBody b w bs sink bodyTotal slices
      (streamFixedBody b w bs sink bodyTotal) := by
  obtain ⟨slices, hoffered, hwithin, hrc, hworld, hfailure⟩ :=
    streamFixedBodyFrom_offered b bodyTotal.toNat w bs sink 0
  refine ⟨slices, hoffered, hwithin, hrc, hfailure, ?_⟩
  intro hmode hready hreached hzero
  obtain ⟨hlength, hok⟩ := hrc.mp hzero
  have hne : slices ≠ [] := by
    rintro rfl
    have hnat : 0 < bodyTotal.toNat := UInt32.lt_iff_toNat_lt.mp hpos
    rw [List.flatten_nil, List.length_nil] at hlength
    omega
  have hadvanced := offer_ota slices hmode hready hreached.inv hne hok
  rw [hlength] at hadvanced
  change Advanced b w sink bodyTotal.toNat
    (streamFixedBodyFrom b bodyTotal.toNat w bs sink 0).world
    (streamFixedBodyFrom b bodyTotal.toNat w bs sink 0).out
  rw [hworld hzero, hoffered.out]
  exact hadvanced

def boardOf8 : Board := ⟨⟨8⟩, fun _ => true⟩

/-- An image of two bytes is begun. -/
def beginActs : List Act :=
  [.enter 1 (.init none none), .locked 1 .success, .enter 1 (.begin 2), .locked 1 .success]

def begunSys : Sys :=
  ((otaSystem boardOf8.slot).exec (Sys.powerUp .blank) beginActs).getD (Sys.powerUp .blank)

/-- Two bytes of which the first came with the head, and one byte too many, for both
sinks: the image has advanced by the two. -/
theorem fixed_body_delivered_leftover :
    (∃ slices, FixedBody boardOf8 (World.start begunSys [] []) ⟨[1], [[2, 3]]⟩
      ⟨.buffer, 0, [], 512⟩ 2 slices
      (streamFixedBody boardOf8 (World.start begunSys [] []) ⟨[1], [[2, 3]]⟩
        ⟨.buffer, 0, [], 512⟩ 2)) ∧
    Advanced boardOf8 (World.start begunSys [] []) ⟨.otaChunk, 0, [], 0⟩ 2
      (streamFixedBody boardOf8 (World.start begunSys [] []) ⟨[1], [[2, 3]]⟩
        ⟨.otaChunk, 0, [], 0⟩ 2).world
      (streamFixedBody boardOf8 (World.start begunSys [] []) ⟨[1], [[2, 3]]⟩
        ⟨.otaChunk, 0, [], 0⟩ 2).out := by
  refine ⟨fixed_body_delivered _ _ _ _ 2 (by decide), ?_⟩
  obtain ⟨slices, hbody⟩ := fixed_body_delivered boardOf8 (World.start begunSys [] [])
    ⟨[1], [[2, 3]]⟩ ⟨.otaChunk, 0, [], 0⟩ 2 (by decide)
  exact hbody.ota rfl rfl ⟨.blank, beginActs, rfl⟩ (by decide +kernel)

end Rw612.Http
