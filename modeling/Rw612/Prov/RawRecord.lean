import Rw612.Prov.Gatt

/-!
`app_nvram_load` on the bytes of the record. NVS copies what an entry has, at
most `sizeof(app_nvram_data_t)` bytes of it, into the buffer of the caller, and
only then is the length judged; so an entry of another length is refused and
has been copied all the same. For entries of the right length this is the load
on whole records.
-/

namespace Rw612.Prov

/-- The bytes of an `app_nvram_data_t`: four arrays of characters, the port and
the padding, without gaps. -/
abbrev RawRecord := Vector UInt8 184

def RawRecord.zero : RawRecord := Vector.replicate 184 0

/-- The array of `n` characters at an offset. -/
def RawRecord.chars (r : RawRecord) (offset n : Nat) : Vector UInt8 n :=
  Vector.ofFn fun i => r.toList.getD (offset + i) 0

/-- The 16-bit word at an offset. -/
def RawRecord.word (r : RawRecord) (offset : Nat) : UInt16 := portOf (r.chars offset 2).toList

/-- The record that these bytes are. -/
def RawRecord.data (r : RawRecord) : AppNvramData where
  ssid := r.chars 0 _
  password := r.chars 33 _
  security := r.chars 98 _
  hostIp := r.chars 115 _
  port := r.word 180
  pad := r.word 182

def RawRecord.putNul (r : RawRecord) (i : Fin 184) : RawRecord := r.set i 0

/-- The defensive NUL termination, at the last character of each array. -/
def RawRecord.terminate (r : RawRecord) : RawRecord :=
  (((r.putNul 32).putNul 97).putNul 114).putNul 179

/-- The buffer after the bytes of an entry, as far as they fit, have been copied. -/
def RawRecord.copyIn (out : RawRecord) (entry : List UInt8) : RawRecord :=
  Vector.ofFn fun i => entry.getD i out[i]

/-- The mount flag and the bytes of the entry `APP_NVS_ID_WIFI_CRED`. -/
structure RawNvs where
  mounted : Bool
  entry : Option (List UInt8)
  deriving DecidableEq, Repr

namespace RawNvs

/-- The entry as a record. -/
def records (n : RawNvs) : Nvs where
  mounted := n.mounted
  cred := n.entry.map fun entry => (RawRecord.zero.copyIn entry).data

def appNvsInit (n : RawNvs) (d : NvsAnswer) : RawNvs × Int :=
  let (nvs, rc) := Prov.appNvsInit n.records d
  ({n with mounted := nvs.mounted}, rc)

/-- `nvs_read` returns the length of the entry, not of what it has copied. -/
def nvsRead (n : RawNvs) (d : NvsAnswer) (out : RawRecord) : RawRecord × Int :=
  if d.opRc < 0 then (out, d.opRc)
  else
    match n.entry with
    | none => (out, -ENOENT)
    | some entry => (out.copyIn entry, entry.length)

def appNvramLoad (n : RawNvs) (d : NvsAnswer) (out : RawRecord) :
    RawNvs × RawRecord × NvramRc :=
  match n.appNvsInit d with
  | (n, 0) =>
      match n.nvsRead d out with
      | (out, rc) =>
          if rc = -ENOENT then (n, out, .noRecord)
          else if rc < 0 then (n, out, .io)
          else if rc ≠ SIZEOF_APP_NVRAM_DATA then (n, out, .length)
          else (n, out.terminate, .ok)
  | (n, _) => (n, out, .io)

/-- `s_staging` after `app_prov_init`, which drops the result of the load. -/
def stagingAfterInit (n : RawNvs) (d : NvsAnswer) : RawRecord := (n.appNvramLoad d .zero).2.1

/-- `prov_connect_work_fn` on `s_nvram_cfg`, with the configuration it connects with. -/
def provConnectWorkFn (n : RawNvs) (d : NvsAnswer) (cfg : RawRecord) :
    RawNvs × RawRecord × Option RawRecord :=
  match n.appNvramLoad d cfg with
  | (n, cfg, .ok) => (n, cfg, some cfg)
  | (n, cfg, _) => (n, cfg, none)

end RawNvs

/-- A load succeeds with terminated strings, or leaves the buffer as it was. -/
def LoadKeeps (n : RawNvs) (d : NvsAnswer) (out : RawRecord) : Prop :=
  ((n.appNvramLoad d out).2.2 = .ok ∧ (n.appNvramLoad d out).2.1.data.Terminated) ∨
    ((n.appNvramLoad d out).2.2 ≠ .ok ∧ (n.appNvramLoad d out).2.1 = out)

/-- The staging buffer starts all zero, or as a complete stored record. -/
def StagingWhole (n : RawNvs) (d : NvsAnswer) : Prop :=
  n.stagingAfterInit d = .zero ∨
    ∃ r : RawRecord, n.entry = some r.toList ∧ n.stagingAfterInit d = r.terminate

/-- A reload that does not connect leaves the configuration as it was. -/
def ReloadKeeps (n : RawNvs) (d : NvsAnswer) (cfg : RawRecord) : Prop :=
  (n.provConnectWorkFn d cfg).2.2 = none → (n.provConnectWorkFn d cfg).2.1 = cfg

/-- No entry is read, or a whole record, or bytes that the buffer holds already. -/
def Harmless (n : RawNvs) (d : NvsAnswer) (out : RawRecord) : Prop :=
  n.records.Mounts d → 0 ≤ d.opRc → ∀ entry, n.entry = some entry →
    entry.length = 184 ∨ ∀ (i : Fin 184) (b : UInt8), entry[i.val]? = some b → b = out[i]

/-! Copying an entry. -/

theorem RawRecord.copyIn_eq_self_iff (out : RawRecord) (entry : List UInt8) :
    out.copyIn entry = out ↔
      ∀ (i : Fin 184) (b : UInt8), entry[i.val]? = some b → b = out[i] := by
  constructor
  · intro h i b hb
    have hget := congrArg (fun r : RawRecord => r[i]) h
    simpa [copyIn, List.getD_eq_getElem?_getD, hb] using hget
  · intro h
    apply Vector.ext
    intro i hi
    simp only [copyIn, Vector.getElem_ofFn, List.getD_eq_getElem?_getD]
    cases hb : entry[i]? with
    | none => rfl
    | some b => exact h ⟨i, hi⟩ b hb

/-- Nothing of the buffer shows through a whole record. -/
theorem RawRecord.copyIn_whole (out : RawRecord) (r : RawRecord) : out.copyIn r.toList = r := by
  apply Vector.ext
  intro i hi
  simp [copyIn]

theorem RawRecord.exists_of_length {entry : List UInt8} (h : entry.length = 184) :
    ∃ r : RawRecord, entry = r.toList := by
  exact ⟨⟨entry.toArray, by simpa using h⟩, by simp [Vector.toList]⟩

theorem RawRecord.putNul_getElem? (r : RawRecord) (i : Fin 184) (j : Nat) :
    (r.putNul i).toList[j]? = if i.val = j then some 0 else r.toList[j]? := by
  have hi : i.val < r.toList.length := by
    rw [Vector.length_toList]
    exact i.isLt
  rw [putNul, Vector.toList_set, List.getElem?_set]
  split_ifs <;> rfl

theorem RawRecord.chars_putNul_outside (r : RawRecord) {offset n : Nat} {i : Fin 184}
    (h : i.val < offset ∨ offset + n ≤ i.val) :
    (r.putNul i).chars offset n = r.chars offset n := by
  apply Vector.ext
  intro j hj
  have hne : i.val ≠ offset + j := by omega
  simp only [chars, Vector.getElem_ofFn, List.getD_eq_getElem?_getD, putNul_getElem?, if_neg hne]

/-- The NUL at the last character of an array. -/
theorem RawRecord.chars_putNul_last (r : RawRecord) {offset n : Nat} {i : Fin 184}
    (h : i.val = offset + n) :
    (r.putNul i).chars offset (n + 1) = Prov.terminate (r.chars offset (n + 1)) := by
  apply Vector.ext
  intro j hj
  simp only [Prov.terminate, chars, Vector.getElem_set, Vector.getElem_ofFn,
    List.getD_eq_getElem?_getD, putNul_getElem?]
  by_cases hjn : n = j
  · have heq : i.val = offset + j := by omega
    rw [if_pos heq, if_pos hjn]
    rfl
  · have hne : i.val ≠ offset + j := by omega
    rw [if_neg hne, if_neg hjn]

theorem RawRecord.data_terminate (r : RawRecord) : r.terminate.data = r.data.terminate := by
  have hport : r.terminate.word 180 = r.word 180 := by
    rw [word, word, terminate, chars_putNul_outside _ (by decide),
      chars_putNul_outside _ (by decide), chars_putNul_outside _ (by decide),
      chars_putNul_outside _ (by decide)]
  have hpad : r.terminate.word 182 = r.word 182 := by
    rw [word, word, terminate, chars_putNul_outside _ (by decide),
      chars_putNul_outside _ (by decide), chars_putNul_outside _ (by decide),
      chars_putNul_outside _ (by decide)]
  have hssid : r.terminate.chars 0 33 = Prov.terminate (r.chars 0 33) := by
    rw [terminate, chars_putNul_outside _ (by decide), chars_putNul_outside _ (by decide),
      chars_putNul_outside _ (by decide), chars_putNul_last _ (by decide)]
  have hpassword : r.terminate.chars 33 65 = Prov.terminate (r.chars 33 65) := by
    rw [terminate, chars_putNul_outside _ (by decide), chars_putNul_outside _ (by decide),
      chars_putNul_last _ (by decide), chars_putNul_outside _ (by decide)]
  have hsecurity : r.terminate.chars 98 17 = Prov.terminate (r.chars 98 17) := by
    rw [terminate, chars_putNul_outside _ (by decide), chars_putNul_last _ (by decide),
      chars_putNul_outside _ (by decide), chars_putNul_outside _ (by decide)]
  have hhost : r.terminate.chars 115 65 = Prov.terminate (r.chars 115 65) := by
    rw [terminate, chars_putNul_last _ (by decide), chars_putNul_outside _ (by decide),
      chars_putNul_outside _ (by decide), chars_putNul_outside _ (by decide)]
  exact congr (congr (congr (congr (congr (congrArg AppNvramData.mk hssid) hpassword) hsecurity)
    hhost) hport) hpad

/-! Loading. -/

namespace RawNvs

theorem appNvsInit_entry (n : RawNvs) (d : NvsAnswer) : (n.appNvsInit d).1.entry = n.entry := rfl

theorem appNvsInit_ok_iff (n : RawNvs) (d : NvsAnswer) :
    (n.appNvsInit d).2 = 0 ↔ n.records.Mounts d :=
  Prov.appNvsInit_ok_iff n.records d

/-- What a load can be: no entry is read, or one of another length is copied and
refused, or a whole record is taken. -/
theorem appNvramLoad_cases (n : RawNvs) (d : NvsAnswer) (out : RawRecord) :
    ((n.records.Mounts d → 0 ≤ d.opRc → n.entry = none) ∧
      (n.appNvramLoad d out).2.2 ≠ .ok ∧ (n.appNvramLoad d out).2.1 = out) ∨
    (n.records.Mounts d ∧ 0 ≤ d.opRc ∧ ∃ entry, n.entry = some entry ∧ entry.length ≠ 184 ∧
      (n.appNvramLoad d out).2 = (out.copyIn entry, .length)) ∨
    (∃ r : RawRecord, n.entry = some r.toList ∧
      (n.appNvramLoad d out).2 = (r.terminate, .ok)) := by
  have hmounts := n.appNvsInit_ok_iff d
  have hentry := n.appNvsInit_entry d
  unfold appNvramLoad
  split
  · rename_i n' hinit
    rw [hinit] at hmounts hentry
    unfold nvsRead
    rcases Int.lt_or_le d.opRc 0 with hfault | hok
    · left
      rw [if_pos hfault]
      refine ⟨fun _ hok => absurd hok (Int.not_le.mpr hfault), ?_⟩
      dsimp only
      split_ifs <;> exact ⟨by simp, rfl⟩
    · rw [if_neg (Int.not_lt.mpr hok)]
      cases hread : n'.entry with
      | none =>
          left
          exact ⟨fun _ _ => hentry.symm.trans hread, by simp, rfl⟩
      | some entry =>
          right
          have hstored : n.entry = some entry := hentry.symm.trans hread
          have hnoent : ¬(entry.length : Int) = -ENOENT := by
            rw [ENOENT]
            omega
          have hnonneg : ¬(entry.length : Int) < 0 := by omega
          by_cases hlen : entry.length = 184
          · right
            obtain ⟨r, rfl⟩ := RawRecord.exists_of_length hlen
            refine ⟨r, hstored, ?_⟩
            simp [ENOENT, SIZEOF_APP_NVRAM_DATA, RawRecord.copyIn_whole]
          · left
            have hsize : (entry.length : Int) ≠ SIZEOF_APP_NVRAM_DATA := by
              rw [SIZEOF_APP_NVRAM_DATA]
              omega
            refine ⟨hmounts.mp rfl, hok, entry, hstored, hlen, ?_⟩
            dsimp only
            rw [if_neg hnoent, if_neg hnonneg, if_pos hsize]
  · rename_i n' rc hrc hinit
    rw [hinit] at hmounts
    left
    exact ⟨fun h => absurd (hmounts.mpr h) hrc, by simp, rfl⟩

theorem appNvramLoad_terminated {n : RawNvs} {d : NvsAnswer} {out : RawRecord}
    (h : (n.appNvramLoad d out).2.2 = .ok) : (n.appNvramLoad d out).2.1.data.Terminated := by
  rcases n.appNvramLoad_cases d out with
    ⟨-, hrc, -⟩ | ⟨-, -, entry, -, -, hload⟩ | ⟨r, -, hload⟩
  · exact absurd h hrc
  · rw [hload] at h
    cases h
  · rw [hload, RawRecord.data_terminate]
    exact AppNvramData.terminated_terminate _

/-- Where the entry is a whole record, this is the load on records. -/
theorem appNvramLoad_records {n : RawNvs} (h : ∀ entry, n.entry = some entry → entry.length = 184)
    (d : NvsAnswer) (out : RawRecord) :
    Prov.appNvramLoad n.records d out.data =
      ((n.appNvramLoad d out).1.records, (n.appNvramLoad d out).2.1.data,
        (n.appNvramLoad d out).2.2) := by
  have hcred := appNvsInit_cred n.records d
  unfold Prov.appNvramLoad appNvramLoad appNvsInit
  cases hinit : Prov.appNvsInit n.records d with
  | mk nvs rc =>
      rw [hinit] at hcred
      have hnvs : nvs = RawNvs.records {n with mounted := nvs.mounted} := by
        cases nvs
        exact congrArg _ hcred
      by_cases hrc : rc = 0
      · subst hrc
        dsimp only
        unfold Prov.nvsRead nvsRead
        rcases Int.lt_or_le d.opRc 0 with hfault | hok
        · simp only [hfault, if_true]
          split_ifs <;> exact congrArg (·, _) hnvs
        · have hread : ¬d.opRc < 0 := Int.not_lt.mpr hok
          simp only [hread, if_false]
          cases hentry : n.entry with
          | none =>
              have hnone : nvs.cred = none := by
                rw [hcred, records, hentry]
                rfl
              rw [hentry] at hnvs
              rw [hnone]
              exact congrArg (·, _) hnvs
          | some entry =>
              obtain ⟨r, rfl⟩ := RawRecord.exists_of_length (h entry hentry)
              have hsome : nvs.cred = some r.data := by
                rw [hcred, records, hentry]
                exact congrArg (fun r : RawRecord => some r.data) (RawRecord.copyIn_whole _ r)
              rw [hentry] at hnvs
              rw [hsome]
              simp [ENOENT, SIZEOF_APP_NVRAM_DATA, RawRecord.copyIn_whole,
                RawRecord.data_terminate, ← hnvs]
      · simp [← hnvs]

end RawNvs

theorem harmless_of_unread {n : RawNvs} {d : NvsAnswer}
    (h : n.records.Mounts d → 0 ≤ d.opRc → n.entry = none) (out : RawRecord) :
    Harmless n d out := by
  intro hmounts hok entry hentry
  rw [h hmounts hok] at hentry
  cases hentry

theorem harmless_whole {n : RawNvs} {r : RawRecord} (h : n.entry = some r.toList)
    (d : NvsAnswer) (out : RawRecord) : Harmless n d out := by
  intro _ _ entry hentry
  left
  rw [← Option.some.inj (h.symm.trans hentry), Vector.length_toList]

/-- An entry of another length is harmless where it changes nothing. -/
theorem harmless_partly_iff {n : RawNvs} {d : NvsAnswer} {entry : List UInt8}
    (hmounts : n.records.Mounts d) (hok : 0 ≤ d.opRc) (hentry : n.entry = some entry)
    (hlen : entry.length ≠ 184) (out : RawRecord) :
    Harmless n d out ↔ out.copyIn entry = out := by
  rw [RawRecord.copyIn_eq_self_iff]
  constructor
  · intro h
    exact (h hmounts hok entry hentry).resolve_left hlen
  · intro h _ _ entry' hentry'
    obtain rfl := Option.some.inj (hentry.symm.trans hentry')
    exact Or.inr h

theorem loadKeeps_iff (n : RawNvs) (d : NvsAnswer) (out : RawRecord) :
    LoadKeeps n d out ↔ Harmless n d out := by
  rcases n.appNvramLoad_cases d out with
    ⟨hunread, hrc, hout⟩ | ⟨hmounts, hok, entry, hentry, hlen, hload⟩ | ⟨r, hentry, hload⟩
  · exact iff_of_true (Or.inr ⟨hrc, hout⟩) (harmless_of_unread hunread out)
  · rw [harmless_partly_iff hmounts hok hentry hlen, LoadKeeps, hload]
    simp
  · apply iff_of_true
    · have hok : (n.appNvramLoad d out).2.2 = .ok := congrArg Prod.snd hload
      exact Or.inl ⟨hok, RawNvs.appNvramLoad_terminated hok⟩
    · exact harmless_whole hentry d out

theorem stagingWhole_iff (n : RawNvs) (d : NvsAnswer) :
    StagingWhole n d ↔ Harmless n d .zero := by
  rcases n.appNvramLoad_cases d .zero with
    ⟨hunread, hrc, hout⟩ | ⟨hmounts, hok, entry, hentry, hlen, hload⟩ | ⟨r, hentry, hload⟩
  · exact iff_of_true (Or.inl hout) (harmless_of_unread hunread .zero)
  · rw [harmless_partly_iff hmounts hok hentry hlen, StagingWhole, RawNvs.stagingAfterInit, hload]
    apply or_iff_left
    rintro ⟨r, hr, -⟩
    apply hlen
    rw [Option.some.inj (hentry.symm.trans hr), Vector.length_toList]
  · apply iff_of_true
    · exact Or.inr ⟨r, hentry, congrArg Prod.fst hload⟩
    · exact harmless_whole hentry d .zero

theorem provConnectWorkFn_cfg (n : RawNvs) (d : NvsAnswer) (cfg : RawRecord) :
    (n.provConnectWorkFn d cfg).2.1 = (n.appNvramLoad d cfg).2.1 ∧
      ((n.provConnectWorkFn d cfg).2.2 = none ↔ (n.appNvramLoad d cfg).2.2 ≠ .ok) := by
  unfold RawNvs.provConnectWorkFn
  split
  · rename_i hload
    simp [hload]
  · rename_i rc hrc hload
    have hfail : rc ≠ .ok := hrc
    simp [hload, hfail]

theorem reloadKeeps_iff (n : RawNvs) (d : NvsAnswer) (cfg : RawRecord) :
    ReloadKeeps n d cfg ↔ Harmless n d cfg := by
  obtain ⟨hcfg, hrc⟩ := provConnectWorkFn_cfg n d cfg
  rw [← loadKeeps_iff, ReloadKeeps, LoadKeeps, hcfg, hrc]
  constructor
  · intro h
    by_cases hok : (n.appNvramLoad d cfg).2.2 = .ok
    · exact Or.inl ⟨hok, RawNvs.appNvramLoad_terminated hok⟩
    · exact Or.inr ⟨hok, h hok⟩
  · rintro (⟨hok, -⟩ | ⟨-, hkept⟩) hfail
    · exact absurd hok hfail
    · exact hkept

/-- For every entry and every answer of NVS: loads, the start of the service and
reloads keep the buffer they are given, or fill it with a whole record, exactly
where the entry is harmless. -/
theorem failed_load_keeps_iff (n : RawNvs) (d : NvsAnswer) (out : RawRecord) :
    (LoadKeeps n d out ↔ Harmless n d out) ∧
      (StagingWhole n d ↔ Harmless n d .zero) ∧
      (ReloadKeeps n d out ↔ Harmless n d out) :=
  ⟨loadKeeps_iff n d out, stagingWhole_iff n d, reloadKeeps_iff n d out⟩

/-- An entry of three bytes is refused, and its bytes are in the staging buffer. -/
theorem short_entry_staged :
    ¬StagingWhole ⟨true, some (Http.ascii "lab")⟩ .success ∧
      ¬LoadKeeps ⟨true, some (Http.ascii "lab")⟩ .success .zero := by
  have hharm : ¬Harmless ⟨true, some (Http.ascii "lab")⟩ .success .zero := by
    intro h
    rcases h (Or.inl rfl) (by decide) _ rfl with hlen | hsame
    · revert hlen
      decide
    · have hfirst := hsame 0 108 (by decide)
      revert hfirst
      decide
  rw [stagingWhole_iff, loadKeeps_iff]
  exact ⟨hharm, hharm⟩

end Rw612.Prov
