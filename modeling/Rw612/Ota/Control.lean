import Rw612.Lib.Wire
import Rw612.Http.Task

/-!
The control characteristic of `svc_ota.c`: one write is one command, decoded by
`dispatch_ctrl` into calls of the OTA core, the HTTP client and the reboot
timer. What these calls return is a parameter.

The bytes are read through checked reads, so a result says that no byte beyond
the written ones was looked at.
-/

namespace Rw612.Ota

open Lib Lib.CString Http

def APP_OTA_OP_BEGIN : UInt8 := 0x01
def APP_OTA_OP_CHUNK : UInt8 := 0x02
def APP_OTA_OP_COMMIT : UInt8 := 0x03
def APP_OTA_OP_ABORT : UInt8 := 0x04
def APP_OTA_OP_REBOOT : UInt8 := 0x05
def APP_OTA_OP_HTTP_PULL : UInt8 := 0x06
def APP_OTA_HTTP_FLAG_AUTO_COMMIT : UInt8 := 0x01

/-- A call that `dispatch_ctrl` makes. The header of a commit is `[]` for
(NULL, 0). -/
inductive Invocation where
  | ota (call : Call)
  | rebootAfterMs (delayMs : UInt32)
  | httpStart (opts : HttpOpts)
  | httpStop
  deriving DecidableEq, Repr

/-- What is returned and the calls made on the way; `none` if a byte beyond the
buffer was read. -/
abbrev Dispatched := Option (Int × List Invocation)

/-- A return before any call. -/
def refusedCtrl : Dispatched := some (Err.param.code, [])

def dispatchBegin (p : List UInt8) (alen : UInt16) (reply : Invocation → Int) : Dispatched :=
  if alen < 4 then refusedCtrl
  else do
    let total ← readLe32 p 1
    let begin := Invocation.ota (.begin total)
    some (reply begin, [begin])

def dispatchChunk (p : List UInt8) (alen : UInt16) (reply : Invocation → Int) : Dispatched :=
  if alen < 6 then refusedCtrl
  else do
    let off ← readLe32 p 1
    let dlen ← readLe16 p 5
    if alen.toUInt32 < 6 + dlen.toUInt32 then refusedCtrl
    else do
      let data ← readBytes p 7 dlen.toNat
      let chunk := Invocation.ota (.chunk off data)
      some (reply chunk, [chunk])

/-- `alen ? arg : NULL` with its length -/
def commitHeader (p : List UInt8) (alen : UInt16) : Option (List UInt8) :=
  if alen = 0 then some [] else readBytes p 1 alen.toNat

/-- A commit that succeeds leaves the client a window to read the status. -/
def dispatchCommit (p : List UInt8) (alen : UInt16) (reply : Invocation → Int) : Dispatched := do
  let header ← commitHeader p alen
  let commit := Invocation.ota (.commit header)
  if reply commit = Err.ok.code then
    some (reply commit, [commit, .rebootAfterMs 800])
  else some (reply commit, [commit])

/-- The call of `app_ota_http_start` on the two buffers, each a string that ends
at its first NUL. -/
def pullOpts (flags : UInt8) (imageUrl headerUrl : List UInt8) : HttpOpts where
  imageUrl := some (text (imageUrl ++ [0]))
  headerUrl := if headerUrl = [] then none else some (text (headerUrl ++ [0]))
  autoCommit := flags &&& APP_OTA_HTTP_FLAG_AUTO_COMMIT != 0

def pullResult (rc : Int) : Int := if rc = 0 then Err.ok.code else Err.writeFailed.code

def dispatchHttpPull (p : List UInt8) (alen : UInt16) (reply : Invocation → Int) :
    Dispatched :=
  if alen < 1 + 2 then refusedCtrl
  else do
    let flags ← p[1]?
    let iurlLen ← readLe16 p 2
    if iurlLen = 0 ∨ APP_OTA_HTTP_URL_MAX < iurlLen.toNat then refusedCtrl
    else do
      let need : UInt32 := 1 + 2 + iurlLen.toUInt32 + 2
      if alen.toUInt32 < need then refusedCtrl
      else do
        let hurlLen ← readLe16 p (1 + 1 + 2 + iurlLen.toNat)
        if APP_OTA_HTTP_URL_MAX < hurlLen.toNat then refusedCtrl
        else if alen.toUInt32 < need + hurlLen.toUInt32 then refusedCtrl
        else do
          let imageUrl ← readBytes p (1 + 1 + 2) iurlLen.toNat
          let headerUrl ← readBytes p (1 + 1 + 2 + iurlLen.toNat + 2) hurlLen.toNat
          let start := Invocation.httpStart (pullOpts flags imageUrl headerUrl)
          some (pullResult (reply start), [start])

/-- The `switch` of `dispatch_ctrl`. -/
def dispatchOp (op : UInt8) (p : List UInt8) (alen : UInt16) (reply : Invocation → Int) :
    Dispatched :=
  if op = APP_OTA_OP_BEGIN then dispatchBegin p alen reply
  else if op = APP_OTA_OP_CHUNK then dispatchChunk p alen reply
  else if op = APP_OTA_OP_COMMIT then dispatchCommit p alen reply
  else if op = APP_OTA_OP_ABORT then some (Err.ok.code, [.ota .abort, .httpStop])
  else if op = APP_OTA_OP_REBOOT then some (Err.ok.code, [.rebootAfterMs 200])
  else if op = APP_OTA_OP_HTTP_PULL then dispatchHttpPull p alen reply
  else refusedCtrl

/-- `dispatch_ctrl` -/
def dispatchCtrl (p : List UInt8) (plen : UInt16) (reply : Invocation → Int) : Dispatched :=
  if plen < 1 then refusedCtrl
  else do
    let op ← p[0]?
    dispatchOp op p (plen - 1) reply

/-! The wire format of `svc_ota.h`. -/

/-- A URL of a pull command: `least` is 1 for the image and 0 for the header. -/
structure PullUrl (least : Nat) where
  bytes : List UInt8
  noNul : 0 ∉ bytes
  atLeast : least ≤ bytes.length
  atMost : bytes.length ≤ APP_OTA_HTTP_URL_MAX

/-- A command that fits one write. -/
inductive OtaCommand where
  | begin (totalSize : UInt32)
  | chunk (offset : UInt32) (data : List UInt8) (fits : 7 + data.length < 65536)
  | commit (header : List UInt8) (fits : 1 + header.length < 65536)
  | abort
  | reboot
  | httpPull (flags : UInt8) (imageUrl : PullUrl 1) (headerUrl : PullUrl 0)

def OtaCommand.encode : OtaCommand → List UInt8
  | .begin totalSize => [0x01] ++ le32 totalSize
  | .chunk offset data _ => [0x02] ++ le32 offset ++ le16 (UInt16.ofNat data.length) ++ data
  | .commit header _ => [0x03] ++ header
  | .abort => [0x04]
  | .reboot => [0x05]
  | .httpPull flags imageUrl headerUrl =>
      [0x06, flags] ++ le16 (UInt16.ofNat imageUrl.bytes.length) ++ imageUrl.bytes ++
        le16 (UInt16.ofNat headerUrl.bytes.length) ++ headerUrl.bytes

/-- The calls a command stands for, and what the client is told. -/
def OtaCommand.effect (reply : Invocation → Int) : OtaCommand → Int × List Invocation
  | .begin totalSize => (reply (.ota (.begin totalSize)), [.ota (.begin totalSize)])
  | .chunk offset data _ => (reply (.ota (.chunk offset data)), [.ota (.chunk offset data)])
  | .commit header _ =>
      (reply (.ota (.commit header)),
        if reply (.ota (.commit header)) = Err.ok.code then
          [.ota (.commit header), .rebootAfterMs 800]
        else [.ota (.commit header)])
  | .abort => (Err.ok.code, [.ota .abort, .httpStop])
  | .reboot => (Err.ok.code, [.rebootAfterMs 200])
  | .httpPull flags imageUrl headerUrl =>
      let opts : HttpOpts := {
        imageUrl := some imageUrl.bytes
        headerUrl := if headerUrl.bytes = [] then none else some headerUrl.bytes
        autoCommit := flags.toNat % 2 = 1 }
      (pullResult (reply (.httpStart opts)), [.httpStart opts])

/-- The length of a chunk command, as far as `p` announces it. -/
def chunkLength (p : List UInt8) : Nat :=
  match readLe16 p 5 with
  | none => 7
  | some dataLen => 7 + dataLen.toNat

/-- The length of a pull command: the place of the second length field depends
on the first. -/
def pullLength (p : List UInt8) : Nat :=
  match readLe16 p 2 with
  | none => 4
  | some iurlLen =>
      match readLe16 p (4 + iurlLen.toNat) with
      | none => 6 + iurlLen.toNat
      | some hurlLen => 6 + iurlLen.toNat + hurlLen.toNat

/-- The length a write must have by its opcode and by those of its length fields
that it has. -/
def announcedLength (p : List UInt8) : Nat :=
  match p with
  | [] => 1
  | op :: _ =>
      if op = APP_OTA_OP_BEGIN then 5
      else if op = APP_OTA_OP_CHUNK then chunkLength p
      else if op = APP_OTA_OP_HTTP_PULL then pullLength p
      else 1

/-! A write of any content. -/

/-- Every byte read is there, and where the command is `short` nothing is
called. -/
def Dispatched.Safe (d : Dispatched) (short : Prop) : Prop :=
  ∃ result, d = some result ∧ (short → result = (Err.param.code, []))

theorem refusedCtrl_safe (short : Prop) : Dispatched.Safe refusedCtrl short := by
  exists (Err.param.code, [])
  exact And.intro rfl (fun _ => rfl)

theorem Dispatched.Safe.of_complete {short : Prop} (result : Int × List Invocation)
    (hcomplete : ¬short) : Dispatched.Safe (some result) short := by
  exists result
  apply And.intro rfl
  intro hshort
  exact absurd hshort hcomplete

/-- No sum of a small number and a length field wraps. -/
theorem announced_toNat {need : UInt32} (hneed : need.toNat < 131072) (len : UInt16) :
    (need + len.toUInt32).toNat = need.toNat + len.toNat := by
  have hlen := len.toNat_lt
  rw [UInt32.toNat_add, UInt16.toNat_toUInt32]
  omega

theorem pullNeed_toNat (iurlLen : UInt16) :
    (1 + 2 + iurlLen.toUInt32 + 2 : UInt32).toNat = iurlLen.toNat + 5 := by
  have hlen := iurlLen.toNat_lt
  rw [UInt32.toNat_add, announced_toNat (by decide)]
  change (3 + iurlLen.toNat + 2) % 4294967296 = _
  omega

theorem toNat_le_of_not_lt {alen : UInt16} {need : UInt32} (h : ¬alen.toUInt32 < need) :
    need.toNat ≤ alen.toNat := by
  have hle := UInt32.le_iff_toNat_le.mp (UInt32.not_lt.mp h)
  rw [UInt16.toNat_toUInt32] at hle
  exact hle

theorem dispatchBegin_safe {p : List UInt8} {alen : UInt16} (halen : p.length = alen.toNat + 1)
    (reply : Invocation → Int) : (dispatchBegin p alen reply).Safe (p.length < 5) := by
  unfold dispatchBegin
  split
  · apply refusedCtrl_safe
  · rename_i henough
    have hlen : 4 ≤ alen.toNat := UInt16.le_iff_toNat_le.mp (UInt16.not_lt.mp henough)
    obtain ⟨total, htotal⟩ := readLe32_inside (p := p) (i := 1) (by omega)
    rw [htotal]
    apply Dispatched.Safe.of_complete
    omega

theorem dispatchChunk_safe {p : List UInt8} {alen : UInt16} (halen : p.length = alen.toNat + 1)
    (reply : Invocation → Int) : (dispatchChunk p alen reply).Safe (p.length < chunkLength p) := by
  unfold dispatchChunk
  split
  · apply refusedCtrl_safe
  · rename_i henough
    have hlen : 6 ≤ alen.toNat := UInt16.le_iff_toNat_le.mp (UInt16.not_lt.mp henough)
    obtain ⟨off, hoff⟩ := readLe32_inside (p := p) (i := 1) (by omega)
    obtain ⟨dlen, hdlen⟩ := readLe16_inside (p := p) (i := 5) (by omega)
    simp only [hoff, hdlen, Option.bind_eq_bind, Option.bind_some]
    split
    · apply refusedCtrl_safe
    · rename_i hdata
      have hsum := toNat_le_of_not_lt hdata
      rw [announced_toNat (by decide)] at hsum
      change 6 + dlen.toNat ≤ alen.toNat at hsum
      have hfits : 7 + dlen.toNat ≤ p.length := by omega
      obtain ⟨data, hread⟩ := readBytes_inside hfits
      have hannounced : chunkLength p = 7 + dlen.toNat := by rw [chunkLength, hdlen]
      rw [hread, hannounced]
      apply Dispatched.Safe.of_complete
      omega

theorem dispatchCommit_safe {p : List UInt8} {alen : UInt16} (halen : p.length = alen.toNat + 1)
    (reply : Invocation → Int) : (dispatchCommit p alen reply).Safe (p.length < 1) := by
  have hcomplete : ¬p.length < 1 := by omega
  have hheader : ∃ header, commitHeader p alen = some header := by
    unfold commitHeader
    split
    · exists []
    · exact readBytes_inside (by omega)
  obtain ⟨header, hheader⟩ := hheader
  unfold dispatchCommit
  simp only [hheader, Option.bind_eq_bind, Option.bind_some]
  split
  · apply Dispatched.Safe.of_complete _ hcomplete
  · apply Dispatched.Safe.of_complete _ hcomplete

theorem dispatchHttpPull_safe {p : List UInt8} {alen : UInt16}
    (halen : p.length = alen.toNat + 1) (reply : Invocation → Int) :
    (dispatchHttpPull p alen reply).Safe (p.length < pullLength p) := by
  unfold dispatchHttpPull
  split
  · apply refusedCtrl_safe
  rename_i henough
  have hlen : 3 ≤ alen.toNat := UInt16.le_iff_toNat_le.mp (UInt16.not_lt.mp henough)
  have hflags : p[1]? = some p[1] := List.getElem?_eq_getElem (by omega)
  obtain ⟨iurlLen, hiurlLen⟩ := readLe16_inside (p := p) (i := 2) (by omega)
  simp only [hflags, hiurlLen, Option.bind_eq_bind, Option.bind_some]
  split
  · apply refusedCtrl_safe
  split
  · apply refusedCtrl_safe
  rename_i hneed
  have hiurl := toNat_le_of_not_lt hneed
  rw [pullNeed_toNat] at hiurl
  obtain ⟨hurlLen, hhurlLen⟩ := readLe16_inside (p := p) (i := 4 + iurlLen.toNat) (by omega)
  simp only [hhurlLen, Option.bind_some]
  split
  · apply refusedCtrl_safe
  split
  · apply refusedCtrl_safe
  rename_i hwhole
  have hsmall := iurlLen.toNat_lt
  have hhurl := toNat_le_of_not_lt hwhole
  rw [announced_toNat (by rw [pullNeed_toNat]; omega), pullNeed_toNat] at hhurl
  obtain ⟨imageUrl, himage⟩ := readBytes_inside (p := p) (i := 4) (n := iurlLen.toNat) (by omega)
  obtain ⟨headerUrl, hheader⟩ :=
    readBytes_inside (p := p) (i := 4 + iurlLen.toNat + 2) (n := hurlLen.toNat) (by omega)
  have hannounced : pullLength p = 6 + iurlLen.toNat + hurlLen.toNat := by
    simp only [pullLength, hiurlLen, hhurlLen]
  simp only [himage, hheader, Option.bind_some, hannounced]
  apply Dispatched.Safe.of_complete
  omega

theorem dispatchOp_safe {op : UInt8} {args : List UInt8} {alen : UInt16}
    (halen : (op :: args).length = alen.toNat + 1) (reply : Invocation → Int) :
    (dispatchOp op (op :: args) alen reply).Safe
      ((op :: args).length < announcedLength (op :: args)) := by
  simp only [dispatchOp, announcedLength]
  split
  · apply dispatchBegin_safe halen
  split
  · apply dispatchChunk_safe halen
  split
  · rename_i hcommit
    subst hcommit
    apply dispatchCommit_safe halen
  split
  · rename_i habort
    subst habort
    apply Dispatched.Safe.of_complete
    simp [APP_OTA_OP_ABORT, APP_OTA_OP_HTTP_PULL]
  split
  · rename_i hreboot
    subst hreboot
    apply Dispatched.Safe.of_complete
    simp [APP_OTA_OP_REBOOT, APP_OTA_OP_HTTP_PULL]
  split
  · apply dispatchHttpPull_safe halen
  · apply refusedCtrl_safe

theorem dispatchCtrl_cons (op : UInt8) {args : List UInt8} (h : args.length + 1 < 65536)
    (reply : Invocation → Int) :
    dispatchCtrl (op :: args) (UInt16.ofNat (op :: args).length) reply =
      dispatchOp op (op :: args) (UInt16.ofNat args.length) reply := by
  have hplen : (UInt16.ofNat (args.length + 1)).toNat = args.length + 1 :=
    UInt16.toNat_ofNat_of_lt' h
  have hone : (1 : UInt16) ≤ UInt16.ofNat (args.length + 1) := by
    rw [UInt16.le_iff_toNat_le, hplen]
    exact Nat.le_add_left 1 args.length
  have halen : UInt16.ofNat (args.length + 1) - 1 = UInt16.ofNat args.length := by
    apply UInt16.toNat_inj.mp
    rw [UInt16.toNat_sub_of_le _ _ hone, hplen,
      UInt16.toNat_ofNat_of_lt' (show args.length < 65536 by omega)]
    rfl
  rw [dispatchCtrl, List.length_cons, if_neg (UInt16.not_lt.mpr hone), halen]
  rfl

theorem dispatchCtrl_safe {p : List UInt8} (hp : p.length < 65536) (reply : Invocation → Int) :
    (dispatchCtrl p (UInt16.ofNat p.length) reply).Safe (p.length < announcedLength p) := by
  cases p with
  | nil =>
      apply refusedCtrl_safe
  | cons op args =>
      rw [dispatchCtrl_cons op hp]
      apply dispatchOp_safe
      have hargs : args.length < 65536 := Nat.lt_of_succ_lt hp
      rw [UInt16.toNat_ofNat_of_lt' hargs]
      rfl

/-! A command of the wire format. -/

theorem dispatchBegin_encoded (totalSize : UInt32) (reply : Invocation → Int) :
    dispatchBegin ([0x01] ++ le32 totalSize) 4 reply =
      some ((OtaCommand.begin totalSize).effect reply) := by
  have htotal := readLe32_written [0x01] (i := 1) rfl totalSize []
  rw [List.append_nil] at htotal
  rw [dispatchBegin, if_neg (by decide), htotal]
  rfl

theorem dispatchChunk_encoded (offset : UInt32) (data : List UInt8)
    (fits : 7 + data.length < 65536) (reply : Invocation → Int) :
    dispatchChunk (OtaCommand.chunk offset data fits).encode (UInt16.ofNat (6 + data.length))
      reply = some ((OtaCommand.chunk offset data fits).effect reply) := by
  have hdlen : (UInt16.ofNat data.length).toNat = data.length :=
    UInt16.toNat_ofNat_of_lt' (show data.length < 65536 by omega)
  have halen : (UInt16.ofNat (6 + data.length)).toNat = 6 + data.length :=
    UInt16.toNat_ofNat_of_lt' (show 6 + data.length < 65536 by omega)
  have hencode : (OtaCommand.chunk offset data fits).encode =
      [0x02] ++ (le32 offset ++ (le16 (UInt16.ofNat data.length) ++ data)) := by
    simp only [OtaCommand.encode, List.append_assoc]
  have henough : ¬UInt16.ofNat (6 + data.length) < 6 := by
    rw [UInt16.not_lt, UInt16.le_iff_toNat_le, halen]
    exact Nat.le_add_right 6 data.length
  have hfits : ¬(UInt16.ofNat (6 + data.length)).toUInt32 <
      6 + (UInt16.ofNat data.length).toUInt32 := by
    rw [UInt32.not_lt, UInt32.le_iff_toNat_le, announced_toNat (by decide),
      UInt16.toNat_toUInt32, halen, hdlen]
    exact Nat.le_refl _
  have hoff := readLe32_written [0x02] (i := 1) rfl offset
    (le16 (UInt16.ofNat data.length) ++ data)
  have hlen := readLe16_written ([0x02] ++ le32 offset) (i := 5) rfl
    (UInt16.ofNat data.length) data
  have hdata := readBytes_written ([0x02] ++ le32 offset ++
    le16 (UInt16.ofNat data.length)) (i := 7) rfl hdlen.symm []
  simp only [List.append_assoc, List.append_nil] at hlen hdata
  rw [hencode, dispatchChunk, if_neg henough]
  simp only [hoff, hlen, hdata, Option.bind_eq_bind, Option.bind_some, if_neg hfits]
  rfl

theorem dispatchCommit_encoded (header : List UInt8) (fits : 1 + header.length < 65536)
    (reply : Invocation → Int) :
    dispatchCommit ([0x03] ++ header) (UInt16.ofNat header.length) reply =
      some ((OtaCommand.commit header fits).effect reply) := by
  have halen : (UInt16.ofNat header.length).toNat = header.length :=
    UInt16.toNat_ofNat_of_lt' (show header.length < 65536 by omega)
  have hheader : commitHeader ([0x03] ++ header) (UInt16.ofNat header.length) = some header := by
    unfold commitHeader
    split
    · rename_i hzero
      rw [hzero] at halen
      rw [List.eq_nil_of_length_eq_zero halen.symm]
    · have hread := readBytes_written [0x03] (i := 1) rfl halen.symm []
      rw [List.append_nil] at hread
      exact hread
  rw [dispatchCommit, hheader]
  simp only [Option.bind_eq_bind, Option.bind_some, OtaCommand.effect]
  split
  · rfl
  · rfl

theorem flag_autoCommit (flags : UInt8) :
    (flags &&& APP_OTA_HTTP_FLAG_AUTO_COMMIT != 0) = decide (flags.toNat % 2 = 1) := by
  have hbit : (flags &&& APP_OTA_HTTP_FLAG_AUTO_COMMIT).toNat = flags.toNat % 2 := by
    rw [UInt8.toNat_and]
    exact Nat.and_one_is_mod flags.toNat
  rw [← hbit]
  by_cases hflag : flags &&& APP_OTA_HTTP_FLAG_AUTO_COMMIT = 0
  · rw [hflag]
    rfl
  · have hnonzero : (flags &&& APP_OTA_HTTP_FLAG_AUTO_COMMIT).toNat ≠ 0 := by
      intro hzero
      exact hflag (UInt8.toNat_inj.mp hzero)
    have hone : (flags &&& APP_OTA_HTTP_FLAG_AUTO_COMMIT).toNat = 1 := by omega
    rw [bne_iff_ne.mpr hflag, hone]
    rfl

theorem pullOpts_encoded (flags : UInt8) (imageUrl : PullUrl 1) (headerUrl : PullUrl 0) :
    pullOpts flags imageUrl.bytes headerUrl.bytes =
      {imageUrl := some imageUrl.bytes
       headerUrl := if headerUrl.bytes = [] then none else some headerUrl.bytes
       autoCommit := flags.toNat % 2 = 1} := by
  rw [pullOpts, text_append_nul imageUrl.noNul, text_append_nul headerUrl.noNul,
    flag_autoCommit]

/-- A pull command whose length fields are in order and are all there. -/
theorem dispatchHttpPull_accepts {p : List UInt8} {alen iurlLen hurlLen : UInt16} {flags : UInt8}
    {imageUrl headerUrl : List UInt8} (hflags : p[1]? = some flags)
    (hiurlLen : readLe16 p 2 = some iurlLen) (hpos : 0 < iurlLen.toNat)
    (himax : iurlLen.toNat ≤ APP_OTA_HTTP_URL_MAX)
    (hhurlLen : readLe16 p (4 + iurlLen.toNat) = some hurlLen)
    (hhmax : hurlLen.toNat ≤ APP_OTA_HTTP_URL_MAX)
    (halen : 5 + iurlLen.toNat + hurlLen.toNat ≤ alen.toNat)
    (himage : readBytes p 4 iurlLen.toNat = some imageUrl)
    (hheader : readBytes p (4 + iurlLen.toNat + 2) hurlLen.toNat = some headerUrl)
    (reply : Invocation → Int) :
    dispatchHttpPull p alen reply =
      some (pullResult (reply (.httpStart (pullOpts flags imageUrl headerUrl))),
        [.httpStart (pullOpts flags imageUrl headerUrl)]) := by
  have henough : ¬alen < 1 + 2 := by
    rw [UInt16.not_lt, UInt16.le_iff_toNat_le]
    change 3 ≤ alen.toNat
    omega
  have hiurl : ¬(iurlLen = 0 ∨ APP_OTA_HTTP_URL_MAX < iurlLen.toNat) := by
    rw [← UInt16.toNat_inj, not_or]
    exact And.intro (Nat.ne_of_gt hpos) (Nat.not_lt.mpr himax)
  have hneed : ¬alen.toUInt32 < 1 + 2 + iurlLen.toUInt32 + 2 := by
    rw [UInt32.not_lt, UInt32.le_iff_toNat_le, pullNeed_toNat, UInt16.toNat_toUInt32]
    omega
  have hwhole : ¬alen.toUInt32 < 1 + 2 + iurlLen.toUInt32 + 2 + hurlLen.toUInt32 := by
    have hsmall : (1 + 2 + iurlLen.toUInt32 + 2 : UInt32).toNat < 131072 := by
      have hlen := iurlLen.toNat_lt
      rw [pullNeed_toNat]
      omega
    rw [UInt32.not_lt, UInt32.le_iff_toNat_le, announced_toNat hsmall, pullNeed_toNat,
      UInt16.toNat_toUInt32]
    omega
  rw [dispatchHttpPull, if_neg henough]
  simp only [hflags, hiurlLen, hhurlLen, himage, hheader, Option.bind_eq_bind, Option.bind_some,
    if_neg hiurl, if_neg hneed, if_neg (Nat.not_lt.mpr hhmax), if_neg hwhole]

theorem dispatchHttpPull_encoded (flags : UInt8) (imageUrl : PullUrl 1) (headerUrl : PullUrl 0)
    (reply : Invocation → Int) :
    dispatchHttpPull (OtaCommand.httpPull flags imageUrl headerUrl).encode
      (UInt16.ofNat (5 + imageUrl.bytes.length + headerUrl.bytes.length)) reply =
      some ((OtaCommand.httpPull flags imageUrl headerUrl).effect reply) := by
  have himax : imageUrl.bytes.length ≤ 240 := imageUrl.atMost
  have himin : 1 ≤ imageUrl.bytes.length := imageUrl.atLeast
  have hhmax : headerUrl.bytes.length ≤ 240 := headerUrl.atMost
  have hilen : (UInt16.ofNat imageUrl.bytes.length).toNat = imageUrl.bytes.length :=
    UInt16.toNat_ofNat_of_lt' (show imageUrl.bytes.length < 65536 by omega)
  have hhlen : (UInt16.ofNat headerUrl.bytes.length).toNat = headerUrl.bytes.length :=
    UInt16.toNat_ofNat_of_lt' (show headerUrl.bytes.length < 65536 by omega)
  have halen : (UInt16.ofNat (5 + imageUrl.bytes.length + headerUrl.bytes.length)).toNat =
      5 + imageUrl.bytes.length + headerUrl.bytes.length :=
    UInt16.toNat_ofNat_of_lt' (show 5 + imageUrl.bytes.length + headerUrl.bytes.length < 65536
      by omega)
  -- the fronts at which the fields after the two fixed bytes begin
  have hfront₁ : ([0x06, flags] ++ le16 (UInt16.ofNat imageUrl.bytes.length)).length = 4 := rfl
  have hfront₂ : ([0x06, flags] ++ le16 (UInt16.ofNat imageUrl.bytes.length) ++
      imageUrl.bytes).length = 4 + (UInt16.ofNat imageUrl.bytes.length).toNat := by
    rw [List.length_append, hfront₁, hilen]
  have hfront₃ : ([0x06, flags] ++ le16 (UInt16.ofNat imageUrl.bytes.length) ++
      imageUrl.bytes ++ le16 (UInt16.ofNat headerUrl.bytes.length)).length =
      4 + (UInt16.ofNat imageUrl.bytes.length).toNat + 2 := by
    rw [List.length_append, hfront₂, le16_length]
  have hiurlLen := readLe16_written [0x06, flags] (i := 2) rfl
    (UInt16.ofNat imageUrl.bytes.length)
    (imageUrl.bytes ++ (le16 (UInt16.ofNat headerUrl.bytes.length) ++ headerUrl.bytes))
  have himage := readBytes_written _ hfront₁ hilen.symm
    (le16 (UInt16.ofNat headerUrl.bytes.length) ++ headerUrl.bytes)
  have hhurlLen := readLe16_written _ hfront₂ (UInt16.ofNat headerUrl.bytes.length)
    headerUrl.bytes
  have hheader := readBytes_written _ hfront₃ hhlen.symm []
  simp only [List.append_assoc, List.append_nil] at himage hhurlLen hheader
  simp only [OtaCommand.encode, OtaCommand.effect, List.append_assoc, ← pullOpts_encoded]
  apply dispatchHttpPull_accepts rfl hiurlLen _ _ hhurlLen _ _ himage hheader
  · omega
  · exact hilen.trans_le imageUrl.atMost
  · exact hhlen.trans_le headerUrl.atMost
  · omega

theorem dispatchCtrl_encode (c : OtaCommand) (reply : Invocation → Int) :
    dispatchCtrl c.encode (UInt16.ofNat c.encode.length) reply = some (c.effect reply) := by
  cases c with
  | begin totalSize =>
      have hfits : (le32 totalSize).length + 1 < 65536 := by
        rw [le32_length]
        decide
      exact (dispatchCtrl_cons 0x01 hfits reply).trans (dispatchBegin_encoded totalSize reply)
  | chunk offset data fits =>
      have hargs : (le32 offset ++ le16 (UInt16.ofNat data.length) ++ data).length =
          6 + data.length := by
        simp only [List.length_append, le32_length, le16_length]
      have hfits : (le32 offset ++ le16 (UInt16.ofNat data.length) ++ data).length + 1 < 65536 := by
        omega
      have hswitch := dispatchCtrl_cons 0x02 hfits reply
      rw [hargs] at hswitch
      exact hswitch.trans (dispatchChunk_encoded offset data fits reply)
  | commit header fits =>
      have hfits : header.length + 1 < 65536 := by omega
      exact (dispatchCtrl_cons 0x03 hfits reply).trans (dispatchCommit_encoded header fits reply)
  | abort => rfl
  | reboot => rfl
  | httpPull flags imageUrl headerUrl =>
      have himax : imageUrl.bytes.length ≤ 240 := imageUrl.atMost
      have hhmax : headerUrl.bytes.length ≤ 240 := headerUrl.atMost
      have hargs : ([flags] ++ le16 (UInt16.ofNat imageUrl.bytes.length) ++ imageUrl.bytes ++
          le16 (UInt16.ofNat headerUrl.bytes.length) ++ headerUrl.bytes).length =
          5 + imageUrl.bytes.length + headerUrl.bytes.length := by
        simp only [List.length_append, le16_length, List.length_singleton]
        omega
      have hfits : ([flags] ++ le16 (UInt16.ofNat imageUrl.bytes.length) ++ imageUrl.bytes ++
          le16 (UInt16.ofNat headerUrl.bytes.length) ++ headerUrl.bytes).length + 1 < 65536 := by
        omega
      have hswitch := dispatchCtrl_cons 0x06 hfits reply
      rw [hargs] at hswitch
      exact hswitch.trans (dispatchHttpPull_encoded flags imageUrl headerUrl reply)

/-- Decoding undoes encoding, and no write makes it read past the end or act on
a command that is not all there. -/
theorem dispatch_ctrl_exact (reply : Invocation → Int) :
    (∀ c : OtaCommand,
      dispatchCtrl c.encode (UInt16.ofNat c.encode.length) reply = some (c.effect reply)) ∧
    (∀ p : List UInt8, p.length < 65536 →
      ∃ result, dispatchCtrl p (UInt16.ofNat p.length) reply = some result ∧
        (p.length < announcedLength p → result = (Err.param.code, []))) := by
  apply And.intro
  · intro c
    exact dispatchCtrl_encode c reply
  · intro p hp
    exact dispatchCtrl_safe hp reply

end Rw612.Ota
