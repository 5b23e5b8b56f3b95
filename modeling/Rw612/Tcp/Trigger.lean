import Mathlib.Data.List.DropRight
import Rw612.Http.Task

/-!
The OTA trigger of `app_main_zephyr.c`. `tcp_rx_cb` is called with the result of
each `zsock_recv` and keeps nothing from one call to the next, so a command is
what one received segment holds, not what a line of the stream says. The two
agree on a stream of lines just when every line begins a segment and that
segment ends within the end of the line.
-/

namespace Rw612.Tcp

open Lib.CString
open Http (ascii HttpOpts APP_OTA_HTTP_URL_MAX)

/-- What a command asks for. -/
structure OtaCommand where
  url : List UInt8
  autoCommit : Bool
  deriving DecidableEq, Repr

/-- How `tcp_rx_cb` acts on an OTA command. -/
inductive RxAction where
  | ignored (c : OtaCommand)
  | start (opts : HttpOpts)
  deriving DecidableEq

/-- The bytes that are stripped from the end of a command. -/
def isTrailing (b : UInt8) : Bool := b == 13 || b == 10 || b == 32

/-- `sizeof(s_ota_cmd)` -/
def OTA_CMD_SIZE : Nat := APP_OTA_HTTP_URL_MAX + 16

/-- `s_ota_cmd` once it is copied and stripped. -/
def otaCmd (data : List UInt8) : List UInt8 :=
  (data.take (min data.length (OTA_CMD_SIZE - 1))).rdropWhile isTrailing

/-- The command in one segment. -/
def otaCommand (data : List UInt8) : Option OtaCommand :=
  if 4 < data.length ∧ (ascii "OTA:").isPrefixOf data = true then
    let urlStart := (otaCmd data).drop 4
    match strchr 32 urlStart with
    | none => some ⟨text urlStart, false⟩
    | some space =>
        some ⟨urlStart.take (urlStart.length - space.length),
          streq (space.drop 1) (ascii "--commit")⟩
  else none

/-- `tcp_rx_cb`, while `app_ota_http_is_running` answers `running`. -/
def tcpRxCb (running : Bool) (data : List UInt8) : Option RxAction :=
  if data = [] then none
  else
    (otaCommand data).map fun c =>
      if running then .ignored c
      else
        .start {
          imageUrl := some c.url
          headerUrl := none
          autoCommit := c.autoCommit }

/-- The command that was acted on, whether it was started or ignored. -/
def RxAction.command : RxAction → OtaCommand
  | .ignored c => c
  | .start opts => ⟨opts.imageUrl.getD [], opts.autoCommit⟩

/-- The receive loop of `tcp_task`: each segment, with what
`app_ota_http_is_running` answers at that time, goes to the callback. -/
def tcpCommands (segments : List (Bool × List UInt8)) : List OtaCommand :=
  segments.filterMap fun r => (tcpRxCb r.1 r.2).map RxAction.command

theorem tcpRxCb_command (running : Bool) (data : List UInt8) :
    (tcpRxCb running data).map RxAction.command = otaCommand data := by
  by_cases hdata : data = []
  · subst hdata
    rfl
  · rw [tcpRxCb, if_neg hdata, Option.map_map]
    cases otaCommand data with
    | none => rfl
    | some c => cases running <;> rfl

theorem tcpCommands_eq (segments : List (Bool × List UInt8)) :
    tcpCommands segments = (segments.map Prod.snd).filterMap otaCommand := by
  rw [List.filterMap_map]
  exact List.filterMap_congr (fun r _ => tcpRxCb_command r.1 r.2)

/-! The lines of the peer. -/

def commitOption : Bool → List UInt8
  | true => ascii " --commit"
  | false => []

/-- `OTA:<url>` or `OTA:<url> --commit` -/
def OtaCommand.text (c : OtaCommand) : List UInt8 :=
  ascii "OTA:" ++ c.url ++ commitOption c.autoCommit

/-- A line of the peer, ended by CR LF or by LF. -/
structure OtaLine where
  command : OtaCommand
  cr : Bool
  nonempty : command.url ≠ []
  short : command.url.length ≤ 240
  plain : ∀ b ∈ command.url, isTrailing b = false

def OtaLine.eol (l : OtaLine) : List UInt8 := if l.cr then [13, 10] else [10]

def OtaLine.bytes (l : OtaLine) : List UInt8 := l.command.text ++ l.eol

def stream (lines : List OtaLine) : List UInt8 := lines.flatMap OtaLine.bytes

theorem stream_cons (l : OtaLine) (ls : List OtaLine) :
    stream (l :: ls) = l.bytes ++ stream ls := rfl

/-- Every line begins a segment, which reaches at least to the end of the text
and at most to the end of the line; what it leaves of the line end comes in
segments of its own. -/
inductive Aligned : List OtaLine → List (List UInt8) → Prop
  | nil : Aligned [] []
  | cons {l : OtaLine} {ls : List OtaLine} {eol : List UInt8}
      {pieces segments : List (List UInt8)}
      (heol : eol ++ pieces.flatten = l.eol) (hrest : Aligned ls segments) :
      Aligned (l :: ls) ((l.command.text ++ eol) :: (pieces ++ segments))

/-! What one segment can yield. -/

/-- Stripping does not reach a byte that is not to be stripped. -/
theorem prefix_rdropWhile {α : Type*} {p : α → Bool} {front l : List α} {x : α}
    (h : front ++ [x] <+: l) (hx : p x = false) :
    front ++ [x] <+: l.rdropWhile p := by
  induction l using List.reverseRecOn with
  | nil => simp at h
  | append_singleton l y ih =>
      rw [List.rdropWhile_concat]
      split
      case isFalse => exact h
      case isTrue hy =>
          rcases List.prefix_concat_iff.mp h with heq | hbegins
          · obtain rfl : x = y := by simpa using (List.append_inj' heq rfl).2
            simp [hx] at hy
          · exact ih hbegins

theorem otaCmd_isPrefix (data : List UInt8) : otaCmd data <+: data :=
  (List.rdropWhile_prefix _ _).trans (List.take_prefix _ _)

theorem otaCmd_marker {data : List UInt8} (hlen : 4 < data.length)
    (h : (ascii "OTA:").isPrefixOf data = true) : ascii "OTA:" <+: otaCmd data := by
  have hbegins : ascii "OTA:" <+: data := List.isPrefixOf_iff_prefix.mp h
  have htake : ascii "OTA:" <+: data.take (min data.length (OTA_CMD_SIZE - 1)) := by
    refine List.prefix_take_iff.mpr ⟨hbegins, ?_⟩
    change 4 ≤ min data.length 255
    omega
  have hlast : [79, 84, 65] ++ [58] <+:
      data.take (min data.length (OTA_CMD_SIZE - 1)) := htake
  exact prefix_rdropWhile hlast rfl

/-- The text of the command is what the segment begins with, and its URL ends
before the first NUL. -/
theorem otaCommand_text {data : List UInt8} {c : OtaCommand}
    (h : otaCommand data = some c) : c.text <+: data ∧ (0 : UInt8) ∉ c.url := by
  unfold otaCommand at h
  split at h
  case isFalse => cases h
  case isTrue hdata =>
      obtain ⟨hlen, hmarker⟩ := hdata
      obtain ⟨urlStart, hcmd⟩ := otaCmd_marker hlen hmarker
      have hdrop : (otaCmd data).drop 4 = urlStart := by rw [← hcmd]; rfl
      have hdata : ascii "OTA:" ++ urlStart <+: data := hcmd ▸ otaCmd_isPrefix data
      rw [hdrop] at h
      dsimp only at h
      split at h
      case h_1 =>
          cases h
          refine ⟨?_, zero_notMem_text urlStart⟩
          rw [OtaCommand.text, commitOption, List.append_nil]
          exact ((List.prefix_append_right_inj _).mpr
            (text_isPrefix urlStart)).trans hdata
      case h_2 space hspace =>
          obtain ⟨front, back, hfront, rfl, hplain⟩ := strchr_eq_some hspace
          have htake : urlStart.take (urlStart.length - (32 :: back).length) = front := by
            rw [hfront, List.length_append, Nat.add_sub_cancel, List.take_left]
          rw [htake] at h
          cases h
          refine ⟨?_, fun h0 => (hplain 0 h0).1 rfl⟩
          refine List.IsPrefix.trans ?_ hdata
          rw [OtaCommand.text, List.append_assoc, hfront]
          refine (List.prefix_append_right_inj _).mpr
            ((List.prefix_append_right_inj _).mpr ?_)
          change commitOption (streq back (ascii "--commit")) <+: 32 :: back
          cases hcommit : streq back (ascii "--commit") with
          | false => exact List.nil_prefix
          | true =>
              have htext : text back = ascii "--commit" := beq_iff_eq.mp hcommit
              have hback : ascii "--commit" <+: back := htext ▸ text_isPrefix back
              exact List.cons_prefix_cons.mpr ⟨rfl, hback⟩

theorem otaCommand_eq_none {data : List UInt8} (h : ¬ascii "OTA:" <+: data) :
    otaCommand data = none := by
  rw [otaCommand, if_neg]
  rintro ⟨-, hmarker⟩
  exact h (List.isPrefixOf_iff_prefix.mp hmarker)

/-! The parts of a line. -/

theorem OtaLine.eol_trailing (l : OtaLine) : ∀ b ∈ l.eol, isTrailing b = true := by
  unfold OtaLine.eol
  split <;> simp [isTrailing]

theorem OtaLine.text_concat (l : OtaLine) : ∃ front x,
    l.command.text = front ++ [x] ∧ isTrailing x = false := by
  rw [OtaCommand.text]
  cases l.command.autoCommit with
  | true => exact ⟨ascii "OTA:" ++ l.command.url ++ ascii " --commi", 116, by
      rw [List.append_assoc _ (ascii " --commi")]; rfl, rfl⟩
  | false =>
      have hurl := List.dropLast_concat_getLast l.nonempty
      refine ⟨ascii "OTA:" ++ l.command.url.dropLast,
        l.command.url.getLast l.nonempty, ?_,
        l.plain _ (List.getLast_mem l.nonempty)⟩
      rw [commitOption, List.append_nil, List.append_assoc, hurl]

/-- What follows the URL in a line begins with a byte that no URL contains, and
contains no `O`. -/
theorem OtaLine.bytes_eq (l : OtaLine) : ∃ stop tail,
    l.bytes = (ascii "OTA:" ++ l.command.url) ++ stop :: tail ∧
      isTrailing stop = true ∧ 79 ∉ stop :: tail := by
  rw [OtaLine.bytes, OtaCommand.text, OtaLine.eol]
  cases l.command.autoCommit <;> cases l.cr
  · exact ⟨10, [], by simp [commitOption], rfl, by decide⟩
  · exact ⟨13, [10], by simp [commitOption], rfl, by decide⟩
  · exact ⟨32, ascii "--commit" ++ [10], by simp [commitOption, ascii], rfl,
      by decide⟩
  · exact ⟨32, ascii "--commit" ++ [13, 10], by simp [commitOption, ascii], rfl,
      by decide⟩

/-- The marker and the URL of a command contain no byte that ends a URL. -/
theorem OtaLine.key_plain (l : OtaLine) :
    ∀ b ∈ ascii "OTA:" ++ l.command.url, isTrailing b = false := by
  have hmarker : ∀ b ∈ ascii "OTA:", isTrailing b = false := by
    simp [ascii, isTrailing]
  intro b hb
  rcases List.mem_append.mp hb with hb | hb
  · exact hmarker b hb
  · exact l.plain b hb

theorem rdropWhile_append {α : Type*} {p : α → Bool} (front : List α)
    {back : List α} (h : ∀ x ∈ back, p x = true) :
    (front ++ back).rdropWhile p = front.rdropWhile p := by
  induction back using List.reverseRecOn with
  | nil => rw [List.append_nil]
  | append_singleton back x ih =>
      rw [← List.append_assoc, List.rdropWhile_concat_pos _ _ _ (h x (by simp))]
      exact ih (fun y hy => h y (List.mem_append_left _ hy))

/-- A segment that begins with the text of a line and ends within its end. -/
theorem otaCommand_line {l : OtaLine} {eol rest : List UInt8}
    (heol : eol ++ rest = l.eol) (hzero : (0 : UInt8) ∉ l.command.url) :
    otaCommand (l.command.text ++ eol) = some l.command := by
  have heollen : eol.length ≤ 2 := by
    have hle : (eol ++ rest).length ≤ 2 := by
      rw [heol, OtaLine.eol]
      split <;> decide
    rw [List.length_append] at hle
    omega
  have hoption : (commitOption l.command.autoCommit).length ≤ 9 := by
    cases l.command.autoCommit <;> decide
  have hlen : (l.command.text ++ eol).length =
      4 + l.command.url.length + (commitOption l.command.autoCommit).length +
        eol.length := by
    simp only [OtaCommand.text, List.length_append]
    rfl
  have hurl := List.length_pos_iff.mpr l.nonempty
  have hshort := l.short
  have hmarker : ascii "OTA:" <+: l.command.text ++ eol := by
    rw [OtaCommand.text, List.append_assoc, List.append_assoc]
    exact List.prefix_append _ _
  have hcmd : otaCmd (l.command.text ++ eol) = l.command.text := by
    have htake : min (l.command.text ++ eol).length (OTA_CMD_SIZE - 1) =
        (l.command.text ++ eol).length := by
      apply Nat.min_eq_left
      change _ ≤ 255
      omega
    obtain ⟨front, x, hconcat, hx⟩ := l.text_concat
    rw [otaCmd, htake, List.take_length, rdropWhile_append _
      (fun b hb => l.eol_trailing b (heol ▸ List.mem_append_left rest hb)),
      hconcat, List.rdropWhile_concat_neg _ _ _ (by simp [hx])]
  have hdrop : l.command.text.drop 4 =
      l.command.url ++ commitOption l.command.autoCommit := by
    rw [OtaCommand.text, List.append_assoc]
    rfl
  have hplain : ∀ b ∈ l.command.url, b ≠ 0 ∧ b ≠ 32 := by
    intro b hb
    refine ⟨fun h0 => hzero (h0 ▸ hb), fun h32 => ?_⟩
    have htrailing := l.plain b hb
    rw [h32] at htrailing
    cases htrailing
  rw [otaCommand, if_pos ⟨by omega, List.isPrefixOf_iff_prefix.mpr hmarker⟩, hcmd,
    hdrop]
  obtain ⟨⟨url, autoCommit⟩, cr, hne, hle, hpl⟩ := l
  cases autoCommit with
  | false =>
      simp only [commitOption, List.append_nil]
      rw [strchr_eq_none (fun b hb => (hplain b hb).2)]
      simp only [text_eq_self hzero]
  | true =>
      have hspace : commitOption true = 32 :: ascii "--commit" := rfl
      simp only [hspace]
      rw [strchr_append _ hplain]
      have hstreq : streq (ascii "--commit") (ascii "--commit") = true := by decide
      simp [hstreq]

/-- A command with the URL of a line cannot begin inside that line. -/
theorem not_command_inside {l : OtaLine} {front back rest data : List UInt8}
    (hbytes : front ++ back = l.bytes) (hfront : front ≠ []) (hback : back ≠ [])
    (hdata : data <+: back ++ rest) : otaCommand data ≠ some l.command := by
  intro h
  have hkey : ascii "OTA:" ++ l.command.url <+: back ++ rest := by
    refine List.IsPrefix.trans ?_ ((otaCommand_text h).1.trans hdata)
    exact List.prefix_append _ _
  obtain ⟨stop, tail, heq, hstop, hO⟩ := l.bytes_eq
  rw [heq, List.append_eq_append_iff] at hbytes
  rcases hbytes with ⟨mid, hmid, rfl⟩ | ⟨mid, -, htail⟩
  · -- the URL would have to reach over the byte that ends it
    have hlen : (mid ++ [stop]).length ≤ (ascii "OTA:" ++ l.command.url).length := by
      rw [hmid, List.length_append, List.length_append, List.length_singleton]
      have := List.length_pos_iff.mpr hfront
      omega
    have hmem : mid ++ [stop] <+: ascii "OTA:" ++ l.command.url := by
      refine List.prefix_of_prefix_length_le ?_ hkey hlen
      exact ⟨tail ++ rest, by simp⟩
    have hplain := l.key_plain stop (hmem.subset (by simp))
    rw [hstop] at hplain
    cases hplain
  · -- the marker would have to begin behind the URL
    cases back with
    | nil => exact hback rfl
    | cons b back =>
        obtain ⟨hb, -⟩ := List.cons_prefix_cons.mp hkey
        apply hO
        rw [htail, show (79 : UInt8) = b from hb]
        simp

/-! The commands of a whole stream. -/

/-- The remaining segments of a stream whose beginning is gone do not yield all
of its commands. -/
theorem commands_ne_of_suffix {lines : List OtaLine} {segments : List (List UInt8)}
    {gone : List UInt8} (hgone : gone ≠ [])
    (hflat : gone ++ segments.flatten = stream lines) :
    segments.filterMap otaCommand ≠ lines.map OtaLine.command := by
  induction lines generalizing segments gone with
  | nil => exact absurd (List.append_eq_nil_iff.mp hflat).1 hgone
  | cons l ls ih =>
      intro hcommands
      obtain ⟨before, data, after, rfl, -, hdata, hafter⟩ :=
        List.filterMap_eq_cons_iff.mp hcommands
      have hsplit : (gone ++ before.flatten) ++ (data ++ after.flatten) =
          l.bytes ++ stream ls := by
        rw [← stream_cons, ← hflat]
        simp
      have hne : data ≠ [] := by
        rintro rfl
        cases hdata
      rcases List.append_eq_append_iff.mp hsplit with ⟨mid, hbytes, hmid⟩ | ⟨mid, -, hmid⟩
      · cases mid with
        | nil => exact ih hne hmid hafter
        | cons b mid =>
            -- the segment that should yield the first command begins inside it
            have hbegins : data <+: (b :: mid) ++ stream ls := ⟨after.flatten, hmid⟩
            exact not_command_inside hbytes.symm
              (fun h => hgone (List.append_eq_nil_iff.mp h).1)
              (List.cons_ne_nil b mid) hbegins hdata
      · have hrest : (mid ++ data) ++ after.flatten = stream ls := by
          rw [hmid, List.append_assoc]
        exact ih (fun h => hne (List.append_eq_nil_iff.mp h).2) hrest hafter

theorem otaCommand_trailing {data : List UInt8} (hne : data ≠ [])
    (h : ∀ b ∈ data.head?, isTrailing b = true) : otaCommand data = none := by
  apply otaCommand_eq_none
  intro hmarker
  cases data with
  | nil => exact hne rfl
  | cons b data =>
      obtain ⟨rfl, -⟩ := List.cons_prefix_cons.mp hmarker
      exact absurd (h 79 rfl) (by decide)

/-- What is left of a line end comes in segments of its own. -/
theorem split_line_end {ls : List OtaLine} {segments : List (List UInt8)}
    {eol : List UInt8} (hne : ∀ d ∈ segments, d ≠ [])
    (htrailing : ∀ b ∈ eol, isTrailing b = true)
    (hflat : segments.flatten = eol ++ stream ls)
    (hcommands : segments.filterMap otaCommand = ls.map OtaLine.command) :
    ∃ pieces rest, segments = pieces ++ rest ∧ pieces.flatten = eol ∧
      rest.flatten = stream ls ∧
      rest.filterMap otaCommand = ls.map OtaLine.command := by
  induction segments generalizing eol with
  | nil =>
      obtain ⟨heol, hstream⟩ := List.append_eq_nil_iff.mp hflat.symm
      exact ⟨[], [], rfl, heol.symm, hstream.symm, hcommands⟩
  | cons d segments ih =>
      cases eol with
      | nil => exact ⟨[], d :: segments, rfl, rfl, hflat, hcommands⟩
      | cons b eol =>
          have hd : d ≠ [] := hne d List.mem_cons_self
          rw [List.flatten_cons] at hflat
          have hnone : otaCommand d = none := by
            apply otaCommand_trailing hd
            cases d with
            | nil => exact absurd rfl hd
            | cons x d =>
                obtain rfl : x = b := (List.cons.inj hflat).1
                rintro y ⟨⟩
                exact htrailing x List.mem_cons_self
          rw [List.filterMap_cons_none hnone] at hcommands
          rcases List.append_eq_append_iff.mp hflat with
              ⟨mid, heol, hmid⟩ | ⟨mid, hd, hmid⟩
          · obtain ⟨pieces, rest, rfl, hpieces, hrest⟩ :=
              ih (fun d' h => hne d' (List.mem_cons_of_mem _ h))
                (fun x hx => htrailing x (heol ▸ List.mem_append_right d hx)) hmid
                hcommands
            exact ⟨d :: pieces, rest, rfl, by rw [List.flatten_cons, hpieces, heol],
              hrest⟩
          · cases mid with
            | nil =>
                refine ⟨[d], segments, rfl, ?_, hmid.symm, hcommands⟩
                rw [List.flatten_singleton, hd, List.append_nil]
            | cons x mid =>
                exact absurd hcommands
                  (commands_ne_of_suffix (List.cons_ne_nil x mid) hmid.symm)

/-- Every command of a stream is obtained only if its lines are aligned. -/
theorem aligned_of_commands {lines : List OtaLine} {segments : List (List UInt8)}
    (hne : ∀ d ∈ segments, d ≠ []) (hflat : segments.flatten = stream lines)
    (hcommands : segments.filterMap otaCommand = lines.map OtaLine.command) :
    Aligned lines segments ∧ ∀ l ∈ lines, (0 : UInt8) ∉ l.command.url := by
  induction lines generalizing segments with
  | nil =>
      cases segments with
      | nil => exact ⟨.nil, by simp⟩
      | cons d segments =>
          exact absurd (List.append_eq_nil_iff.mp hflat).1 (hne d List.mem_cons_self)
  | cons l ls ih =>
      cases segments with
      | nil => exact absurd hcommands.symm (List.cons_ne_nil _ _)
      | cons d segments =>
          have hd : d ≠ [] := hne d List.mem_cons_self
          cases hdata : otaCommand d with
          | none =>
              rw [List.filterMap_cons_none hdata] at hcommands
              exact absurd hcommands (commands_ne_of_suffix hd hflat)
          | some c =>
              rw [List.filterMap_cons_some hdata] at hcommands
              obtain ⟨rfl, htail⟩ := List.cons.inj hcommands
              obtain ⟨⟨past, rfl⟩, hzero⟩ := otaCommand_text hdata
              rw [List.flatten_cons, stream_cons, OtaLine.bytes, List.append_assoc,
                List.append_assoc, List.append_right_inj] at hflat
              have hpast : ∃ mid, l.eol = past ++ mid ∧
                  segments.flatten = mid ++ stream ls := by
                rcases List.append_eq_append_iff.mp hflat with h | ⟨mid, hpast, hmid⟩
                · exact h
                · cases mid with
                  | nil => exact ⟨[], by simpa using hpast.symm, hmid.symm⟩
                  | cons x mid =>
                      exact absurd htail
                        (commands_ne_of_suffix (List.cons_ne_nil x mid) hmid.symm)
              obtain ⟨mid, heol, hmid⟩ := hpast
              obtain ⟨pieces, rest, rfl, rfl, hrest, hlines⟩ :=
                split_line_end (fun d' h => hne d' (List.mem_cons_of_mem _ h))
                  (fun x hx => l.eol_trailing x (heol ▸ List.mem_append_right past hx))
                  hmid htail
              obtain ⟨haligned, hplain⟩ := ih
                (fun d' h => hne d' (List.mem_cons_of_mem _
                  (List.mem_append_right pieces h))) hrest hlines
              exact ⟨.cons heol.symm haligned, List.forall_mem_cons.mpr ⟨hzero, hplain⟩⟩

theorem commands_of_aligned {lines : List OtaLine} {segments : List (List UInt8)}
    (h : Aligned lines segments) (hne : ∀ d ∈ segments, d ≠ [])
    (hzero : ∀ l ∈ lines, (0 : UInt8) ∉ l.command.url) :
    segments.filterMap otaCommand = lines.map OtaLine.command := by
  induction h with
  | nil => rfl
  | @cons l ls eol pieces segments heol _ ih =>
      have hpieces : pieces.filterMap otaCommand = [] := by
        rw [List.filterMap_eq_nil_iff]
        intro d hd
        apply otaCommand_trailing (hne d (by simp [hd]))
        intro b hb
        have hmem : b ∈ pieces.flatten :=
          List.mem_flatten.mpr ⟨d, hd, List.mem_of_mem_head? hb⟩
        exact l.eol_trailing b (heol ▸ List.mem_append_right eol hmem)
      obtain ⟨hl, hls⟩ := List.forall_mem_cons.mp hzero
      rw [List.filterMap_cons_some (otaCommand_line heol hl), List.filterMap_append,
        hpieces, List.nil_append, ih (fun d hd => hne d (by simp [hd])) hls,
        List.map_cons]

/-- What `zsock_recv` returned in turn: 1 to 512 bytes at a time. -/
structure Segmentation (lines : List OtaLine) where
  segments : List (Bool × List UInt8)
  nonempty : ∀ r ∈ segments, r.2 ≠ []
  fits : ∀ r ∈ segments, r.2.length ≤ 512
  whole : (segments.map Prod.snd).flatten = stream lines

/-- The commands are the lines just when every line begins a segment that ends
within its own end, and no URL contains a NUL. -/
theorem commands_eq_lines_iff (lines : List OtaLine) (cut : Segmentation lines) :
    tcpCommands cut.segments = lines.map OtaLine.command ↔
      Aligned lines (cut.segments.map Prod.snd) ∧
        ∀ l ∈ lines, (0 : UInt8) ∉ l.command.url := by
  have hne : ∀ d ∈ cut.segments.map Prod.snd, d ≠ [] :=
    List.forall_mem_map.mpr cut.nonempty
  rw [tcpCommands_eq]
  constructor
  · exact aligned_of_commands hne cut.whole
  · rintro ⟨haligned, hzero⟩
    exact commands_of_aligned haligned hne hzero

/-! A line cut inside its URL. -/

def firmwareLine : OtaLine where
  command := ⟨ascii "http://10.0.0.5/ab", false⟩
  cr := false
  nonempty := by decide
  short := by decide
  plain := by simp [ascii, isTrailing]

def cutInUrl : Segmentation [firmwareLine] where
  segments := [(false, ascii "OTA:http://10.0.0.5/a"), (true, ascii "b" ++ [10])]
  nonempty := by decide
  fits := by decide
  whole := by decide

/-- The first part of the URL is started as if it were the whole. -/
theorem truncated_url_started :
    (cutInUrl.segments.map fun r => tcpRxCb r.1 r.2) =
        [some (.start ⟨some (ascii "http://10.0.0.5/a"), none, false⟩), none] ∧
      tcpCommands cutInUrl.segments ≠ [firmwareLine].map OtaLine.command := by
  decide

end Rw612.Tcp
