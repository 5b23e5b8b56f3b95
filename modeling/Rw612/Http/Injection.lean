import Rw612.Lib.Request
import Rw612.Http.Task
import Rw612.Http.Url

/-!
What a server reads in the bytes that `http_request_once` sends. The path of the
URL is copied into the request line as it is; no function on the way looks at its
characters.
-/

namespace Rw612.Http

open Lib Lib.CString Ota

/-- Only digits and dots make a numeric IPv4 address. -/
def Board.Numeric (b : Board) : Prop :=
  ∀ host, b.inetPton host = true → ∀ c ∈ host, isDigit 10 c = true ∨ c = 46

/-- The request for `u` that is meant. -/
def plainRequest (u : UrlParts) (rangeFrom : UInt32) : LineRequest where
  method := ascii "GET"
  target := u.path
  version := ascii "HTTP/1.1"
  fields :=
    [(ascii "Host", u.host), (ascii "User-Agent", ascii "zcube/1"),
      (ascii "Connection", ascii "close"), (ascii "Accept", ascii "*/*")] ++
    if 0 < rangeFrom then [(ascii "Range", ascii "bytes=" ++ decimal rangeFrom ++ ascii "-")]
    else []

/-- What a URL has behind its scheme from the first slash on. -/
def urlPath (url : List UInt8) : List UInt8 := (afterScheme url).dropWhile (· != 47)

theorem requestText_eq (u : UrlParts) (rangeFrom : UInt32) :
    requestText u rangeFrom = (plainRequest u rangeFrom).text := by
  have hget : ascii "GET " = ascii "GET" ++ [32] := by decide
  have hhost : ascii " HTTP/1.1\r\nHost: " =
      32 :: (ascii "HTTP/1.1" ++ 13 :: 10 :: (ascii "Host" ++ [58, 32])) := by decide
  have hfixed : ascii "\r\nUser-Agent: zcube/1\r\nConnection: close\r\nAccept: */*\r\n" =
      13 :: 10 :: (ascii "User-Agent" ++ 58 :: 32 :: (ascii "zcube/1" ++ 13 :: 10 ::
        (ascii "Connection" ++ 58 :: 32 :: (ascii "close" ++ 13 :: 10 ::
          (ascii "Accept" ++ 58 :: 32 :: (ascii "*/*" ++ [13, 10])))))) := by decide
  have hbytes : ascii "Range: bytes=" = ascii "Range" ++ 58 :: 32 :: ascii "bytes=" := by decide
  have hdash : ascii "-\r\n" = ascii "-" ++ [13, 10] := by decide
  rw [requestText, hget, hhost, hfixed, hbytes, hdash]
  by_cases hrange : 0 < rangeFrom
  · simp [plainRequest, LineRequest.text, fieldText, hrange, crlf]
  · simp [plainRequest, LineRequest.text, fieldText, hrange, crlf]

theorem decimal_digit (n : UInt32) : ∀ c ∈ decimal n, isDigit 10 c = true := by
  have hcases : ∀ m < 58, 48 ≤ m → isDigit 10 (UInt8.ofNat m) = true := by decide
  intro c hc
  obtain ⟨d, hd, rfl⟩ := List.mem_map.mp hc
  have hdigit := Nat.isDigit_of_mem_toDigits (by decide) (by decide) hd
  simp only [Char.isDigit, Bool.and_eq_true, decide_eq_true_eq] at hdigit
  have hlow : 48 ≤ d.toNat := UInt32.le_iff_toNat_le.mp hdigit.1
  have hhigh : d.toNat ≤ 57 := UInt32.le_iff_toNat_le.mp hdigit.2
  exact hcases d.toNat (by omega) hlow

theorem digit_or_dot {c : UInt8} (h : isDigit 10 c = true ∨ c = 46) : c ≠ 13 ∧ c ≠ 10 := by
  rcases h with hdigit | rfl
  · apply And.intro
    · rintro rfl
      exact absurd hdigit (by decide)
    · rintro rfl
      exact absurd hdigit (by decide)
  · decide

theorem hostField_ok {host : List UInt8} (h : ∀ c ∈ host, isDigit 10 c = true ∨ c = 46) :
    FieldOk (ascii "Host", host) where
  named := List.cons_ne_nil _ _
  name := by
    change Unbroken (ascii "Host")
    decide
  noColon := by
    change 58 ∉ ascii "Host"
    decide
  value := fun c hc => digit_or_dot (h c hc)
  trimmed := by
    cases host with
    | nil => rfl
    | cons c host =>
        apply List.dropWhile_cons_of_neg
        intro hblank
        rcases h c List.mem_cons_self with hdigit | rfl
        · rcases Bool.or_eq_true_iff.mp hblank with hsp | htab
          · rw [beq_iff_eq.mp hsp] at hdigit
            exact absurd hdigit (by decide)
          · rw [beq_iff_eq.mp htab] at hdigit
            exact absurd hdigit (by decide)
        · exact absurd hblank (by decide)

theorem rangeField_ok (rangeFrom : UInt32) :
    FieldOk (ascii "Range", ascii "bytes=" ++ decimal rangeFrom ++ ascii "-") where
  named := List.cons_ne_nil _ _
  name := by
    change Unbroken (ascii "Range")
    decide
  noColon := by
    change 58 ∉ ascii "Range"
    decide
  value := by
    have hname : Inline (ascii "bytes=") := by decide
    have hend : Inline (ascii "-") := by decide
    have hdigits : Inline (decimal rangeFrom) :=
      fun c hc => digit_or_dot (Or.inl (decimal_digit rangeFrom c hc))
    exact (hname.append hdigits).append hend
  trimmed := rfl

theorem plainRequest_ok {u : UrlParts} (hhost : ∀ c ∈ u.host, isDigit 10 c = true ∨ c = 46)
    (hne : u.path ≠ []) (hpath : Unbroken u.path) (rangeFrom : UInt32) :
    (plainRequest u rangeFrom).Ok where
  method := by
    change ascii "GET" ≠ [] ∧ Unbroken (ascii "GET")
    decide
  target := And.intro hne hpath
  version := by
    change ascii "HTTP/1.1" ≠ [] ∧ Unbroken (ascii "HTTP/1.1")
    decide
  fields := by
    have hfixed : FieldOk (ascii "User-Agent", ascii "zcube/1") ∧
        FieldOk (ascii "Connection", ascii "close") ∧ FieldOk (ascii "Accept", ascii "*/*") := by
      decide
    intro field hfield
    rcases List.mem_append.mp hfield with hin | hin
    · simp only [List.mem_cons, List.not_mem_nil, or_false] at hin
      rcases hin with rfl | rfl | rfl | rfl
      · exact hostField_ok hhost
      · exact hfixed.1
      · exact hfixed.2.1
      · exact hfixed.2.2
    · split at hin
      · rw [List.mem_singleton.mp hin]
        exact rangeField_ok rangeFrom
      · cases hin

/-- What has been sent once `http_request_once` waits for the answer. -/
theorem openRequest_sent {b : Board} {w w' : World} {url : List UInt8} {rangeFrom : UInt32}
    {recvs : List (List UInt8)} (h : openRequest b w url rangeFrom = (w', .ok recvs)) :
    ∃ u, parseUrl url = .ok u ∧ b.inetPton u.host = true ∧
      w'.sent = w.sent ++ [requestText u rangeFrom] := by
  unfold openRequest at h
  cases hurl : parseUrl url with
  | error rc =>
      rw [hurl] at h
      cases h
  | ok u =>
      exists u
      apply And.intro rfl
      simp only [hurl] at h
      split at h
      case isTrue => cases h
      case isFalse hhost =>
          apply And.intro (Bool.not_eq_false _ ▸ hhost)
          cases hconns : w.conns with
          | nil =>
              simp only [hconns] at h
              cases h
          | cons conn conns =>
              simp only [hconns] at h
              split at h
              · cases h
              split at h
              · cases h
              split at h
              · cases h
              split at h
              · cases h
              · cases h
                rfl

theorem parsed_path {url : List UInt8} (hnul : 0 ∉ url) {u : UrlParts}
    (h : parseUrl url = .ok u) : PathField (urlPath url) u.path := by
  obtain ⟨-, scheme, port, path, hscheme, hurl, hhost, hport, hpath⟩ :=
    (parseUrl_ok_iff hnul u).mp h
  have hfields := hhost.fields hport hpath
  have hafter := hfields.scheme_dropped hport.starts.2.2 hscheme
  rw [← hurl] at hafter
  have hfront : ∀ c ∈ u.host ++ port, (c != 47) = true := by
    intro c hc
    rw [bne_iff_ne]
    rcases List.mem_append.mp hc with hin | hin
    · exact (hfields.hostFree c hin).1
    · exact hfields.portFree c hin
  have hdrop : urlPath url = path := by
    rw [urlPath, hafter, ← List.append_assoc, List.dropWhile_append_of_pos hfront]
    rcases hfields.slash with rfl | ⟨rest, rfl⟩
    · rfl
    · rfl
  rw [hdrop]
  exact hpath

theorem PathField.unbroken_iff {path upath : List UInt8} (h : PathField path upath) :
    upath ≠ [] ∧ (Unbroken upath ↔ Unbroken path) := by
  cases h with
  | absent =>
      have hroot : Unbroken (ascii "/") ∧ Unbroken [] := by decide
      apply And.intro (List.cons_ne_nil _ _)
      exact iff_of_true hroot.1 hroot.2
  | given => exact And.intro (List.cons_ne_nil _ _) Iff.rfl

/-- The server reads the request that is meant, and nothing behind it, unless
the path of the URL holds a CR, an LF or a blank. -/
theorem request_parses_iff {b : Board} (hb : b.Numeric) {url : List UInt8} (hnul : 0 ∉ url)
    {w w' : World} {rangeFrom : UInt32} {recvs : List (List UInt8)}
    (hopen : openRequest b w url rangeFrom = (w', .ok recvs)) :
    (∃ u request, parseUrl url = .ok u ∧ w'.sent = w.sent ++ [request] ∧
      readRequest request = some (plainRequest u rangeFrom, [])) ↔ Unbroken (urlPath url) := by
  obtain ⟨u, hurl, hnumeric, hsent⟩ := openRequest_sent hopen
  obtain ⟨hne, hpath⟩ := (parsed_path hnul hurl).unbroken_iff
  rw [← hpath]
  apply Iff.intro
  · rintro ⟨u', request, hurl', hsent', hread⟩
    rw [hurl] at hurl'
    cases hurl'
    exact readRequest_target hread
  · intro hplain
    exists u, requestText u rangeFrom
    apply And.intro hurl
    apply And.intro hsent
    have hread := (plainRequest_ok (hb u.host hnumeric) hne hplain rangeFrom).read []
    rw [List.append_nil] at hread
    rw [requestText_eq]
    exact hread

/-- Hosts of digits and dots. -/
def dottedBoard : Board := ⟨⟨8⟩, fun host => host.all fun c => isDigit 10 c || c == 46⟩

theorem dottedBoard_numeric : dottedBoard.Numeric := by
  intro host hhost c hc
  have hbyte := List.all_eq_true.mp hhost c hc
  simpa using hbyte

/-- A connection that takes a request of `n` bytes at once. -/
def listening (n : Nat) : World := World.start (Sys.powerUp .blank) [] [⟨0, 0, [n], []⟩]

theorem openRequest_listening (b : Board) (rangeFrom : UInt32) {url : List UInt8} {u : UrlParts}
    (hurl : parseUrl url = .ok u) (hhost : b.inetPton u.host = true)
    (hshort : (requestText u rangeFrom).length < APP_OTA_HTTP_HEADER_MAX) :
    ∃ w', openRequest b (listening (requestText u rangeFrom).length) url rangeFrom =
      (w', .ok []) ∧ w'.sent = [requestText u rangeFrom] := by
  have hsend : sendAll [((requestText u rangeFrom).length : Int)]
      (requestText u rangeFrom).length = true := by
    cases hlen : (requestText u rangeFrom).length with
    | zero => rfl
    | succ n =>
        rw [sendAll, if_neg (by omega), Int.toNat_natCast, Nat.sub_self, sendAll]
        simp
  have hnumeric : ¬b.inetPton u.host = false := by
    rw [hhost]
    decide
  simp only [openRequest, hurl, if_neg hnumeric, listening, World.start]
  rw [if_neg (by decide), if_neg (by decide), if_neg (Nat.not_le_of_lt hshort),
    if_neg (by rw [hsend]; decide)]
  exact ⟨_, rfl, rfl⟩

theorem plain_url_request :
    ∃ w w', openRequest dottedBoard w (ascii "http://10.0.0.1/a") 0 = (w', .ok []) ∧
      ((∃ u request, parseUrl (ascii "http://10.0.0.1/a") = .ok u ∧
        w'.sent = w.sent ++ [request] ∧
        readRequest request = some (plainRequest u 0, [])) ↔
      Unbroken (urlPath (ascii "http://10.0.0.1/a"))) := by
  have hurl : parseUrl (ascii "http://10.0.0.1/a") = .ok ⟨ascii "10.0.0.1", ascii "/a", 80⟩ := by
    decide +kernel
  obtain ⟨w', hopen, -⟩ := openRequest_listening dottedBoard 0 hurl (by decide)
    (by decide +kernel)
  exact ⟨_, w', hopen, request_parses_iff dottedBoard_numeric (by decide) hopen⟩

def injectingUrl : List UInt8 := ascii "http://10.0.0.1/a HTTP/1.1\r\nX: y"

/-- The rest of the request line becomes a field of the request. -/
theorem field_injected :
    (appOtaHttpStart dottedBoard {listening 0 with running := false} 1 true
      (some ⟨some injectingUrl, none, true⟩)).2 = 0 ∧
    ∃ w w' u request, openRequest dottedBoard w injectingUrl 0 = (w', .ok []) ∧
      parseUrl injectingUrl = .ok u ∧ w'.sent = w.sent ++ [request] ∧
      readRequest request ≠ some (plainRequest u 0, []) ∧
      ∃ r, readRequest request = some (r, []) ∧ (ascii "X", ascii "y HTTP/1.1") ∈ r.fields := by
  apply And.intro
  · decide +kernel
  have hurl : parseUrl injectingUrl =
      .ok ⟨ascii "10.0.0.1", ascii "/a HTTP/1.1\r\nX: y", 80⟩ := by decide +kernel
  obtain ⟨w', hopen, hsent⟩ := openRequest_listening dottedBoard 0 hurl (by decide)
    (by decide +kernel)
  have hread : readRequest (requestText
      ⟨ascii "10.0.0.1", ascii "/a HTTP/1.1\r\nX: y", 80⟩ 0) =
      some (⟨ascii "GET", ascii "/a", ascii "HTTP/1.1",
        (ascii "X", ascii "y HTTP/1.1") :: (plainRequest
          ⟨ascii "10.0.0.1", ascii "/a HTTP/1.1\r\nX: y", 80⟩ 0).fields⟩, []) := by
    decide +kernel
  refine ⟨_, w', _, _, hopen, hurl, hsent, ?_, _, hread, List.mem_cons_self⟩
  rw [hread]
  decide

end Rw612.Http
