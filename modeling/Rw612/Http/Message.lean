import Mathlib.Data.List.DropRight
import Rw612.Lib.CString

/-!
The texts of `app_ota_http.c`: URLs, the request that is sent, and the head of
the response. The head is parsed in place, in a receive buffer that still holds
older bytes behind the received ones.
-/

namespace Rw612.Http

open Lib.CString

def APP_OTA_HTTP_RX_CHUNK : Nat := 1024
def APP_OTA_HTTP_HEADER_MAX : Nat := 1024
def APP_OTA_HTTP_URL_MAX : Nat := 240
def APP_OTA_HTTP_MAX_REDIRECTS : Nat := 2
def APP_OTA_HTTP_SIGNED_HEADER_MAX : Nat := 512

/-- The bytes of a character string literal. -/
def ascii (s : String) : List UInt8 := s.toList.map (fun c => UInt8.ofNat c.toNat)

/-- `%u` -/
def decimal (n : UInt32) : List UInt8 :=
  (Nat.toDigits 10 n.toNat).map (fun c => UInt8.ofNat c.toNat)

def crlf : List UInt8 := [13, 10]

/-- `url_parts_t` -/
structure UrlParts where
  host : List UInt8
  path : List UInt8
  port : UInt16
  deriving DecidableEq, Repr

/-- The end of `parse_url`: the path, which is all that follows the host. -/
def parseUrlPath (host : List UInt8) (port : UInt16) (p : List UInt8) :
    Except Int UrlParts :=
  if deref p = 0 then .ok ⟨host, ascii "/", port⟩
  else if 160 ≤ strlen p then .error (-5)
  else .ok ⟨host, text p, port⟩

def parseUrl (url : List UInt8) : Except Int UrlParts :=
  if (ascii "http://").isPrefixOf url = false ∧ (ascii "https://").isPrefixOf url
    then .error (-2)
  else
    let p := if (ascii "http://").isPrefixOf url then url.drop 7 else url
    let slash := strchr 47 p
    let withoutPort :=
      let hlen := match slash with
        | some s => p.length - s.length
        | none => strlen p
      if hlen = 0 ∨ 64 ≤ hlen then .error (-3)
      else parseUrlPath (p.take hlen) 80 (slash.getD (p.drop hlen))
    match strchr 58 p with
    | none => withoutPort
    | some colon =>
        if (slash.map List.length).getD 0 < colon.length then
          let hlen := p.length - colon.length
          if hlen = 0 ∨ 64 ≤ hlen then .error (-3)
          else
            let port := strtol 10 (colon.drop 1)
            if port ≤ 0 ∨ 65535 < port then .error (-4)
            else
              parseUrlPath (p.take hlen) (UInt16.ofNat port.toNat)
                (slash.getD (colon.drop (strlen colon)))
        else withoutPort

/-- The request, without and with a `Range` header. -/
def requestText (u : UrlParts) (rangeFrom : UInt32) : List UInt8 :=
  ascii "GET " ++ u.path ++ ascii " HTTP/1.1\r\nHost: " ++ u.host ++
    ascii "\r\nUser-Agent: zcube/1\r\nConnection: close\r\nAccept: */*\r\n" ++
    (if 0 < rangeFrom then
      ascii "Range: bytes=" ++ decimal rangeFrom ++ ascii "-\r\n"
    else []) ++ crlf

/-- `http_response_t`; `location` is the string in the array. -/
structure HttpResponse where
  status : Int
  contentLength : UInt32
  hasContentLength : Bool
  rangeStart : UInt32
  rangeEnd : UInt32
  rangeTotal : UInt32
  hasContentRange : Bool
  location : List UInt8
  hasLocation : Bool
  isChunked : Bool
  deriving DecidableEq, Repr

def HttpResponse.zero : HttpResponse where
  status := 0
  contentLength := 0
  hasContentLength := false
  rangeStart := 0
  rangeEnd := 0
  rangeTotal := 0
  hasContentRange := false
  location := []
  hasLocation := false
  isChunked := false

def toLower (b : UInt8) : UInt8 := if 65 ≤ b ∧ b ≤ 90 then b + 32 else b

/-- `name` without regard to case, then a colon. -/
def hdrMatch (line name : List UInt8) : Bool :=
  (line.take name.length).map toLower == name.map toLower &&
    deref (line.drop name.length) == 58

def hdrValue (line : List UInt8) : Option (List UInt8) :=
  (strchr 58 line).map (fun v =>
    (v.drop 1).dropWhile (fun b => b == 32 || b == 9))

/-- `hdr_copy_line` into an array of `cap` bytes that holds `out`. -/
def hdrCopyLine (line lineEnd out : List UInt8) (cap : Nat) : List UInt8 :=
  match hdrValue line with
  | none => out
  | some v =>
      if v.length ≤ lineEnd.length then out
      else
        let value := (v.take (v.length - lineEnd.length)).rdropWhile
          (fun b => b == 13 || b == 10)
        value.take (cap - 1)

/-- `v` up to `nl` contains the word "chunked" in any case. -/
def hasChunked (nl : List UInt8) : List UInt8 → Bool
  | [] => false
  | b :: v =>
      if (b :: v).length ≤ nl.length then false
      else if nl.length + 7 ≤ (b :: v).length ∧
          ((b :: v).take 7).map toLower = ascii "chunked" then true
      else hasChunked nl v

/-- `Content-Range: bytes start-end/total` -/
def parseContentRange (v : List UInt8) (out : HttpResponse) : HttpResponse :=
  let v := if (ascii "bytes ").isPrefixOf v then v.drop 6 else v
  let v := if (ascii "bytes=").isPrefixOf v then v.drop 6 else v
  let (start, cur) := strtoul 10 v
  if deref cur = 45 then
    let (e2, cur) := strtoul 10 (cur.drop 1)
    let total := if deref cur = 47 then (strtoul 10 (cur.drop 1)).1 else 0
    {out with
      rangeStart := start
      rangeEnd := e2
      rangeTotal := total
      hasContentRange := true}
  else out

/-- What one header line, which ends at `nl`, adds to the response. -/
def parseHeaderLine (line nl : List UInt8) (out : HttpResponse) : HttpResponse :=
  if hdrMatch line (ascii "content-length") then
    match hdrValue line with
    | none => out
    | some v =>
        {out with contentLength := (strtoul 10 v).1, hasContentLength := true}
  else if hdrMatch line (ascii "content-range") then
    match hdrValue line with
    | none => out
    | some v => parseContentRange v out
  else if hdrMatch line (ascii "location") then
    let location := hdrCopyLine line nl out.location (APP_OTA_HTTP_URL_MAX + 1)
    {out with location := location, hasLocation := decide (deref location ≠ 0)}
  else if hdrMatch line (ascii "transfer-encoding") then
    match hdrValue line with
    | none => out
    | some v => if hasChunked nl v then {out with isChunked := true} else out
  else out

/-- The loop over the lines before `end - 2`. -/
def parseHeaderLines (hdrEnd line : List UInt8) (out : HttpResponse) :
    HttpResponse :=
  if hdrEnd.length + 2 < line.length then
    match _hnl : strstr crlf line with
    | none => out
    | some nl => parseHeaderLines hdrEnd (nl.drop 2) (parseHeaderLine line nl out)
  else out
  termination_by line.length
  decreasing_by
    have hle := strstr_length_le _hnl
    rw [List.length_drop]
    omega

/-- The end of the header section within the first `bufLen` bytes. -/
def findHdrEnd : (bufLen : Nat) → List UInt8 → Option (List UInt8)
  | _ + 4, 13 :: 10 :: 13 :: 10 :: rest => some rest
  | n + 1, _ :: buf => findHdrEnd n buf
  | _, _ => none

/-- `parse_response_headers` on a buffer whose first `bufLen` bytes have been
received: the length of the head, or its error code. -/
def parseResponseHeaders (buf : List UInt8) (bufLen : Nat) :
    Except Int (Nat × HttpResponse) :=
  match findHdrEnd bufLen buf with
  | none => .error (-1)
  | some hdrEnd =>
      if (ascii "HTTP/1.").isPrefixOf buf = false then .error (-2)
      else
        match strchr 32 buf with
        | none => .error (-3)
        | some sp1 =>
            match strstr crlf buf with
            | none => .error (-4)
            | some line =>
                .ok (buf.length - hdrEnd.length,
                  parseHeaderLines hdrEnd (line.drop 2)
                    {HttpResponse.zero with status := strtol 10 (sp1.drop 1)})

def isRedirect (status : Int) : Bool :=
  status == 301 || status == 302 || status == 303 || status == 307 ||
    status == 308

end Rw612.Http
