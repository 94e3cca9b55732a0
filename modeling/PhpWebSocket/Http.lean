import PhpWebSocket.Env

/-! # The HTTP upgrade request

`websocket_http.c`: the parser of the opening request, the headers a handshake
callback sees, and the two kinds of response text. A pointer into the buffer is the
list from there on. `strncasecmp` compares letters of the C locale without case, and
`%s` stops at a NUL.
-/

namespace PhpWebSocket

/-- The octets of an ASCII text. -/
def ascii (text : String) : Bytes := text.toUTF8.data.toList

def crlf : Bytes := [0x0d, 0x0a]

/-- `tolower` in the C locale. -/
def toLower (c : UInt8) : UInt8 := if 0x41 ≤ c && c ≤ 0x5a then c + 0x20 else c

/-- What `%s` prints of a string. -/
def cString (s : Bytes) : Bytes := s.takeWhile (· ≠ 0)

/-- `memchr`: the offset of the first `c`. -/
def memchr (c : UInt8) : Bytes → Option Nat
  | [] => none
  | b :: rest => if b = c then some 0 else (memchr c rest).map (· + 1)

/-- `websocket_http_find_header_end`: the offset of the first CRLFCRLF. -/
def findHeaderEnd : Bytes → Option Nat
  | [] => none
  | b :: rest =>
      if (b :: rest).take 4 = crlf ++ crlf then some 0 else (findHeaderEnd rest).map (· + 1)

def isBlank (c : UInt8) : Bool := c = 0x20 || c = 0x09

/-- `websocket_http_trim`. -/
def trim (value : Bytes) : Bytes :=
  ((value.dropWhile isBlank).reverse.dropWhile isBlank).reverse

/-- `websocket_http_equals_ci`. -/
def equalsCi (value expected : Bytes) : Bool := value.map toLower = expected.map toLower

/-- The parts between the commas of a value. -/
def commaParts : Bytes → List Bytes
  | [] => [[]]
  | b :: rest =>
      if b = 0x2c then [] :: commaParts rest
      else
        match commaParts rest with
        | [] => [[b]]
        | part :: parts => (b :: part) :: parts

/-- `websocket_http_header_contains_token`. -/
def headerContainsToken (value token : Bytes) : Bool :=
  (commaParts value).any fun part => equalsCi (trim part) token

/-- The separators that `websocket_http_validate_subprotocol_token` refuses. -/
def isSeparator (c : UInt8) : Bool := c ∈ ascii "()<>@,;:\\\"/[]?=\x7b\x7d"

/-- `websocket_http_validate_subprotocol_token`. -/
def validateSubprotocolToken (value : Bytes) : Bool :=
  value ≠ [] && value.all fun ch => !(ch ≤ 32 || ch ≥ 127) && !isSeparator ch

/-- `websocket_http_select_subprotocol`: `none` if an offered token is invalid, else
    the selection, which an earlier header may already have made. -/
def selectSubprotocol (supported : List Bytes) : List Bytes → Option Bytes → Option (Option Bytes)
  | [], selected => some selected
  | part :: parts, selected =>
      let token := trim part
      if !validateSubprotocolToken token then none
      else
        let selected :=
          if selected.isNone && supported ≠ [] && token ∈ supported then some token else selected
        selectSubprotocol supported parts selected

structure HttpHeader where
  name : Bytes
  value : Bytes
  deriving Repr, DecidableEq

/-- `websocket_http_upgrade`, as `websocket_http_parse_upgrade` fills it. -/
structure HttpUpgrade where
  method : Bytes := []
  target : Bytes := []
  headers : List HttpHeader := []
  acceptKey : Option Bytes := none
  selectedSubprotocol : Option Bytes := none
  bytesConsumed : Nat := 0
  deriving Repr, DecidableEq

inductive UpgradeResult where
  | incomplete
  | ok (upgrade : HttpUpgrade)
  | invalid
  deriving Repr, DecidableEq

/-- `websocket_http_parse_request_line`: the method and the target. -/
def parseRequestLine (line : Bytes) : Option (Bytes × Bytes) :=
  match memchr 0x20 line with
  | none => none
  | some methodLen =>
      if !equalsCi (line.take methodLen) (ascii "GET") then none
      else
        let targetStart := line.drop (methodLen + 1)
        match memchr 0x20 targetStart with
        | none => none
        | some targetLen =>
            if targetLen = 0 then none
            else if !equalsCi (targetStart.drop (targetLen + 1)) (ascii "HTTP/1.1") then none
            else some (line.take methodLen, targetStart.take targetLen)

/-- `websocket_protocol_accept_key`. -/
def acceptKeyOf (lib : PhpLib) (key : Bytes) : Bytes :=
  lib.base64Encode (lib.sha1 (key ++ ascii "258EAFA5-E914-47DA-95CA-C5AB0DC85B11"))

/-- `websocket_http_validate_key`. -/
def validateKey (lib : PhpLib) (value : Bytes) : Option Bytes :=
  match lib.base64DecodeStrict value with
  | none => none
  | some decoded => if decoded.length ≠ 16 then none else some (acceptKeyOf lib value)

/-- What the loop over the header lines has found so far. -/
structure HeaderScan where
  upgrade : HttpUpgrade
  hasUpgrade : Bool := false
  hasConnection : Bool := false
  hasVersion : Bool := false
  deriving Repr, DecidableEq

/-- The body of the loop for one header line: `none` where the source returns
    `WEBSOCKET_HTTP_UPGRADE_INVALID`. -/
def scanHeader (lib : PhpLib) (supported : List Bytes) (name value : Bytes) (scan : HeaderScan) :
    Option HeaderScan :=
  let scan := { scan with
    upgrade := { scan.upgrade with headers := scan.upgrade.headers ++ [⟨name, value⟩] } }
  if equalsCi name (ascii "Upgrade") then
    some { scan with hasUpgrade := headerContainsToken value (ascii "websocket") }
  else if equalsCi name (ascii "Connection") then
    some { scan with hasConnection := headerContainsToken value (ascii "upgrade") }
  else if equalsCi name (ascii "Sec-WebSocket-Version") then
    some { scan with hasVersion := equalsCi value (ascii "13") }
  else if equalsCi name (ascii "Sec-WebSocket-Key") then
    if scan.upgrade.acceptKey.isSome then none
    else
      match validateKey lib value with
      | none => none
      | some key => some { scan with upgrade := { scan.upgrade with acceptKey := some key } }
  else if equalsCi name (ascii "Sec-WebSocket-Protocol") then
    match selectSubprotocol supported (commaParts value) scan.upgrade.selectedSubprotocol with
    | none => none
    | some selected =>
        some { scan with upgrade := { scan.upgrade with selectedSubprotocol := selected } }
  else some scan

/-- The loop over the header lines. `line` is the buffer from the line's start on, and
    `remaining` is how far `header_end` is; each round moves past a CRLF, so the fuel
    `remaining` is enough. -/
def scanHeaders (lib : PhpLib) (supported : List Bytes) :
    Nat → Bytes → Nat → HeaderScan → Option HeaderScan
  | 0, _, _, scan => some scan
  | fuel + 1, line, remaining, scan =>
      if remaining = 0 then some scan
      else
        match memchr 0x0d (line.take (remaining + 1)) with
        | none => none
        | some lineLen =>
            if line.getD (lineLen + 1) 0 ≠ 0x0a then none
            else if lineLen = 0 then some scan
            else
              match memchr 0x3a (line.take lineLen) with
              | none => none
              | some nameLen =>
                  let name := trim (line.take nameLen)
                  let value := trim ((line.take lineLen).drop (nameLen + 1))
                  match scanHeader lib supported name value scan with
                  | none => none
                  | some scan =>
                      scanHeaders lib supported fuel (line.drop (lineLen + 2))
                        (remaining - (lineLen + 2)) scan

/-- `websocket_http_parse_upgrade`. -/
def parseUpgrade (lib : PhpLib) (supported : List Bytes) (buffer : Bytes) : UpgradeResult :=
  if buffer.length > httpMaxRequestSize then .invalid
  else
    match findHeaderEnd buffer with
    | none => .incomplete
    | some headerEnd =>
        match memchr 0x0d (buffer.take headerEnd) with
        | none => .invalid
        | some requestLineEnd =>
            if buffer.getD (requestLineEnd + 1) 0 ≠ 0x0a then .invalid
            else
              match parseRequestLine (buffer.take requestLineEnd) with
              | none => .invalid
              | some (method, target) =>
                  let start := requestLineEnd + 2
                  let upgrade : HttpUpgrade := { method, target, bytesConsumed := headerEnd + 4 }
                  match scanHeaders lib supported headerEnd (buffer.drop start) (headerEnd - start)
                      { upgrade } with
                  | none => .invalid
                  | some scan =>
                      if !scan.hasUpgrade || !scan.hasConnection || !scan.hasVersion ||
                          scan.upgrade.acceptKey.isNone then .invalid
                      else .ok scan.upgrade

/-- `zend_hash_update` on an ordered map. -/
def hashUpdate (map : List (Bytes × Bytes)) (key value : Bytes) : List (Bytes × Bytes) :=
  if map.any (·.1 = key) then map.map fun entry => if entry.1 = key then (key, value) else entry
  else map ++ [(key, value)]

/-- `websocket_http_upgrade_request_headers`: lower-case names, and the values of a
    repeated name joined, as C strings. -/
def requestHeaders (headers : List HttpHeader) : List (Bytes × Bytes) :=
  headers.foldl (fun map header =>
    let lowerName := header.name.map toLower
    match map.find? (·.1 = lowerName) with
    | some existing =>
        hashUpdate map lowerName (cString existing.2 ++ ascii ", " ++ cString header.value)
    | none => hashUpdate map lowerName header.value) []

/-- `websocket_http_upgrade_response`. -/
def upgradeResponse (acceptKey : Bytes) (selectedSubprotocol : Option Bytes) : Bytes :=
  ascii "HTTP/1.1 101 Switching Protocols\r\nUpgrade: websocket\r\nConnection: Upgrade\r\n" ++
    ascii "Sec-WebSocket-Accept: " ++ cString acceptKey ++ crlf ++
    (match selectedSubprotocol with
      | some protocol => ascii "Sec-WebSocket-Protocol: " ++ cString protocol ++ crlf
      | none => []) ++ crlf

def badRequestResponse : Bytes :=
  ascii "HTTP/1.1 400 Bad Request\r\nConnection: close\r\nContent-Length: 0\r\n\r\n"

def serviceUnavailableResponse : Bytes :=
  ascii "HTTP/1.1 503 Service Unavailable\r\nConnection: close\r\nContent-Length: 0\r\n\r\n"

def forbiddenResponse : Bytes :=
  ascii "HTTP/1.1 403 Forbidden\r\nConnection: close\r\nContent-Length: 0\r\n\r\n"

/-- `websocket_http_reason_phrase`. -/
def reasonPhrase (status : Int) : String :=
  if status = 200 then "OK"
  else if status = 400 then "Bad Request"
  else if status = 401 then "Unauthorized"
  else if status = 403 then "Forbidden"
  else if status = 404 then "Not Found"
  else if status = 429 then "Too Many Requests"
  else if status = 500 then "Internal Server Error"
  else if status = 503 then "Service Unavailable"
  else "Rejected"

/-- The text `websocket_server_send_handshake_response` builds. -/
def handshakeResponseText (response : HandshakeResponse) : Bytes :=
  let has (name : String) := response.headers.any fun header => equalsCi header.1 (ascii name)
  ascii ("HTTP/1.1 " ++ toString response.status ++ " " ++ reasonPhrase response.status) ++ crlf ++
    (response.headers.flatMap fun header => header.1 ++ ascii ": " ++ header.2 ++ crlf) ++
    (if has "Connection" then [] else ascii "Connection: close" ++ crlf) ++
    (if has "Content-Length" then []
      else ascii ("Content-Length: " ++ toString response.body.length) ++ crlf) ++
    crlf ++ response.body

/-- The key that the tests send. -/
def sampleKey : Bytes := ascii "dGhlIHNhbXBsZSBub25jZQ=="

/-- The library functions as they act on `sampleKey`. -/
def sampleLib : PhpLib where
  base64DecodeStrict value := if value = sampleKey then some (ascii "the sample nonce") else none
  sha1 input :=
    if input = sampleKey ++ ascii "258EAFA5-E914-47DA-95CA-C5AB0DC85B11" then
      [0xb3, 0x7a, 0x4f, 0x2c, 0xc0, 0x62, 0x4f, 0x16, 0x90, 0xf6, 0x46, 0x06, 0xcf, 0x38, 0x59,
        0x45, 0xb2, 0xbe, 0xc4, 0xea]
    else []
  base64Encode input :=
    if input.take 2 = [0xb3, 0x7a] then ascii "s3pPLMBiTxaQ9kYGzzhZRbK+xOo=" else []
  strerror _ := "Unknown error"

example : acceptKeyOf sampleLib sampleKey = ascii "s3pPLMBiTxaQ9kYGzzhZRbK+xOo=" := by
  decide +kernel

/-- A request that the server upgrades. -/
def sampleRequest : Bytes :=
  ascii "GET /chat HTTP/1.1\r\nHost: localhost\r\nUpgrade: websocket\r\nConnection: Upgrade\r\n" ++
    ascii "Sec-WebSocket-Version: 13\r\nSec-WebSocket-Key: " ++ sampleKey ++ crlf ++ crlf

def sampleRequestChunk : Chunk := ⟨sampleRequest, by decide +kernel, by decide +kernel⟩

end PhpWebSocket
