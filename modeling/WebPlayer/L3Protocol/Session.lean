import WebPlayer.Core.Search
import WebPlayer.L1Encoding.WebSocketFrame

/-!
# The WebSocket session (`server/main.cpp:203-376`, `server/websocket.cpp`)

What `HandleData` does to one connection record, as a function: the record
afterwards and what it put out, in order. An `Out` is a frame dispatched, a
state assigned, a message handed to `SendData`, or a call of
`TlsServer::CloseConnection`. Neither call reads or writes the record.

Strings are byte strings.

**The surroundings (`Env`, a parameter).**
* mbedtls's SHA-1 and Base64 are any functions, and do not fail.
* The media are set up, the frame rate is there in `%.2f` form, and neither
  changes while the server runs.

**The clock.** `now` is any reading of the steady clock.
-/
namespace WebPlayer.L3.Session
open WebPlayer.Core WebPlayer.L1.WebSocket

/-! ## Types -/

/-- mirrors server/connection.h:15-22; no code assigns `HANDSHAKING_TLS`. -/
inductive ConnState where
  | handshakingTls | handshakingWs | connected | negotiating | streaming | closing
  deriving DecidableEq, Repr

/-- mirrors server/connection.h:36-47; the address and the connect time are
only printed. Times are nanoseconds of the steady clock. The counters have 64
bits there and grow by the messages, bytes, packets and units of one
connection: at a gigabyte a second `bytesSent` wraps in its 584th year, and
the others behind it. -/
structure Connection where
  fd : Int
  id : Nat
  state : ConnState := .handshakingWs
  messagesSent : Nat := 0
  bytesSent : Nat := 0
  auIndex : Nat := 0
  packetIndex : Nat := 0
  playbackTimeMs : Nat := 0
  recvBuffer : Bytes := []
  negotiateOfferTime : Int := 0
  deriving DecidableEq, Repr

/-- mirrors server/mp4_demuxer.h:28-33 -/
structure AudioInfo where
  codecName : Bytes
  sampleRate : Int
  channels : Int
  present : Bool

/-- What the session reads of the server: the libraries and the media set-up. -/
structure Env where
  sha1 : Bytes → Bytes
  base64Encode : Bytes → Bytes
  isH265 : Bool
  isMp4Mode : Bool
  framerate : Bytes
  audio : AudioInfo

/-- The data of a `SendData`: the upgrade response or a WebSocket frame. -/
inductive Msg where
  | response (text : Bytes)
  | frame (opcode : WsOpcode) (payload : Bytes)
  deriving DecidableEq, Repr

def Msg.bytes : Msg → Bytes
  | .response text => text
  | .frame opcode payload => encodeFrame opcode payload

inductive Out where
  | dispatch (opcode : WsOpcode) (payload : Bytes)
  | setState (state : ConnState)
  | send (msg : Msg)
  | close
  deriving DecidableEq, Repr

/-- `CreateCloseFrame` as a message. -/
def closeMsg (code : UInt16) (reason : String) : Msg := .frame .close (beBytes 2 code.toNat ++ ascii reason)

theorem closeMsg_bytes (code : UInt16) (reason : String) : (closeMsg code reason).bytes = createCloseFrame code (ascii reason) := rfl

/-- What answers a ping is `CreatePongFrame`. -/
theorem pong_bytes (payload : Bytes) : (Msg.frame .pong payload).bytes = createPongFrame payload := rfl

/-! ## The upgrade request -/

def crlf : Bytes := [13, 10]

def crlfcrlf : Bytes := [13, 10, 13, 10]

/-- mirrors server/websocket.cpp:12-17 -/
def isHttpRequest (data : Bytes) : Bool := 4 ≤ data.length && data.take 4 == ascii "GET "

def WS_GUID : Bytes := ascii "258EAFA5-E914-47DA-95CA-C5AB0DC85B11"

/-- mirrors server/websocket.cpp:38-45 -/
def computeAcceptKey (env : Env) (key : Bytes) : Bytes := env.base64Encode (env.sha1 (key ++ WS_GUID))

/-- The response, `none` for false.
mirrors server/websocket.cpp:47-81 -/
def handleHandshake (env : Env) (request : Bytes) : Option Bytes := do
  let keyHeader := ascii "Sec-WebSocket-Key:"
  let keyPos ← find request keyHeader 0
  let keyPos := keyPos + keyHeader.length
  let keyPos := keyPos + ((request.drop keyPos).takeWhile (· == 0x20)).length
  let keyEnd ← find request crlf keyPos
  let wsKey := substr request keyPos (keyEnd - keyPos)
  let wsKey := (wsKey.reverse.dropWhile (· == 0x20)).reverse
  pure (ascii "HTTP/1.1 101 Switching Protocols\r\nUpgrade: websocket\r\nConnection: Upgrade\r\nSec-WebSocket-Accept: " ++
    computeAcceptKey env wsKey ++ crlfcrlf)

/-! ## Negotiation -/

/-- mirrors server/main.cpp:293-317; `snprintf` keeps 511 bytes. -/
def buildMediaOffer (env : Env) : Bytes :=
  let codec := if env.isH265 then ascii "h265" else ascii "h264"
  let video := ascii "\x7b\"type\":\"media-offer\",\"payload\":\x7b\"version\":1,\"streams\":[\x7b\"type\":\"video\",\"codec\":\"" ++
    codec ++ ascii "\",\"framerate\":" ++ env.framerate ++ ascii "\x7d"
  let text :=
    if env.isMp4Mode && env.audio.present then
      video ++ ascii ",\x7b\"type\":\"audio\",\"codec\":\"" ++ env.audio.codecName ++ ascii "\",\"sampleRate\":" ++
        ascii (toString env.audio.sampleRate) ++ ascii ",\"channels\":" ++ ascii (toString env.audio.channels) ++
        ascii "\x7d]\x7d\x7d"
    else video ++ ascii "]\x7d\x7d"
  text.take 511

/-- `"` + key + `"` -/
def quoted (key : String) : Bytes := 0x22 :: ascii key ++ [0x22]

/-- mirrors server/main.cpp:320-331 -/
def extractJsonString (json : Bytes) (key : String) : Bytes :=
  let value : Option Bytes := do
    let pos ← find json (quoted key) 0
    let pos ← find json [0x3A] (pos + (quoted key).length)
    let pos ← find json [0x22] (pos + 1)
    let last ← find json [0x22] (pos + 1)
    pure (substr json (pos + 1) (last - pos - 1))
  value.getD []

def isJsonSpace (b : UInt8) : Bool := b == 0x20 || b == 0x09 || b == 0x0A || b == 0x0D

/-- mirrors server/main.cpp:334-345 -/
def extractJsonBool (json : Bytes) (key : String) (defaultVal : Bool) : Bool :=
  let value : Option Bool := do
    let pos ← find json (quoted key) 0
    let pos ← find json [0x3A] (pos + (quoted key).length)
    let pos := pos + 1
    let pos := pos + ((json.drop pos).takeWhile isJsonSpace).length
    if pos + 4 ≤ json.length && substr json pos 4 == ascii "true" then pure true
    else if pos + 5 ≤ json.length && substr json pos 5 == ascii "false" then pure false
    else none
  value.getD defaultVal

/-- The TEXT frame accepts the offer. -/
def acceptsOffer (msg : Bytes) : Bool :=
  extractJsonString msg "type" == ascii "media-answer" && extractJsonBool msg "accepted" false

/-- mirrors server/main.cpp:347-355 -/
def sendMediaOffer (env : Env) (now : Int) (conn : Connection) : Connection × List Out :=
  ({ conn with state := .negotiating, negotiateOfferTime := now },
    [.send (.frame .text (buildMediaOffer env)), .setState .negotiating])

/-- mirrors server/main.cpp:357-376 -/
def handleNegotiation (conn : Connection) (msg : Bytes) : Connection × List Out :=
  if extractJsonString msg "type" ≠ ascii "media-answer" then (conn, [])
  else if extractJsonBool msg "accepted" false then ({ conn with state := .streaming }, [.setState .streaming])
  else ({ conn with state := .closing }, [.setState .closing, .send (closeMsg 1000 "Negotiation rejected"), .close])

/-! ## Received data -/

/-- The handlers of the frame loop; `true`: return from it.
mirrors server/main.cpp:264-288 -/
def handleFrame (conn : Connection) (frame : WsFrame) : Connection × List Out × Bool :=
  match frame.opcode with
  | .text =>
    if conn.state = .negotiating then
      let r := handleNegotiation conn frame.payload
      (r.1, .dispatch .text frame.payload :: r.2, false)
    else (conn, [.dispatch .text frame.payload], false)
  | .ping => (conn, [.dispatch .ping frame.payload, .send (.frame .pong frame.payload)], false)
  | .close => ({ conn with state := .closing }, [.dispatch .close frame.payload, .setState .closing, .close], true)
  | opcode => (conn, [.dispatch opcode frame.payload], false)

/-- The record and the outputs of a handler, and the exception it left with. -/
structure Handled where
  conn : Connection
  outs : List Out
  threw : Option WsFault := none

def thrown : Framing.Ending WsFault → Option WsFault
  | .threw e => some e
  | _ => none

/-- The frame loop, which erases each frame from `recvBuffer`.
mirrors server/main.cpp:249-291 -/
def handleWebSocketFrame (conn : Connection) : Handled :=
  let r := frameParser.drain handleFrame conn conn.recvBuffer
  { conn := { r.state with recvBuffer := r.rest }, outs := r.outs, threw := thrown r.ending }

/-- mirrors server/main.cpp:220-247 -/
def handleUpgrade (env : Env) (now : Int) (conn : Connection) : Handled :=
  if (find conn.recvBuffer crlfcrlf 0).isNone then { conn, outs := [] }
  else if !isHttpRequest conn.recvBuffer then { conn, outs := [.close] }
  else
    match handleHandshake env conn.recvBuffer with
    | none => { conn, outs := [.close] }
    | some text =>
      let r := sendMediaOffer env now { conn with recvBuffer := [], state := .connected }
      { conn := r.1, outs := .send (.response text) :: .setState .connected :: r.2 }

/-- mirrors server/main.cpp:203-218 -/
def handleData (env : Env) (now : Int) (conn : Connection) (data : Bytes) : Handled :=
  let conn := { conn with recvBuffer := conn.recvBuffer ++ data }
  match conn.state with
  | .handshakingWs => handleUpgrade env now conn
  | .negotiating => handleWebSocketFrame conn
  | .streaming => handleWebSocketFrame conn
  | _ => { conn, outs := [] }

end WebPlayer.L3.Session
