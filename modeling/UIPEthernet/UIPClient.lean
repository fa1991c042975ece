import UIPEthernet.Headers

/-!
# UIPClient

`UIPClient.cpp`: the callback `uipclient_appcall` that uIP runs for a
connection, and the calls of the sketch. Every such call first runs the stack
(`tick`); a function here is the rest of it. `_write` runs the stack before
each attempt, so that `write` here is one attempt. An entry of `all_data` is
its index, and `uip_conn` the index `c`.
-/

namespace UIPEthernet

namespace System

def record (s : System) (e : Event) : System := { s with history := e :: s.history }

def setNet (s : System) (net : Enc28J60Network) : System := { s with net }

def setUipPacket (s : System) (h : Handle) : System := { s with uipPacket := h }

def setHdrlen (s : System) (hdrlen : Nat) : System := { s with uipHdrlen := hdrlen }

def setPacketstate (s : System) (packetstate : BitVec 8) : System := { s with packetstate }

def mapConn (s : System) (c : Fin UIP_CONNS) (f : Conn → Conn) : System :=
  { s with uipConns := Function.update s.uipConns c (f (s.uipConns c)) }

theorem mapConn_self (s : System) (c : Fin UIP_CONNS) (f : Conn → Conn) :
    (s.mapConn c f).uipConns c = f (s.uipConns c) := Function.update_self _ _ _

def setAppstate (s : System) (c : Fin UIP_CONNS) (u : Option (Fin UIP_CONNS)) : System :=
  s.mapConn c fun conn => { conn with appstate := u }

def setData (s : System) (u : Fin UIP_CONNS) (d : Userdata) : System :=
  { s with allData := Function.update s.allData u d }

def setState (s : System) (u : Fin UIP_CONNS) (state : BitVec 8) : System :=
  s.setData u { s.allData u with state }

def setPacketsIn (s : System) (u : Fin UIP_CONNS) (packetsIn : Packets) : System :=
  s.setData u { s.allData u with packetsIn }

def setPacketsOut (s : System) (u : Fin UIP_CONNS) (packetsOut : Packets) : System :=
  s.setData u { s.allData u with packetsOut }

def setOutPos (s : System) (u : Fin UIP_CONNS) (outPos : Nat) : System :=
  s.setData u { s.allData u with outPos }

def setTimer (s : System) (u : Fin UIP_CONNS) (timer : BitVec 32) : System :=
  s.setData u { s.allData u with timer }

def uipStop (s : System) (c : Fin UIP_CONNS) : System :=
  s.mapConn c fun conn => { conn with tcpstateflags := { conn.tcpstateflags with stopped := true } }

def uipRestart (s : System) (c : Fin UIP_CONNS) : System :=
  (s.setFlags (s.uip.uipFlags ||| UIP_NEWDATA)).mapConn c fun conn =>
    { conn with tcpstateflags := { conn.tcpstateflags with stopped := false } }

end System

namespace UIPClient

-- ---------------------------------------------------------------------------
-- The arrays of blocks
-- ---------------------------------------------------------------------------

def currentBlock (block : Packets) : Fin UIP_SOCKET_NUMPACKETS :=
  if block 1 = NOBLOCK then 0
  else if block 2 = NOBLOCK then 1
  else if block 3 = NOBLOCK then 2
  else if block 4 = NOBLOCK then 3
  else 4

def shift (block : Packets) : Packets := fun i =>
  if h : i.val + 1 < UIP_SOCKET_NUMPACKETS then block ⟨i.val + 1, h⟩ else NOBLOCK

def eatBlock (net : Enc28J60Network) (block : Packets) : Option (Enc28J60Network × Packets) := do
  let net ← net.freeBlock (block 0)
  return (net, shift block)

def flushBlocks (net : Enc28J60Network) (block : Packets) : Option (Enc28J60Network × Packets) := do
  let net ← (List.finRange UIP_SOCKET_NUMPACKETS).foldlM (fun net i => net.freeBlock (block i)) net
  return (net, fun _ => NOBLOCK)

def eatIn (s : System) (u : Fin UIP_CONNS) : Option System := do
  let (net, block) ← eatBlock s.net (s.allData u).packetsIn
  return (s.setNet net).setPacketsIn u block

def eatOut (s : System) (u : Fin UIP_CONNS) : Option System := do
  let (net, block) ← eatBlock s.net (s.allData u).packetsOut
  return (s.setNet net).setPacketsOut u block

def flushIn (s : System) (u : Fin UIP_CONNS) : Option System := do
  let (net, block) ← flushBlocks s.net (s.allData u).packetsIn
  return (s.setNet net).setPacketsIn u block

def flushOut (s : System) (u : Fin UIP_CONNS) : Option System := do
  let (net, block) ← flushBlocks s.net (s.allData u).packetsOut
  return (s.setNet net).setPacketsOut u block

/-- `_allocateData`: the first entry that is not in use. -/
def allocateData (s : System) : Option (System × Fin UIP_CONNS) :=
  match (List.finRange UIP_CONNS).find? fun sock => (s.allData sock).state = 0 with
  | none => none
  | some sock =>
    some (s.setData sock
      ⟨BitVec.ofNat 8 sock ||| UIP_CLIENT_CONNECTED, fun _ => NOBLOCK, fun _ => NOBLOCK, 0, 0⟩, sock)

-- ---------------------------------------------------------------------------
-- uipclient_appcall
-- ---------------------------------------------------------------------------

/-- The first part: an entry for a new connection. -/
def attach (s : System) (c : Fin UIP_CONNS) : System :=
  if (s.uipConns c).appstate = none ∧ has s.uip.uipFlags UIP_CONNECTED then
    match allocateData s with
    | none => s
    | some (s, u) => (s.setAppstate c u).record (.attached c u)
  else s

/-- The loop over the slots of `packets_in`; the result says whether the data
was stored. -/
def storeData (c u : Fin UIP_CONNS) :
    List (Fin UIP_SOCKET_NUMPACKETS) → System → Option (System × Bool)
  | [], s => some (s, false)
  | i :: rest, s =>
    if (s.allData u).packetsIn i = NOBLOCK then do
      let (net, h) ← s.net.allocBlock s.uip.uipLen
      let s := (s.setNet net).setPacketsIn u (Function.update (s.allData u).packetsIn i h)
      if h = NOBLOCK then storeData c u rest s
      else
        let net ← s.net.copyPacket h 0 s.inPacket s.uip.uipAppdata s.uip.uipLen
        let s := (s.setNet net).record (.received c u h)
        let s := if i = 4 then s.uipStop c else s
        return (s, true)
    else storeData c u rest s

def newdata (s : System) (c u : Fin UIP_CONNS) : Option System := do
  if has s.uip.uipFlags UIP_NEWDATA ∧ s.uip.uipLen ≠ 0 ∧
      ¬has (s.allData u).state (UIP_CLIENT_CLOSE ||| UIP_CLIENT_REMOTECLOSED) then
    let (s, stored) ← storeData c u (List.finRange UIP_SOCKET_NUMPACKETS) s
    if stored then return s
    else
      -- the packet stays in the receive buffer
      return (s.setPacketstate (s.packetstate &&& ~~~UIPETHERNET_FREEPACKET)).uipStop c
  else return s

def restart (s : System) (c u : Fin UIP_CONNS) : System :=
  if has (s.allData u).state UIP_CLIENT_RESTART then
    (s.setState u ((s.allData u).state &&& ~~~UIP_CLIENT_RESTART)).uipRestart c
  else s

/-- The connection has been closed: unread data is kept for the sketch. -/
def closed (s : System) (c u : Fin UIP_CONNS) : Option System := do
  let s ← flushOut s u
  let d := s.allData u
  let s := if d.packetsIn 0 ≠ NOBLOCK then
      (s.setPacketsOut u (d.setLport (s.uipConns c).lport).packetsOut).setState u
        (d.state ||| UIP_CLIENT_REMOTECLOSED)
    else s.setState u 0
  return s.setAppstate c none

/-- `send_len` for the head block of `packets_out`. -/
def sendLength (s : System) (u : Fin UIP_CONNS) : Nat :=
  let d := s.allData u
  if d.packetsOut 1 = NOBLOCK then d.outPos else s.net.blockSize (d.packetsOut 0)

/-- A head block that is still being written is cut behind its bytes. -/
def cutHead (s : System) (u : Fin UIP_CONNS) : System :=
  let d := s.allData u
  if d.packetsOut 1 = NOBLOCK then s.setNet (s.net.resizeBlockTo (d.packetsOut 0) 0 d.outPos) else s

/-- The bytes to send are copied behind the room for the headers. -/
def prepare (s : System) (c u : Fin UIP_CONNS) (sendLen : Nat) : Option System := do
  let hdrlen := s.uip.uipAppdata % 256
  let out := (s.allData u).packetsOut 0
  let (net, h) ← s.net.allocBlock
    (add16 (hdrlen + sendLen) (UIP_SENDBUFFER_OFFSET + UIP_SENDBUFFER_PADDING))
  let s := ((s.setNet net).setUipPacket h).setHdrlen hdrlen
  if h = NOBLOCK then return s
  else
    let net ← s.net.copyPacket h (hdrlen + UIP_SENDBUFFER_OFFSET) out 0 sendLen
    let s := (s.setNet net).setPacketstate (s.packetstate ||| UIPETHERNET_SENDPACKET)
    return s.record (.offered c u out sendLen)

/-- The second result is `send_len`. -/
def offer (s : System) (c u : Fin UIP_CONNS) : Option (System × Nat) := do
  let sendLen := sendLength s u
  if sendLen = 0 then return (s, 0)
  else
    let s ← prepare (cutHead s u) c u sendLen
    return (s, sendLen)

/-- The connection is not closed unless all outgoing packets are sent. -/
def closing (s : System) (c u : Fin UIP_CONNS) : System :=
  if has (s.allData u).state UIP_CLIENT_CLOSE then
    if (s.allData u).packetsOut 0 = NOBLOCK then
      ((s.setState u 0).setAppstate c none).setFlags UIP_CLOSE
    else s.uipStop c
  else s

/-- The label `finish`: `uip_send(uip_appdata, send_len)`. -/
def finish (s : System) (sendLen : Nat) : System :=
  let sappdata := UIP_IPTCPH_LEN + UIP_LLH_LEN
  let s := s.setSlen sendLen
  let s := if 0 < sendLen ∧ s.uip.uipAppdata ≠ sappdata
    then s.mapBuf fun b => b.copy sappdata s.uip.uipAppdata sendLen else s
  s.setLen sendLen

def acked (s : System) (u : Fin UIP_CONNS) : Option System :=
  if has s.uip.uipFlags UIP_ACKDATA then eatOut s u else some s

/-- The callback behind `uip_acked`. -/
def polled (s : System) (c u : Fin UIP_CONNS) : Option System := do
  if has s.uip.uipFlags (UIP_POLL ||| UIP_REXMIT) ∧ (s.allData u).packetsOut 0 ≠ NOBLOCK then
    let (s, sendLen) ← offer s c u
    return finish s sendLen
  else return finish (closing s c u) 0

/-- What the callback does for a connection with the entry `u`. -/
def serve (s : System) (c u : Fin UIP_CONNS) : Option System := do
  let s ← newdata s c u
  let s := restart s c u
  if has s.uip.uipFlags (UIP_CLOSE ||| UIP_TIMEDOUT) then
    let s ← closed s c u
    return finish s 0
  else
    let s ← acked s u
    polled s c u

end UIPClient

/-- `uipclient_appcall` for the connection `uip_conn`. -/
def uipclientAppcall (s : System) (c : Fin UIP_CONNS) : Option System :=
  let s := UIPClient.attach s c
  match (s.uipConns c).appstate with
  | none => some (UIPClient.finish s 0)
  | some u => UIPClient.serve s c u

-- ---------------------------------------------------------------------------
-- The calls of the sketch
-- ---------------------------------------------------------------------------

namespace UIPClient

/-- `operator bool`. -/
def operatorBool (s : System) : Option (Fin UIP_CONNS) → Bool
  | none => false
  | some u =>
    !has (s.allData u).state UIP_CLIENT_REMOTECLOSED || (s.allData u).packetsIn 0 != NOBLOCK

def connected (s : System) : Option (Fin UIP_CONNS) → Bool
  | none => false
  | some u =>
    (s.allData u).packetsIn 0 != NOBLOCK || has (s.allData u).state UIP_CLIENT_CONNECTED

/-- `stop`, up to the `tick` at its end. -/
def stop (s : System) : Option (Fin UIP_CONNS) → Option System
  | none => some s
  | some u =>
    if (s.allData u).state = 0 then some s
    else do
      let s ← flushIn s u
      let state := (s.allData u).state
      return s.setState u (if has state UIP_CLIENT_REMOTECLOSED then 0 else state ||| UIP_CLIENT_CLOSE)

/-- How an attempt of `_write` ends, with the bytes not written yet: another
attempt, `return size-remain`, or `return -1`. -/
inductive Attempt
  | again (remain : List Byte)
  | ready (remain : List Byte)
  | closed
deriving DecidableEq, Repr

/-- The label `newpacket`; the result says whether there is a block now. -/
def newpacket (s : System) (u : Fin UIP_CONNS) (p : Fin UIP_SOCKET_NUMPACKETS) :
    Option (System × Bool) := do
  let (net, h) ← s.net.allocBlock UIP_SOCKET_DATALEN
  let s := (s.setNet net).setPacketsOut u (Function.update (s.allData u).packetsOut p h)
  if h = NOBLOCK then return (s, false)
  return (s.setOutPos u 0, true)

/-- One `writePacket` into the block of slot `p`; the second result is what is
left of `buf`. -/
def fill (s : System) (u : Fin UIP_CONNS) (p : Fin UIP_SOCKET_NUMPACKETS) (buf : List Byte) :
    System × List Byte :=
  let d := s.allData u
  let (net, written) := s.net.writePacket (d.packetsOut p) d.outPos buf
  let s := (s.setNet net).setOutPos u (add16 d.outPos written)
  (s.record (.written u (d.packetsOut p) (buf.take written)), buf.drop written)

/-- `remain > 0`, where `remain` is an `int`. -/
def positive (remain : Nat) : Bool := 0 < remain && remain < 32768

/-- The label `ready`. -/
def ready (s : System) (u : Fin UIP_CONNS) (now : BitVec 32) (remain : List Byte) :
    System × Attempt :=
  (s.setTimer u (now + UIP_CLIENT_TIMER), .ready remain)

/-- The code behind `newpacket`, with the block of the first slot in hand and
the other slots behind it. -/
def fillAll (u : Fin UIP_CONNS) (now : BitVec 32) :
    List (Fin UIP_SOCKET_NUMPACKETS) → List Byte → System → Option (System × Attempt)
  | [], buf, s => some (s, .again buf)
  | p :: rest, buf, s =>
    let (s, remain) := fill s u p buf
    if positive remain.length then
      match rest with
      | [] => some (s, .again remain)
      | q :: rest => do
        let (s, got) ← newpacket s u q
        if got then fillAll u now (q :: rest) remain s else return (s, .again remain)
    else some (ready s u now remain)

/-- An attempt of `_write`: what follows `repeat` and its `tick`, at the time
`now`. `UIP_ATTEMPTS_ON_WRITE` is -1: there is no last attempt. -/
def attempt (s : System) (data : Option (Fin UIP_CONNS)) (now : BitVec 32) (buf : List Byte) :
    Option (System × Attempt) :=
  match data with
  | none => some (s, .closed)
  | some u =>
    if has (s.allData u).state (UIP_CLIENT_CLOSE ||| UIP_CLIENT_REMOTECLOSED) then some (s, .closed)
    else
      let p := currentBlock (s.allData u).packetsOut
      let slots := (List.finRange UIP_SOCKET_NUMPACKETS).drop p
      if (s.allData u).packetsOut p = NOBLOCK then do
        let (s, got) ← newpacket s u p
        if got then fillAll u now slots buf s else return (s, .again buf)
      else fillAll u now slots buf s

def available (s : System) (data : Option (Fin UIP_CONNS)) : Nat :=
  match data with
  | none => 0
  | some u =>
    if operatorBool s data then
      ((List.finRange UIP_SOCKET_NUMPACKETS).map fun i =>
        s.net.blockSize ((s.allData u).packetsIn i)).foldl add16 0
    else 0

/-- `uip_stopped` of the connection with the number in the low bits of the
state. -/
def socketStopped (s : System) (state : BitVec 8) : Bool :=
  (s.uipConns (Fin.ofNat UIP_CONNS (state &&& UIP_CLIENT_SOCKETS).toNat)).tcpstateflags.stopped

/-- The head block is read up to its end; the second result says whether the
queue is empty now. -/
def readBlock (s : System) (u : Fin UIP_CONNS) : Option (System × Bool) := do
  let s ← eatIn s u
  let s := if socketStopped s (s.allData u).state ∧
      ¬has (s.allData u).state (UIP_CLIENT_CLOSE ||| UIP_CLIENT_REMOTECLOSED)
    then s.setState u ((s.allData u).state ||| UIP_CLIENT_RESTART) else s
  return (s, (s.allData u).packetsIn 0 = NOBLOCK)

/-- The loop of `read`. The results are the handle, which becomes NULL with
the last block of a closed connection, and the bytes put into the buffer. Every
turn but the last takes a block from the queue. -/
def readLoop (u : Fin UIP_CONNS) :
    Nat → Nat → System → Option (System × Option (Fin UIP_CONNS) × List Byte)
  | 0, _, _ => none
  | fuel + 1, remain, s => do
    let h := (s.allData u).packetsIn 0
    let data := s.net.readPacket h 0 remain
    let s := s.record (.returned u h data)
    if data.length = s.net.blockSize h then
      let (s, empty) ← readBlock s u
      if empty then
        if has (s.allData u).state UIP_CLIENT_REMOTECLOSED then
          return (s.setState u 0, none, data)
        else return (s, some u, data)
      else if data.length < remain then
        let (s, client, rest) ← readLoop u fuel (remain - data.length) s
        return (s, client, data ++ rest)
      else return (s, some u, data)
    else return (s.setNet (s.net.resizeBlock h data.length), some u, data)

/-- `read(buf, size)` behind the `tick`; the last result is `none` for -1. -/
def read (s : System) (data : Option (Fin UIP_CONNS)) (size : Nat) :
    Option (System × Option (Fin UIP_CONNS) × Option (List Byte)) :=
  match data with
  | none => some (s, none, none)
  | some u =>
    if operatorBool s data then
      if (s.allData u).packetsIn 0 = NOBLOCK then some (s, data, some [])
      else do
        let (s, client, bytes) ← readLoop u UIP_SOCKET_NUMPACKETS size s
        return (s, client, some bytes)
    else some (s, data, none)

/-- `read()` behind the `tick`, `none` for -1. The variable that is returned holds
`c` as long as nothing is read into it. -/
def readByte (s : System) (data : Option (Fin UIP_CONNS)) (c : Byte) :
    Option (System × Option (Fin UIP_CONNS) × Option Byte) := do
  let (s, client, bytes) ← read s data 1
  return (s, client, bytes.map fun buf => buf.headD c)

/-- `peek` behind the `tick`, `none` for -1. -/
def peek (s : System) (data : Option (Fin UIP_CONNS)) : Option Byte :=
  match data with
  | none => none
  | some u =>
    if operatorBool s data ∧ (s.allData u).packetsIn 0 ≠ NOBLOCK then
      (s.net.readPacket ((s.allData u).packetsIn 0) 0 1).head?
    else none

/-- `flush` behind the `tick`. -/
def flush (s : System) (data : Option (Fin UIP_CONNS)) : Option System :=
  match data with
  | none => some s
  | some u => if operatorBool s data then flushIn s u else some s

end UIPClient

end UIPEthernet
