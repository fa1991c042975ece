import UIPEthernet.Uip

/-!
# UIPEthernetClass

`network_send` and `tick`, and the calls of `UIPUDP` that send. The clock is
an argument, and so is the word that `tick` reads for the timer of a
connection without an entry, where it follows a NULL pointer.
-/

namespace UIPEthernet

namespace System

def mapUip (s : System) (f : Uip → Uip) : System := { s with uip := f s.uip }

def setInPacket (s : System) (h : Handle) : System := { s with inPacket := h }

def networkSend (s : System) : Option (System × Bool) := do
  if has s.packetstate UIPETHERNET_SENDPACKET then
    let header := Lib.load s.uip.uipBuf 0 s.uipHdrlen
    let (net, _) := s.net.writePacket s.uipPacket UIP_SENDBUFFER_OFFSET header
    let (net, success) := net.sendPacket s.uipPacket
    let s := (s.setNet net).setPacketstate (s.packetstate &&& ~~~UIPETHERNET_SENDPACKET)
    if success then
      let net ← s.net.freeBlock s.uipPacket
      return ((s.setNet net).setUipPacket NOBLOCK, true)
    else return (s, false)
  else
    let (net, h) ← s.net.allocBlock (add16 s.uip.uipLen (UIP_SENDBUFFER_OFFSET + UIP_SENDBUFFER_PADDING))
    let s := (s.setNet net).setUipPacket h
    if h = NOBLOCK then return (s, false)
    else
      let frame := Lib.load s.uip.uipBuf 0 s.uip.uipLen
      let (net, _) := s.net.writePacket h UIP_SENDBUFFER_OFFSET frame
      let (net, success) := net.sendPacket h
      let net ← net.freeBlock h
      return ((s.setNet net).setUipPacket NOBLOCK, success)

/-- What `uip_process` left in `uip_buf` is sent. -/
def sendOut (s : System) : Option System := do
  if 0 < s.uip.uipLen then
    let (s, _) ← (s.mapUip Uip.arpOut).networkSend
    return s
  else return s

end System

/-- `UIPUDP::_send`. -/
def UIPUDP.send (s : System) (k : Nat) : Option System := do
  let s := s.mapUip Uip.arpOut
  if s.uip.uipLen = UIP_ARPHDRSIZE then
    -- an ARP request has taken the packet's place
    let s := (s.setUipPacket NOBLOCK).setPacketstate (s.packetstate &&& ~~~UIPETHERNET_SENDPACKET)
    let (s, _) ← s.networkSend
    return s
  else
    let (s, success) ← s.networkSend
    if success then return s.mapAppdata k fun data => { data with send := false, packetOut := NOBLOCK }
    else return s

/-- `endPacket`. -/
def UIPUDP.endPacket (s : System) (k : Nat) : Option (System × Bool) := do
  match (s.sockets k).uipUdpConn with
  | none => return (s, false)
  | some i =>
    let data := (s.sockets k).appdata
    if data.packetOut = NOBLOCK then return (s, false)
    else
      let net := s.net.resizeBlockTo data.packetOut 0 (add16 data.outPos UIP_SENDBUFFER_PADDING)
      let s := (s.setNet net).mapAppdata k fun data => { data with send := true }
      let s ← s.uipUdpTimer i
      if 0 < s.uip.uipLen then
        let s ← UIPUDP.send s k
        return (s, true)
      else return (s, false)

namespace System

/-- The frame `in_packet`, with its length in `uip_len`. -/
def handleFrame (s : System) : Option System := do
  let frame := s.net.readPacket s.inPacket 0 UIP_BUFSIZE
  let s := s.mapBuf fun b => Lib.store b 0 frame
  let type := s.uip.uipBuf.be16 Offset.ethType
  if type = UIP_ETHTYPE_IP then
    let s ← ((s.setUipPacket s.inPacket).mapUip Uip.arpIpin).uipInput
    s.sendOut
  else if type = UIP_ETHTYPE_ARP then
    let s := s.mapUip Uip.arpArpin
    if 0 < s.uip.uipLen then
      let (s, _) ← s.networkSend
      return s
    else return s
  else return s

/-- The first half of `tick`, the frame in the receive buffer. -/
def tickInput (s : System) : Option System := do
  let s := if s.inPacket = NOBLOCK then
      let (net, h) := s.net.receivePacket
      (s.setNet net).setInPacket h
    else s
  if s.inPacket = NOBLOCK then return s
  else
    let s := (s.setPacketstate UIPETHERNET_FREEPACKET).setLen (s.net.blockSize s.inPacket)
    let s ← if 0 < s.uip.uipLen then s.handleFrame else some s
    if has s.packetstate UIPETHERNET_FREEPACKET then
      return (s.setNet s.net.freePacket).setInPacket NOBLOCK
    else return s

/-- What `tick` reads for the timer of a connection. -/
def connTimer (s : System) (nullTimer : BitVec 32) (c : Fin UIP_CONNS) : BitVec 32 :=
  match (s.uipConns c).appstate with
  | some u => (s.allData u).timer
  | none => nullTimer

/-- `(long)(now - timer) >= 0`. -/
def due (now timer : BitVec 32) : Bool := !(now - timer).msb

/-- The turn of `tick` for a TCP connection. -/
def tickConn (now nullTimer : BitVec 32) (periodic : Bool) (s : System) (c : Fin UIP_CONNS) :
    Option System := do
  if periodic then
    let s ← s.uipTimer c
    s.sendOut
  else if due now (s.connTimer nullTimer c) then
    let s ← s.uipPoll c
    s.sendOut
  else return s

/-- The turn of `tick` for a UDP connection. A packet comes from an `appstate`
that is not NULL. -/
def tickUdp (s : System) (i : Fin UIP_UDP_CONNS) : Option System := do
  let s ← s.uipUdpTimer i
  if 0 < s.uip.uipLen then
    match (s.uipUdpConns i).appstate with
    | none => return s
    | some k => UIPUDP.send s k
  else return s

def tick (s : System) (now : BitVec 32) (nullTimer : Fin UIP_CONNS → BitVec 32) : Option System := do
  let s ← s.tickInput
  let periodic := due now s.periodicTimer
  let s ← (List.finRange UIP_CONNS).foldlM (fun s c => s.tickConn now (nullTimer c) periodic c) s
  if periodic then
    (List.finRange UIP_UDP_CONNS).foldlM tickUdp { s with periodicTimer := now + UIP_PERIODIC_TIMER }
  else return s

-- ---------------------------------------------------------------------------
-- Start
-- ---------------------------------------------------------------------------

/-- The zeroed globals, after `init` on a controller with the given memory. -/
def init (ram : Nat → Byte) (transmissions : List Transmission) (mac : List Byte) (now : BitVec 32) :
    System where
  net := .init ram transmissions
  uip :=
    { uipBuf := fun _ => 0, uipAppdata := 0, uipLen := 0, uipSlen := 0, uipFlags := 0
      uipListenports := fun _ => 0, ipid := 0, iss := 0, lastport := 1024, uipHostaddr := 0
      uipDraddr := 0, uipNetmask := 0, uipEthaddr := mac, arpTable := fun _ => ⟨0, [0, 0, 0, 0, 0, 0], 0⟩
      arptime := 0 }
  uipConns _ := ⟨0, 0, 0, 0, 0, 0, 0, 0, 0, 0, 0, TcpState.UIP_CLOSED, 0, 0, none⟩
  uipUdpConns _ := ⟨0, 0, 0, 0, none⟩
  allData _ := ⟨0, fun _ => NOBLOCK, fun _ => NOBLOCK, 0, 0⟩
  sockets _ := ⟨none, UIPUDP.start⟩
  inPacket := NOBLOCK
  uipPacket := NOBLOCK
  uipHdrlen := 0
  packetstate := 0
  periodicTimer := now + UIP_PERIODIC_TIMER
  history := []

/-- `configure`, at the start or with a new lease. -/
def configure (s : System) (ip gateway subnet : BitVec 32) : System :=
  { s with uip := { s.uip with uipHostaddr := ip, uipDraddr := gateway, uipNetmask := subnet } }

end System

end UIPEthernet
