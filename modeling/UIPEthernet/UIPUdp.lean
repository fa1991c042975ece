import UIPEthernet.Connections

/-!
# UIPUDP

The part of `UIPUdp.cpp` that does not run the stack: the callback
`uipudp_appcall`, and the calls of the sketch without the `tick` they start
with. A `UIPUDP` object is its number in `sockets`.
-/

namespace UIPEthernet

namespace System

def mapUdpConn (s : System) (i : Fin UIP_UDP_CONNS) (f : UdpConn → UdpConn) : System :=
  { s with uipUdpConns := Function.update s.uipUdpConns i (f (s.uipUdpConns i)) }

def mapSocket (s : System) (k : Nat) (f : UIPUDP → UIPUDP) : System :=
  { s with sockets := Function.update s.sockets k (f (s.sockets k)) }

def mapAppdata (s : System) (k : Nat) (f : UdpUserdata → UdpUserdata) : System :=
  s.mapSocket k fun udp => { udp with appdata := f udp.appdata }

section
variable (s : System) (k : Nat) (f : UdpUserdata → UdpUserdata)

@[simp] theorem mapAppdata_net : (s.mapAppdata k f).net = s.net := rfl

@[simp] theorem mapAppdata_appdata :
    ((s.mapAppdata k f).sockets k).appdata = f (s.sockets k).appdata := by
  simp [mapAppdata, mapSocket]

@[simp] theorem mapAppdata_conn :
    ((s.mapAppdata k f).sockets k).uipUdpConn = (s.sockets k).uipUdpConn := by
  simp [mapAppdata, mapSocket]

@[simp] theorem mapAppdata_conns : (s.mapAppdata k f).uipUdpConns = s.uipUdpConns := rfl

@[simp] theorem setNet_net (net : Enc28J60Network) : (s.setNet net).net = net := rfl

@[simp] theorem setNet_sockets (net : Enc28J60Network) : (s.setNet net).sockets = s.sockets := rfl

@[simp] theorem setNet_conns (net : Enc28J60Network) : (s.setNet net).uipUdpConns = s.uipUdpConns := rfl

end

end System

namespace UIPUDP

/-- A block for the datagram, and its payload copied into it. Without a block
the packet is dropped. -/
def queue (s : System) (k size : Nat) : Option System := do
  let (net, h) ← s.net.allocBlock size
  let s := (s.setNet net).mapAppdata k fun data => { data with packetNext := h }
  if h = NOBLOCK then return s
  else
    let net ← s.net.copyPacket h 0 s.inPacket UIP_UDP_PHYH_LEN (s.net.blockSize h)
    return s.setNet net

/-- The `uip_newdata` part of the callback. -/
def received (s : System) (i : Fin UIP_UDP_CONNS) (k : Nat) : Option System :=
  if has s.uip.uipFlags UIP_NEWDATA ∧ (s.sockets k).appdata.packetNext = NOBLOCK then
    let b := s.uip.uipBuf
    let s := s.mapUdpConn i fun conn =>
      { conn with rport := b.u16 Offset.srcport, ripaddr := b.be32 Offset.srcipaddr }
    queue s k (sub16 (b.be16 Offset.udplen) UIP_UDPH_LEN)
  else some s

/-- The `uip_poll` part, which prepares the packet to send. -/
def polled (s : System) (k : Nat) : System :=
  let data := (s.sockets k).appdata
  if has s.uip.uipFlags UIP_POLL ∧ data.send then
    let s := (s.setUipPacket data.packetOut).setPacketstate (s.packetstate ||| UIPETHERNET_SENDPACKET)
    (s.setHdrlen UIP_UDP_PHYH_LEN).setSlen (sub16 data.outPos (UIP_UDP_PHYH_LEN + UIP_SENDBUFFER_OFFSET))
  else s

end UIPUDP

/-- `uipudp_appcall` for the connection `uip_udp_conn`. -/
def uipudpAppcall (s : System) (i : Fin UIP_UDP_CONNS) : Option System :=
  match (s.uipUdpConns i).appstate with
  | none => some s
  | some k => do
    let s ← UIPUDP.received s i k
    return UIPUDP.polled s k

namespace UIPUDP

def start : UdpUserdata := ⟨0, NOBLOCK, NOBLOCK, NOBLOCK, false⟩

/-- A connection of `uip_udp_new` for the socket. -/
def newConn (s : System) (k : Nat) (ripaddr : Option (BitVec 32)) (rport : Nat) : Option System := do
  let (s, conn) ← s.uipUdpNew ripaddr rport
  return s.mapSocket k fun udp => { udp with uipUdpConn := conn }

def begin (s : System) (k port : Nat) : Option (System × Bool) := do
  let s ← if (s.sockets k).uipUdpConn = none then newConn s k none 0 else some s
  match (s.sockets k).uipUdpConn with
  | none => return (s, false)
  | some i => return (s.mapUdpConn i fun conn => { conn with lport := htons port, appstate := some k }, true)

def stop (s : System) (k : Nat) : Option System :=
  match (s.sockets k).uipUdpConn with
  | none => some s
  | some i => do
    let s := s.mapUdpConn i fun conn => { conn with lport := 0, appstate := none }
    let data := (s.sockets k).appdata
    let net ← s.net.freeBlock data.packetIn
    let net ← net.freeBlock data.packetNext
    let net ← net.freeBlock data.packetOut
    return (s.setNet net).mapSocket k fun _ => ⟨none, start⟩

/-- The address part of `beginPacket`: the remote end of the socket's
connection, which is a new one if it has none. -/
def connectTo (s : System) (k : Nat) (ip : BitVec 32) (port : Nat) : Option System :=
  match (s.sockets k).uipUdpConn with
  | some i => some (s.mapUdpConn i fun conn => { conn with rport := htons port, ripaddr := ip })
  | none => do
    let s ← newConn s k (some ip) (htons port)
    match (s.sockets k).uipUdpConn with
    | none => return s
    | some i => return s.mapUdpConn i fun conn => { conn with appstate := some k }

def setRemote (s : System) (k : Nat) (ip : BitVec 32) (port : Nat) : Option System :=
  if ip ≠ 0 ∧ port ≠ 0 then connectTo s k ip port else some s

/-- `beginPacket(ip, port)` behind the `tick`. -/
def beginPacket (s : System) (k : Nat) (ip : BitVec 32) (port : Nat) : Option (System × Bool) := do
  let s ← setRemote s k ip port
  if (s.sockets k).uipUdpConn ≠ none ∧ (s.sockets k).appdata.packetOut = NOBLOCK then
    let (net, h) ←
      s.net.allocBlock (UIP_UDP_MAXPACKETSIZE + UIP_SENDBUFFER_OFFSET + UIP_SENDBUFFER_PADDING)
    let s := (s.setNet net).mapAppdata k fun data =>
      { data with packetOut := h, outPos := UIP_UDP_PHYH_LEN + UIP_SENDBUFFER_OFFSET }
    return (s, h != NOBLOCK)
  else return (s, false)

def write (s : System) (k : Nat) (buffer : List Byte) : System × Nat :=
  let data := (s.sockets k).appdata
  if data.packetOut = NOBLOCK then (s, 0)
  else
    let (net, ret) := s.net.writePacket data.packetOut data.outPos buffer
    ((s.setNet net).mapAppdata k fun data => { data with outPos := add16 data.outPos ret }, ret)

/-- `parsePacket` behind the `tick`. -/
def parsePacket (s : System) (k : Nat) : Option (System × Nat) := do
  let data := (s.sockets k).appdata
  let net ← s.net.freeBlock data.packetIn
  let s := (s.setNet net).mapAppdata k fun data =>
    { data with packetIn := data.packetNext, packetNext := NOBLOCK }
  return (s, s.net.blockSize (s.sockets k).appdata.packetIn)

def available (s : System) (k : Nat) : Nat := s.net.blockSize (s.sockets k).appdata.packetIn

/-- `read(buffer, len)` behind the `tick`. -/
def read (s : System) (k len : Nat) : Option (System × List Byte) := do
  let h := (s.sockets k).appdata.packetIn
  if h = NOBLOCK then return (s, [])
  else
    let bytes := s.net.readPacket h 0 len
    if bytes.length = s.net.blockSize h then
      let net ← s.net.freeBlock h
      return ((s.setNet net).mapAppdata k fun data => { data with packetIn := NOBLOCK }, bytes)
    else return (s.setNet (s.net.resizeBlock h bytes.length), bytes)

/-- `peek` behind the `tick`, `none` for -1. -/
def peek (s : System) (k : Nat) : Option Byte :=
  let h := (s.sockets k).appdata.packetIn
  if h = NOBLOCK then none else (s.net.readPacket h 0 1).head?

/-- `flush` behind the `tick`. -/
def flush (s : System) (k : Nat) : Option System := do
  let net ← s.net.freeBlock (s.sockets k).appdata.packetIn
  return (s.setNet net).mapAppdata k fun data => { data with packetIn := NOBLOCK }

end UIPUDP

end UIPEthernet
