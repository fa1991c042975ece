import UIPEthernet.Enc28J60Network

/-!
# The state of the library

The globals of `uip.c`, `uip_arp.c`, `UIPEthernetClass` and `UIPClient`, and
the `UIPUDP` objects of the sketch. A pointer into a table is the index of the
entry, `none` for NULL. IP addresses and sequence numbers are the 32-bit value
of their four bytes; ports are the `u16_t` in network byte order that the code
compares. `tcpstateflags` is split into the state and the stopped bit.
-/

namespace UIPEthernet

abbrev Buf := Nat → Byte

namespace Buf

/-- A `u16_t` load on the little-endian controller. -/
def u16 (b : Buf) (i : Nat) : Nat := (b i).toNat + 256 * (b (i + 1)).toNat

/-- Two bytes in network byte order. -/
def be16 (b : Buf) (i : Nat) : Nat := 256 * (b i).toNat + (b (i + 1)).toNat

theorem be16_lt (b : Buf) (i : Nat) : b.be16 i < 65536 := by
  have := (b i).isLt
  have := (b (i + 1)).isLt
  rw [be16]; omega

def be32 (b : Buf) (i : Nat) : BitVec 32 := b i ++ b (i + 1) ++ b (i + 2) ++ b (i + 3)

def put (b : Buf) (i : Nat) (x : Byte) : Buf := Function.update b i x

def putU16 (b : Buf) (i v : Nat) : Buf := (b.put i (BitVec.ofNat 8 v)).put (i + 1) (BitVec.ofNat 8 (v / 256))

def putBe16 (b : Buf) (i v : Nat) : Buf :=
  (b.put i (BitVec.ofNat 8 (v / 256))).put (i + 1) (BitVec.ofNat 8 v)

def putBe32 (b : Buf) (i : Nat) (v : BitVec 32) : Buf :=
  (((b.put i (v.extractLsb' 24 8)).put (i + 1) (v.extractLsb' 16 8)).put (i + 2)
    (v.extractLsb' 8 8)).put (i + 3) (v.extractLsb' 0 8)

/-- `memcpy` of `n` bytes inside the buffer, the areas not overlapping. -/
def copy (b : Buf) (dest src n : Nat) : Buf := Lib.store b dest (Lib.load b src n)

end Buf

def htons (v : Nat) : Nat := v % 256 * 256 + v / 256 % 256

-- ---------------------------------------------------------------------------
-- uip.h
-- ---------------------------------------------------------------------------

def UIP_ACKDATA : BitVec 8 := 1
def UIP_NEWDATA : BitVec 8 := 2
def UIP_REXMIT : BitVec 8 := 4
def UIP_POLL : BitVec 8 := 8
def UIP_CLOSE : BitVec 8 := 16
def UIP_ABORT : BitVec 8 := 32
def UIP_CONNECTED : BitVec 8 := 64
def UIP_TIMEDOUT : BitVec 8 := 128

inductive TcpState
  | UIP_CLOSED
  | UIP_SYN_RCVD
  | UIP_SYN_SENT
  | UIP_ESTABLISHED
  | UIP_FIN_WAIT_1
  | UIP_FIN_WAIT_2
  | UIP_CLOSING
  | UIP_TIME_WAIT
  | UIP_LAST_ACK
deriving DecidableEq, Repr

structure TcpStateFlags where
  state : TcpState
  stopped : Bool
deriving DecidableEq, Repr

instance : Coe TcpState TcpStateFlags := ⟨fun t => ⟨t, false⟩⟩

structure Conn where
  ripaddr : BitVec 32
  lport : Nat
  rport : Nat
  rcvNxt : BitVec 32
  sndNxt : BitVec 32
  len : Nat
  mss : Nat
  initialmss : Nat
  sa : BitVec 8
  sv : BitVec 8
  rto : BitVec 8
  tcpstateflags : TcpStateFlags
  timer : BitVec 8
  nrtx : BitVec 8
  appstate : Option (Fin UIP_CONNS)
deriving DecidableEq, Repr

structure UdpConn where
  ripaddr : BitVec 32
  lport : Nat
  rport : Nat
  ttl : Byte
  /-- The `UIPUDP` object whose `appdata` this points to. -/
  appstate : Option Nat
deriving DecidableEq, Repr

structure ArpEntry where
  ipaddr : BitVec 32
  ethaddr : List Byte
  time : BitVec 8
deriving DecidableEq, Repr

-- ---------------------------------------------------------------------------
-- UIPClient.h
-- ---------------------------------------------------------------------------

def UIP_CLIENT_CONNECTED : BitVec 8 := 0x10
def UIP_CLIENT_CLOSE : BitVec 8 := 0x20
def UIP_CLIENT_REMOTECLOSED : BitVec 8 := 0x40
def UIP_CLIENT_RESTART : BitVec 8 := 0x80
def UIP_CLIENT_STATEFLAGS : BitVec 8 :=
  UIP_CLIENT_CONNECTED ||| UIP_CLIENT_CLOSE ||| UIP_CLIENT_REMOTECLOSED ||| UIP_CLIENT_RESTART
def UIP_CLIENT_SOCKETS : BitVec 8 := ~~~UIP_CLIENT_STATEFLAGS

abbrev Packets := Fin UIP_SOCKET_NUMPACKETS → Handle

structure Userdata where
  state : BitVec 8
  packetsIn : Packets
  packetsOut : Packets
  outPos : Nat
  timer : BitVec 32

namespace Userdata

/-- `((uip_userdata_closed_t *)u)->lport`: it lies over the first two handles
of `packets_out`. -/
def lport (u : Userdata) : Nat := u.packetsOut 0 + 256 * u.packetsOut 1

def setLport (u : Userdata) (port : Nat) : Userdata :=
  { u with packetsOut := Function.update (Function.update u.packetsOut 0 (port % 256)) 1 (port / 256) }

end Userdata

-- ---------------------------------------------------------------------------
-- UIPUdp.h
-- ---------------------------------------------------------------------------

structure UdpUserdata where
  outPos : Nat
  packetNext : Handle
  packetIn : Handle
  packetOut : Handle
  send : Bool
deriving DecidableEq, Repr

structure UIPUDP where
  uipUdpConn : Option (Fin UIP_UDP_CONNS)
  appdata : UdpUserdata
deriving DecidableEq, Repr

-- ---------------------------------------------------------------------------
-- The whole
-- ---------------------------------------------------------------------------

/-- The scratch globals of `uip.c` and `uip_arp.c`. -/
structure Uip where
  uipBuf : Buf
  /-- `uip_appdata - uip_buf`. -/
  uipAppdata : Nat
  uipLen : Nat
  uipSlen : Nat
  uipFlags : BitVec 8
  uipListenports : Fin UIP_LISTENPORTS → Nat
  ipid : Nat
  iss : BitVec 32
  lastport : Nat
  uipHostaddr : BitVec 32
  uipDraddr : BitVec 32
  uipNetmask : BitVec 32
  uipEthaddr : List Byte
  arpTable : Fin UIP_ARPTAB_SIZE → ArpEntry
  arptime : BitVec 8

/-- What moved between the connections, the entries of `all_data` and the
sketch. -/
inductive Event
  /-- A connection is set up in a slot. -/
  | opened (c : Fin UIP_CONNS)
  | attached (c u : Fin UIP_CONNS)
  /-- Payload of the connection is put into a new block of `packets_in`. -/
  | received (c u : Fin UIP_CONNS) (h : Handle)
  /-- The first bytes of a block of `packets_out` go into a segment. -/
  | offered (c u : Fin UIP_CONNS) (h : Handle) (len : Nat)
  | written (u : Fin UIP_CONNS) (h : Handle) (data : List Byte)
  | returned (u : Fin UIP_CONNS) (h : Handle) (data : List Byte)
deriving DecidableEq, Repr

def UIPETHERNET_FREEPACKET : BitVec 8 := 1
def UIPETHERNET_SENDPACKET : BitVec 8 := 2

structure System where
  net : Enc28J60Network
  uip : Uip
  uipConns : Fin UIP_CONNS → Conn
  uipUdpConns : Fin UIP_UDP_CONNS → UdpConn
  allData : Fin UIP_CONNS → Userdata
  sockets : Nat → UIPUDP
  inPacket : Handle
  uipPacket : Handle
  uipHdrlen : Nat
  packetstate : BitVec 8
  periodicTimer : BitVec 32
  /-- The events so far, the last one first. No function reads it. -/
  history : List Event

end UIPEthernet
