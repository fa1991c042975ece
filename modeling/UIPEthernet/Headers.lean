import UIPEthernet.System

/-!
# Headers, checksums and ARP

The code that fills and checks the headers in `uip_buf`: `uip_arp.c`, the
checksums of `UIPEthernetClass`, and the labels of `uip_process` behind
`tcp_send`. None of it touches a connection or the pool; a function answers
`none` where the checksum loop of the controller code never ends.

The offsets are those of the Ethernet, IP, TCP, UDP, ICMP and ARP headers in
`uip_buf`.
-/

namespace UIPEthernet

namespace Offset

def ethDest := 0
def ethSrc := 6
def ethType := 12
def vhl := 14
def tos := 15
def len := 16
def ipid := 18
def ipoffset := 20
def ttl := 22
def proto := 23
def ipchksum := 24
def srcipaddr := 26
def destipaddr := 30
def srcport := 34
def destport := 36
def seqno := 38
def ackno := 42
def tcpoffset := 46
def tcpflags := 47
def wnd := 48
def tcpchksum := 50
def urgp := 52
def optdata := 54
def udplen := 38
def udpchksum := 40
def icmpType := 34
def icmpchksum := 36
def hwtype := 14
def protocol := 16
def hwlen := 18
def protolen := 19
def opcode := 20
def shwaddr := 22
def sipaddr := 28
def dhwaddr := 32
def dipaddr := 38

end Offset

-- ---------------------------------------------------------------------------
-- Checksums
-- ---------------------------------------------------------------------------

/-- `UIPEthernetClass::chksum` over the bytes of `uip_buf` from `data` on; the
last argument is `len`. -/
def chksum (b : Buf) : Nat → Nat → Nat → Nat
  | sum, _, 0 => sum
  | sum, data, 1 =>
    let t := 256 * (b data).toNat
    let sum := add16 sum t
    if sum < t then add16 sum 1 else sum
  | sum, data, len + 2 =>
    let t := b.be16 data
    let sum := add16 sum t
    let sum := if sum < t then add16 sum 1 else sum
    chksum b sum (data + 2) len

def Uip.ipchksum (u : Uip) : Nat :=
  let sum := chksum u.uipBuf 0 UIP_LLH_LEN UIP_IPH_LEN
  if sum = 0 then 0xffff else htons sum

namespace System

/-- `upper_layer_chksum`: the headers are in `uip_buf`, what is behind them in
the packet `uip_packet`. -/
def upperLayerChksum (s : System) (proto : Byte) : Option Nat := do
  let b := s.uip.uipBuf
  let upperLayerLen := sub16 (b.be16 Offset.len) UIP_IPH_LEN
  let sum := add16 upperLayerLen proto.toNat
  let sum := chksum b sum Offset.srcipaddr 8
  let upperLayerMemlen := if proto = UIP_PROTO_UDP then UIP_UDPH_LEN
    else ((b Offset.tcpoffset) >>> 4).toNat * 4
  let sum := chksum b sum (UIP_IPH_LEN + UIP_LLH_LEN) upperLayerMemlen
  let sum ← if upperLayerMemlen < upperLayerLen then
      let pos := if has s.packetstate UIPETHERNET_SENDPACKET
        then UIP_IPH_LEN + UIP_LLH_LEN + UIP_SENDBUFFER_OFFSET else UIP_IPH_LEN + UIP_LLH_LEN
      s.net.chksum sum s.uipPacket (pos + upperLayerMemlen) (upperLayerLen - upperLayerMemlen)
    else some sum
  return if sum = 0 then 0xffff else htons sum

end System

/-- `~x` stored in a `u16_t`. -/
def not16 (x : Nat) : Nat := 65535 - x % 65536

-- ---------------------------------------------------------------------------
-- The end of uip_process
-- ---------------------------------------------------------------------------

def TCP_FIN : Byte := 0x01
def TCP_SYN : Byte := 0x02
def TCP_RST : Byte := 0x04
def TCP_PSH : Byte := 0x08
def TCP_ACK : Byte := 0x10
def TCP_URG : Byte := 0x20
def TCP_CTL : Byte := 0x3f

namespace System

def mapBuf (s : System) (f : Buf → Buf) : System :=
  { s with uip := { s.uip with uipBuf := f s.uip.uipBuf } }

def setLen (s : System) (len : Nat) : System := { s with uip := { s.uip with uipLen := len } }

def setSlen (s : System) (slen : Nat) : System := { s with uip := { s.uip with uipSlen := slen } }

def setFlags (s : System) (flags : BitVec 8) : System :=
  { s with uip := { s.uip with uipFlags := flags } }

def setAppdata (s : System) (i : Nat) : System := { s with uip := { s.uip with uipAppdata := i } }

/-- The label `drop`. -/
def drop (s : System) : System := (s.setLen 0).setFlags 0

/-- The label `send`. -/
def send (s : System) : System := s.setFlags 0

/-- The label `ip_send_nolen`. -/
def ipSendNolen (s : System) : System :=
  let ipid := add16 s.uip.ipid 1
  let s := { s with uip := { s.uip with ipid } }
  let s := s.mapBuf fun b =>
    ((((b.put Offset.vhl 0x45).put Offset.tos 0).putBe16 Offset.ipoffset 0).putBe16
      Offset.ipid ipid).putU16 Offset.ipchksum 0
  (s.mapBuf fun b => b.putU16 Offset.ipchksum (not16 s.uip.ipchksum)).send

/-- The label `tcp_send_noconn`. -/
def tcpSendNoconn (s : System) : Option System := do
  let s := s.mapBuf fun b =>
    (((b.put Offset.ttl UIP_TTL).putBe16 Offset.len s.uip.uipLen).putBe16 Offset.urgp 0).putU16
      Offset.tcpchksum 0
  let sum ← s.upperLayerChksum UIP_PROTO_TCP
  return (s.mapBuf fun b => b.putU16 Offset.tcpchksum (not16 sum)).ipSendNolen

/-- The label `tcp_send`. -/
def tcpSend (s : System) (c : Fin UIP_CONNS) : Option System :=
  let conn := s.uipConns c
  let window := if conn.tcpstateflags.stopped then 0 else UIP_RECEIVE_WINDOW
  tcpSendNoconn <| s.mapBuf fun b =>
    (((((((b.putBe32 Offset.ackno conn.rcvNxt).putBe32 Offset.seqno conn.sndNxt).put
      Offset.proto UIP_PROTO_TCP).putU16 Offset.srcport conn.lport).putU16
      Offset.destport conn.rport).putBe32 Offset.srcipaddr s.uip.uipHostaddr).putBe32
      Offset.destipaddr conn.ripaddr).putBe16 Offset.wnd window

/-- The label `tcp_send_noopts`. -/
def tcpSendNoopts (s : System) (c : Fin UIP_CONNS) : Option System :=
  tcpSend (s.mapBuf fun b => b.put Offset.tcpoffset 0x50) c

/-- The label `tcp_send_nodata`, with `BUF->flags` set on the way to it. -/
def tcpSendNodata (s : System) (c : Fin UIP_CONNS) (flags : Byte) : Option System :=
  tcpSendNoopts ((s.mapBuf fun b => b.put Offset.tcpflags flags).setLen UIP_IPTCPH_LEN) c

/-- The label `tcp_send_ack`. -/
def tcpSendAck (s : System) (c : Fin UIP_CONNS) : Option System := s.tcpSendNodata c TCP_ACK

/-- The label `tcp_send_finack`. -/
def tcpSendFinack (s : System) (c : Fin UIP_CONNS) : Option System :=
  s.tcpSendNodata c (TCP_FIN ||| TCP_ACK)

/-- The label `tcp_send_syn`, with the other flags set before it: none, or
`TCP_ACK` from `tcp_send_synack`. -/
def tcpSendSyn (s : System) (c : Fin UIP_CONNS) (flags : Byte) : Option System :=
  let s := s.mapBuf fun b =>
    (((((b.put Offset.tcpflags (flags ||| TCP_SYN)).put Offset.optdata 2).put
      (Offset.optdata + 1) 4).put (Offset.optdata + 2) (BitVec.ofNat 8 (UIP_TCP_MSS / 256))).put
      (Offset.optdata + 3) (BitVec.ofNat 8 UIP_TCP_MSS)).put Offset.tcpoffset 0x60
  tcpSend (s.setLen (UIP_IPTCPH_LEN + 4)) c

def tcpSendSynack (s : System) (c : Fin UIP_CONNS) : Option System := s.tcpSendSyn c TCP_ACK

/-- The label `reset`. -/
def reset (s : System) : Option System :=
  let b := s.uip.uipBuf
  if has (b Offset.tcpflags) TCP_RST then some s.drop
  else
    tcpSendNoconn <| setLen
      (s.mapBuf fun b =>
        (((((((b.put Offset.tcpflags (TCP_RST ||| TCP_ACK)).put Offset.tcpoffset 0x50).putBe32
          Offset.seqno (b.be32 Offset.ackno)).putBe32 Offset.ackno (b.be32 Offset.seqno + 1)).putU16
          Offset.srcport (b.u16 Offset.destport)).putU16 Offset.destport (b.u16 Offset.srcport)).putBe32
          Offset.destipaddr (b.be32 Offset.srcipaddr)).putBe32 Offset.srcipaddr s.uip.uipHostaddr)
      UIP_IPTCPH_LEN

/-- The label `udp_send`. -/
def udpSend (s : System) (i : Fin UIP_UDP_CONNS) : Option System := do
  if s.uip.uipSlen = 0 then return s.drop
  let conn := s.uipUdpConns i
  let s := s.setLen (add16 s.uip.uipSlen UIP_IPUDPH_LEN)
  let s := s.mapBuf fun b =>
    ((((((((b.putBe16 Offset.len s.uip.uipLen).put Offset.ttl conn.ttl).put
      Offset.proto UIP_PROTO_UDP).putBe16 Offset.udplen (add16 s.uip.uipSlen UIP_UDPH_LEN)).putU16
      Offset.udpchksum 0).putU16 Offset.srcport conn.lport).putU16 Offset.destport conn.rport).putBe32
      Offset.srcipaddr s.uip.uipHostaddr).putBe32 Offset.destipaddr conn.ripaddr
  let s := s.setAppdata (UIP_LLH_LEN + UIP_IPTCPH_LEN)
  let sum ← s.upperLayerChksum UIP_PROTO_UDP
  let udpchksum := if not16 sum = 0 then 0xffff else not16 sum
  return (s.mapBuf fun b => b.putU16 Offset.udpchksum udpchksum).ipSendNolen

end System

-- ---------------------------------------------------------------------------
-- ARP
-- ---------------------------------------------------------------------------

namespace Buf

def ethaddr (b : Buf) (i : Nat) : List Byte := Lib.load b i 6

def putEthaddr (b : Buf) (i : Nat) (a : List Byte) : Buf := Lib.store b i a

end Buf

/-- An entry in use, as `uip_arp_update` tests it: both halves of the address
are non-zero. -/
def ArpEntry.used (e : ArpEntry) : Bool :=
  e.ipaddr.extractLsb' 16 16 != 0 && e.ipaddr.extractLsb' 0 16 != 0

namespace Uip

/-- The oldest entry, by the loop over `tmpage`. -/
def arpOldest (u : Uip) : Fin UIP_ARPTAB_SIZE :=
  ((List.finRange UIP_ARPTAB_SIZE).foldl (fun (best : BitVec 8 × Fin UIP_ARPTAB_SIZE) i =>
    let age := u.arptime.toNat - (u.arpTable i).time.toNat
    if (u.arpTable i).time ≤ u.arptime ∧ best.1.toNat < age then (BitVec.ofNat 8 age, i) else best)
    (0, 0)).2

def arpUpdate (u : Uip) (ipaddr : BitVec 32) (ethaddr : List Byte) : Uip :=
  let all := List.finRange UIP_ARPTAB_SIZE
  match all.find? fun i => (u.arpTable i).used && (u.arpTable i).ipaddr == ipaddr with
  | some i =>
    { u with arpTable := Function.update u.arpTable i { u.arpTable i with ethaddr, time := u.arptime } }
  | none =>
    let i := (all.find? fun i => (u.arpTable i).ipaddr == 0).getD u.arpOldest
    { u with arpTable := Function.update u.arpTable i ⟨ipaddr, ethaddr, u.arptime⟩ }

def arpIpin (u : Uip) : Uip :=
  let u := { u with uipLen := sub16 u.uipLen UIP_LLH_LEN }
  let src := u.uipBuf.be32 Offset.srcipaddr
  if src &&& u.uipNetmask ≠ u.uipHostaddr &&& u.uipNetmask then u
  else u.arpUpdate src (u.uipBuf.ethaddr Offset.ethSrc)

def ARP_REQUEST : Nat := 1
def ARP_REPLY : Nat := 2

def arpArpin (u : Uip) : Uip :=
  let b := u.uipBuf
  if u.uipLen < UIP_ARPHDRSIZE then { u with uipLen := 0 }
  else
    let u := { u with uipLen := 0 }
    if b.be32 Offset.dipaddr ≠ u.uipHostaddr then u
    else if b.be16 Offset.opcode = ARP_REQUEST then
      let u := u.arpUpdate (b.be32 Offset.sipaddr) (b.ethaddr Offset.shwaddr)
      let dhwaddr := b.ethaddr Offset.shwaddr
      { u with
        uipBuf := (((((((b.putBe16 Offset.opcode ARP_REPLY).putEthaddr Offset.dhwaddr dhwaddr).putEthaddr
          Offset.shwaddr u.uipEthaddr).putEthaddr Offset.ethSrc u.uipEthaddr).putEthaddr
          Offset.ethDest dhwaddr).putBe32 Offset.dipaddr (b.be32 Offset.sipaddr)).putBe32
          Offset.sipaddr u.uipHostaddr).putBe16 Offset.ethType UIP_ETHTYPE_ARP
        uipLen := UIP_ARPHDRSIZE }
    else if b.be16 Offset.opcode = ARP_REPLY then
      u.arpUpdate (b.be32 Offset.sipaddr) (b.ethaddr Offset.shwaddr)
    else u

/-- The Ethernet header of an IP packet, at the end of `uip_arp_out`. -/
def ethHeader (u : Uip) (dest : List Byte) : Uip :=
  { u with
    uipBuf := ((u.uipBuf.putEthaddr Offset.ethDest dest).putEthaddr Offset.ethSrc u.uipEthaddr).putBe16
      Offset.ethType UIP_ETHTYPE_IP
    uipLen := add16 u.uipLen UIP_LLH_LEN }

/-- The ARP request for `ipaddr` that takes the packet's place. -/
def arpRequest (u : Uip) (ipaddr : BitVec 32) : Uip :=
  { u with
    uipBuf := (((((((((((u.uipBuf.putEthaddr Offset.ethDest (List.replicate 6 0xff)).putEthaddr
      Offset.dhwaddr (List.replicate 6 0)).putEthaddr Offset.ethSrc u.uipEthaddr).putEthaddr
      Offset.shwaddr u.uipEthaddr).putBe32 Offset.dipaddr ipaddr).putBe32
      Offset.sipaddr u.uipHostaddr).putBe16 Offset.opcode ARP_REQUEST).putBe16 Offset.hwtype 1).putBe16
      Offset.protocol UIP_ETHTYPE_IP).put Offset.hwlen 6).put Offset.protolen 4).putBe16
      Offset.ethType UIP_ETHTYPE_ARP
    uipAppdata := UIP_TCPIP_HLEN + UIP_LLH_LEN
    uipLen := UIP_ARPHDRSIZE }

def arpOut (u : Uip) : Uip :=
  let dest := u.uipBuf.be32 Offset.destipaddr
  if dest = 0xffffffff then u.ethHeader (List.replicate 6 0xff)
  else
    let ipaddr := if dest &&& u.uipNetmask ≠ u.uipHostaddr &&& u.uipNetmask then u.uipDraddr else dest
    match (List.finRange UIP_ARPTAB_SIZE).find? fun i => (u.arpTable i).ipaddr == ipaddr with
    | none => u.arpRequest ipaddr
    | some i => u.ethHeader (u.arpTable i).ethaddr

end Uip

end UIPEthernet
