import UIPEthernet.UIPUdp

/-!
# uip_process

The function of `uip.c` label by label: the timers, the poll of one
connection, and the input of a packet. A label that the code reaches by `goto`
is a function. It is `none` where the code never ends: in the checksum of a
length the 16-bit index steps over, and in TCP options whose lengths lead the
8-bit index `c` around.
-/

namespace UIPEthernet

def Conn.outstanding (conn : Conn) : Bool := conn.len != 0

namespace System

open TcpState

/-- `uip_add_rcv_nxt`. -/
def addRcvNxt (s : System) (c : Fin UIP_CONNS) (n : Nat) : System :=
  s.mapConn c fun conn => { conn with rcvNxt := conn.rcvNxt + BitVec.ofNat 32 n }

def setTcpState (s : System) (c : Fin UIP_CONNS) (state : TcpState) : System :=
  s.mapConn c fun conn => { conn with tcpstateflags := state }

def setTcpFlags (s : System) (flags : Byte) : System :=
  s.mapBuf fun b => b.put Offset.tcpflags flags

-- ---------------------------------------------------------------------------
-- What the application has to send
-- ---------------------------------------------------------------------------

/-- The label `apprexmit`. -/
def apprexmit (s : System) (c : Fin UIP_CONNS) : Option System :=
  let s := s.setAppdata (UIP_IPTCPH_LEN + UIP_LLH_LEN)
  if 0 < s.uip.uipSlen ∧ 0 < (s.uipConns c).len then
    ((s.setLen (add16 (s.uipConns c).len UIP_TCPIP_HLEN)).setTcpFlags (TCP_ACK ||| TCP_PSH)).tcpSendNoopts c
  else if has s.uip.uipFlags UIP_NEWDATA then
    ((s.setLen UIP_TCPIP_HLEN).setTcpFlags TCP_ACK).tcpSendNoopts c
  else some s.drop

/-- The part of `appsend` that fixes the length of the segment. -/
def segment (s : System) (c : Fin UIP_CONNS) : System :=
  if 0 < s.uip.uipSlen then
    let s := if has s.uip.uipFlags UIP_ACKDATA then s.mapConn c fun conn => { conn with len := 0 } else s
    let conn := s.uipConns c
    if conn.len = 0 then
      -- not more than the mss
      let slen := min s.uip.uipSlen conn.mss
      (s.setSlen slen).mapConn c fun conn => { conn with len := slen }
    else s.setSlen conn.len
  else s

/-- The label `appsend`. -/
def appsend (s : System) (c : Fin UIP_CONNS) : Option System :=
  if has s.uip.uipFlags UIP_ABORT then
    ((s.setSlen 0).setTcpState c UIP_CLOSED).tcpSendNodata c (TCP_RST ||| TCP_ACK)
  else if has s.uip.uipFlags UIP_CLOSE then
    ((s.setSlen 0).mapConn c fun conn =>
      { conn with len := 1, tcpstateflags := UIP_FIN_WAIT_1, nrtx := 0 }).tcpSendFinack c
  else ((s.segment c).mapConn c fun conn => { conn with nrtx := 0 }).apprexmit c

/-- `UIP_APPCALL()` with the given `uip_flags`. -/
def appcall (s : System) (c : Fin UIP_CONNS) (flags : BitVec 8) : Option System :=
  uipclientAppcall (s.setFlags flags) c

-- ---------------------------------------------------------------------------
-- The timers
-- ---------------------------------------------------------------------------

/-- A retransmission, by the state of the connection. -/
def retransmit (s : System) (c : Fin UIP_CONNS) : Option System :=
  match (s.uipConns c).tcpstateflags.state with
  | UIP_SYN_RCVD => s.tcpSendSynack c
  | UIP_SYN_SENT => s.tcpSendSyn c 0
  | UIP_ESTABLISHED => do
    let s ← s.appcall c UIP_REXMIT
    s.apprexmit c
  | UIP_FIN_WAIT_1 | UIP_CLOSING | UIP_LAST_ACK => s.tcpSendFinack c
  | _ => some s.drop

/-- The retransmission timer of a connection with outstanding data. -/
def rexmitTimer (s : System) (c : Fin UIP_CONNS) : Option System := do
  let conn := s.uipConns c
  let s := s.mapConn c fun conn => { conn with timer := conn.timer - 1 }
  if conn.timer = 0 then
    let syn := conn.tcpstateflags = UIP_SYN_SENT ∨ conn.tcpstateflags = UIP_SYN_RCVD
    if conn.nrtx = UIP_MAXRTX ∨ (syn ∧ conn.nrtx = UIP_MAXSYNRTX) then
      let s ← (s.setTcpState c UIP_CLOSED).appcall c UIP_TIMEDOUT
      s.tcpSendNodata c (TCP_RST ||| TCP_ACK)
    else
      -- exponential backoff
      let shift := if 4 < conn.nrtx then 4 else conn.nrtx
      (s.mapConn c fun conn => { conn with timer := UIP_RTO <<< shift, nrtx := conn.nrtx + 1 }).retransmit c
  else return s.drop

/-- The initial value of `uip_appdata` and `uip_sappdata`. -/
def initAppdata (s : System) : System := s.setAppdata (UIP_IPTCPH_LEN + UIP_LLH_LEN)

def incIss (s : System) : System := { s with uip := { s.uip with iss := s.uip.iss + 1 } }

/-- `uip_process(UIP_TIMER)`. -/
def uipTimer (s : System) (c : Fin UIP_CONNS) : Option System :=
  let s := ((s.initAppdata.incIss).setLen 0).setSlen 0
  let conn := s.uipConns c
  if conn.tcpstateflags = UIP_TIME_WAIT ∨ conn.tcpstateflags = UIP_FIN_WAIT_2 then
    let s := s.mapConn c fun conn => { conn with timer := conn.timer + 1 }
    some (if conn.timer + 1 = UIP_TIME_WAIT_TIMEOUT then s.setTcpState c UIP_CLOSED else s).drop
  else if conn.tcpstateflags = UIP_CLOSED then some s.drop
  else if conn.outstanding then s.rexmitTimer c
  else if conn.tcpstateflags.state = UIP_ESTABLISHED then do
    let s ← s.appcall c UIP_POLL
    s.appsend c
  else some s.drop

/-- `uip_process(UIP_POLL_REQUEST)`. -/
def uipPoll (s : System) (c : Fin UIP_CONNS) : Option System :=
  let s := s.initAppdata
  let conn := s.uipConns c
  if conn.tcpstateflags.state = UIP_ESTABLISHED ∧ !conn.outstanding then do
    let s ← s.appcall c UIP_POLL
    s.appsend c
  else some s.drop

/-- `uip_process(UIP_UDP_TIMER)`. -/
def uipUdpTimer (s : System) (i : Fin UIP_UDP_CONNS) : Option System :=
  if (s.uipUdpConns i).lport ≠ 0 then do
    let s := (((s.setAppdata (UIP_LLH_LEN + UIP_IPUDPH_LEN)).setLen 0).setSlen 0).setFlags UIP_POLL
    let s ← uipudpAppcall s i
    s.udpSend i
  else some s.initAppdata.drop

-- ---------------------------------------------------------------------------
-- The input of a UDP or ICMP packet
-- ---------------------------------------------------------------------------

/-- Whether a datagram in `uip_buf` is for the connection. -/
def udpMatches (b : Buf) (conn : UdpConn) : Bool :=
  conn.lport ≠ 0 ∧ b.u16 Offset.destport = conn.lport ∧
    (conn.rport = 0 ∨ b.u16 Offset.srcport = conn.rport) ∧
    (conn.ripaddr = 0 ∨ conn.ripaddr = 0xffffffff ∨ b.be32 Offset.srcipaddr = conn.ripaddr)

/-- The label `udp_input`. -/
def udpInput (s : System) : Option System := do
  let s := (s.setLen (sub16 s.uip.uipLen UIP_IPUDPH_LEN)).setAppdata (UIP_LLH_LEN + UIP_IPUDPH_LEN)
  let sum ← if s.uip.uipBuf.u16 Offset.udpchksum ≠ 0 then s.upperLayerChksum UIP_PROTO_UDP
    else some 0xffff
  if sum ≠ 0xffff then return s.drop
  else
    match (List.finRange UIP_UDP_CONNS).find? fun i => udpMatches s.uip.uipBuf (s.uipUdpConns i) with
    | none => return s.drop
    | some i =>
      -- the label `udp_found`
      let s ← uipudpAppcall ((s.setFlags UIP_NEWDATA).setSlen 0) i
      s.udpSend i

def ICMP_ECHO_REPLY : Byte := 0
def ICMP_ECHO : Byte := 8

/-- ICMP echo processing. -/
def icmpInput (s : System) : System :=
  if s.uip.uipBuf Offset.icmpType ≠ ICMP_ECHO then s.drop
  else
    let icmpchksum := s.uip.uipBuf.u16 Offset.icmpchksum
    let echo := htons (ICMP_ECHO.toNat * 256)
    let icmpchksum := if htons (0xffff - ICMP_ECHO.toNat * 256) ≤ icmpchksum
      then add16 icmpchksum (echo + 1) else add16 icmpchksum echo
    (s.mapBuf fun b =>
      (((b.put Offset.icmpType ICMP_ECHO_REPLY).putU16 Offset.icmpchksum icmpchksum).putBe32
        Offset.destipaddr (b.be32 Offset.srcipaddr)).putBe32 Offset.srcipaddr s.uip.uipHostaddr).send

-- ---------------------------------------------------------------------------
-- The input of a TCP segment
-- ---------------------------------------------------------------------------

/-- The loop over the TCP options, `c` being the index; the result is the MSS
option. A length of the last option may lead `c` back below `end`. -/
def mssOption (b : Buf) (stop : Nat) : Nat → Nat → Option (Option Nat)
  | 0, _ => none
  | fuel + 1, c =>
    if c < stop then
      let opt := b (Offset.optdata + c)
      let len := b (Offset.optdata + 1 + c)
      if opt = 0 then some none
      else if opt = 1 then mssOption b stop fuel ((c + 1) % 256)
      else if opt = 2 ∧ len = 4 then some (some (b.be16 (Offset.optdata + 2 + c)))
      else if len = 0 then some none
      else mssOption b stop fuel ((c + len.toNat) % 256)
    else some none

/-- Parse the TCP MSS option, if present. The index has met every value after
256 turns. -/
def parseMss (s : System) (c : Fin UIP_CONNS) : Option System := do
  let b := s.uip.uipBuf
  let words := (b Offset.tcpoffset >>> 4).toNat
  if 5 < words then
    match ← mssOption b ((words - 5) * 4) 256 0 with
    | none => return s
    | some mss =>
      let mss := min mss UIP_TCP_MSS
      return s.mapConn c fun conn => { conn with initialmss := mss, mss }
  else return s

/-- The label `found_listen`. -/
def foundListen (s : System) : Option System :=
  match s.unusedConn with
  | none => some s.drop
  | some c => do
    let b := s.uip.uipBuf
    let s := s.mapConn c fun conn =>
      { conn with
        rto := UIP_RTO, timer := UIP_RTO, sa := 0, sv := 4, nrtx := 0, lport := b.u16 Offset.destport
        rport := b.u16 Offset.srcport, ripaddr := b.be32 Offset.srcipaddr
        tcpstateflags := UIP_SYN_RCVD, sndNxt := s.uip.iss, len := 1
        rcvNxt := b.be32 Offset.seqno + 1 }
    let s ← (s.record (.opened c)).parseMss c
    s.tcpSendSynack c

/-- The RTT estimation; `m` is a `signed char`. -/
def rttEstimate (conn : Conn) : Conn :=
  let m := conn.rto - conn.timer
  let m := m - conn.sa >>> 3
  let sa := conn.sa + m
  let m := if m.msb then -m else m
  let m := m - conn.sv >>> 2
  let sv := conn.sv + m
  { conn with sa, sv, rto := sa >>> 3 + sv }

/-- The connection with its outstanding data acknowledged. -/
def ackConn (conn : Conn) : Conn :=
  let conn := { conn with sndNxt := conn.sndNxt + BitVec.ofNat 32 conn.len }
  let conn := if conn.nrtx = 0 then rttEstimate conn else conn
  { conn with timer := conn.rto, len := 0 }

/-- An acknowledgement of the outstanding data, `uip_flags` being 0 before. -/
def ackInput (s : System) (c : Fin UIP_CONNS) : System :=
  let conn := s.uipConns c
  let b := s.uip.uipBuf
  if has (b Offset.tcpflags) TCP_ACK ∧ conn.outstanding ∧
      b.be32 Offset.ackno = conn.sndNxt + BitVec.ofNat 32 conn.len then
    (s.mapConn c ackConn).setFlags UIP_ACKDATA
  else s

/-- Segments in SYN_RCVD. -/
def synRcvdInput (s : System) (c : Fin UIP_CONNS) : Option System :=
  if has s.uip.uipFlags UIP_ACKDATA then do
    let s := s.mapConn c fun conn => { conn with tcpstateflags := UIP_ESTABLISHED, len := 0 }
    let data := 0 < s.uip.uipLen
    let s := if data then s.addRcvNxt c s.uip.uipLen else s
    let flags := if data then UIP_CONNECTED ||| UIP_NEWDATA else UIP_CONNECTED
    let s ← (s.setSlen 0).appcall c flags
    s.appsend c
  else some s.drop

/-- Segments in SYN_SENT. -/
def synSentInput (s : System) (c : Fin UIP_CONNS) : Option System := do
  let b := s.uip.uipBuf
  if has s.uip.uipFlags UIP_ACKDATA ∧ b Offset.tcpflags &&& TCP_CTL = TCP_SYN ||| TCP_ACK then
    let s ← s.parseMss c
    let s := s.mapConn c fun conn =>
      { conn with tcpstateflags := UIP_ESTABLISHED, rcvNxt := b.be32 Offset.seqno + 1, len := 0 }
    let s ← ((s.setLen 0).setSlen 0).appcall c (UIP_CONNECTED ||| UIP_NEWDATA)
    s.appsend c
  else
    -- the connection failed
    let s ← s.appcall c UIP_ABORT
    (s.setTcpState c UIP_CLOSED).reset

/-- A FIN in ESTABLISHED. -/
def finInput (s : System) (c : Fin UIP_CONNS) : Option System := do
  if (s.uipConns c).outstanding then return s.drop
  else
    let s := s.addRcvNxt c (add16 1 s.uip.uipLen)
    let flags := s.uip.uipFlags ||| UIP_CLOSE
    let flags := if 0 < s.uip.uipLen then flags ||| UIP_NEWDATA else flags
    let s ← s.appcall c flags
    (s.mapConn c fun conn =>
      { conn with len := 1, tcpstateflags := UIP_LAST_ACK, nrtx := 0 }).tcpSendFinack c

/-- The URG flag: the urgent data is skipped. -/
def skipUrgent (s : System) : System :=
  let b := s.uip.uipBuf
  if has (b Offset.tcpflags) TCP_URG then
    let urgp := b.be16 Offset.urgp
    (s.setAppdata (add16 s.uip.uipAppdata urgp)).setLen (sub16 s.uip.uipLen urgp)
  else s

/-- New data in ESTABLISHED, which a stopped connection does not accept. -/
def acceptData (s : System) (c : Fin UIP_CONNS) : System :=
  if 0 < s.uip.uipLen ∧ !(s.uipConns c).tcpstateflags.stopped then
    (s.setFlags (s.uip.uipFlags ||| UIP_NEWDATA)).addRcvNxt c s.uip.uipLen
  else s

/-- The mss from the advertised window. -/
def updateMss (s : System) (c : Fin UIP_CONNS) : System :=
  let wnd := s.uip.uipBuf.be16 Offset.wnd
  s.mapConn c fun conn =>
    { conn with mss := if conn.initialmss < wnd ∨ wnd = 0 then conn.initialmss else wnd }

/-- Segments in ESTABLISHED. -/
def establishedInput (s : System) (c : Fin UIP_CONNS) : Option System :=
  if has (s.uip.uipBuf Offset.tcpflags) TCP_FIN ∧ !(s.uipConns c).tcpstateflags.stopped then s.finInput c
  else
    let s := (s.skipUrgent.acceptData c).updateMss c
    if has s.uip.uipFlags (UIP_NEWDATA ||| UIP_ACKDATA) then do
      let s ← (s.setSlen 0).appcall c s.uip.uipFlags
      s.appsend c
    else some s.drop

/-- A FIN in FIN_WAIT_1 or FIN_WAIT_2. -/
def finWaitFin (s : System) (c : Fin UIP_CONNS) : Option System := do
  let s ← (s.addRcvNxt c 1).appcall c UIP_CLOSE
  s.tcpSendAck c

/-- Segments in FIN_WAIT_1. -/
def finWait1Input (s : System) (c : Fin UIP_CONNS) : Option System :=
  let s := if 0 < s.uip.uipLen then s.addRcvNxt c s.uip.uipLen else s
  let acked := has s.uip.uipFlags UIP_ACKDATA
  if has (s.uip.uipBuf Offset.tcpflags) TCP_FIN then
    finWaitFin (s.mapConn c fun conn =>
      if acked then { conn with tcpstateflags := UIP_TIME_WAIT, timer := 0, len := 0 }
      else { conn with tcpstateflags := UIP_CLOSING }) c
  else if acked then
    some (s.mapConn c fun conn => { conn with tcpstateflags := UIP_FIN_WAIT_2, len := 0 }).drop
  else if 0 < s.uip.uipLen then s.tcpSendAck c
  else some s.drop

/-- Segments in FIN_WAIT_2. -/
def finWait2Input (s : System) (c : Fin UIP_CONNS) : Option System :=
  let s := if 0 < s.uip.uipLen then s.addRcvNxt c s.uip.uipLen else s
  if has (s.uip.uipBuf Offset.tcpflags) TCP_FIN then
    finWaitFin (s.mapConn c fun conn => { conn with tcpstateflags := UIP_TIME_WAIT, timer := 0 }) c
  else if 0 < s.uip.uipLen then s.tcpSendAck c
  else some s.drop

/-- The `switch` over the state of the connection. -/
def stateInput (s : System) (c : Fin UIP_CONNS) : Option System :=
  let acked := has s.uip.uipFlags UIP_ACKDATA
  match (s.uipConns c).tcpstateflags.state with
  | UIP_CLOSED => some s.drop
  | UIP_SYN_RCVD => s.synRcvdInput c
  | UIP_SYN_SENT => s.synSentInput c
  | UIP_ESTABLISHED => s.establishedInput c
  | UIP_LAST_ACK =>
    if acked then do
      let s ← (s.setTcpState c UIP_CLOSED).appcall c UIP_CLOSE
      return s.drop
    else some s.drop
  | UIP_FIN_WAIT_1 => s.finWait1Input c
  | UIP_FIN_WAIT_2 => s.finWait2Input c
  | UIP_TIME_WAIT => s.tcpSendAck c
  | UIP_CLOSING =>
    some (if acked then s.mapConn c fun conn => { conn with tcpstateflags := UIP_TIME_WAIT, timer := 0 }
      else s).drop

/-- The label `found`, for the connection of the segment. -/
def found (s : System) (c : Fin UIP_CONNS) : Option System := do
  let s := s.setFlags 0
  let b := s.uip.uipBuf
  if has (b Offset.tcpflags) TCP_RST then
    let s ← (s.setTcpState c UIP_CLOSED).appcall c UIP_ABORT
    return s.drop
  else
    let hdrlen := (b Offset.tcpoffset >>> 4).toNat * 4
    let s := s.setLen (sub16 (sub16 s.uip.uipLen hdrlen) UIP_IPH_LEN)
    let conn := s.uipConns c
    let flags := b Offset.tcpflags
    let synack := conn.tcpstateflags.state = UIP_SYN_SENT ∧ flags &&& TCP_CTL = TCP_SYN ||| TCP_ACK
    -- a segment that is not the one expected next
    if ¬synack ∧ (0 < s.uip.uipLen ∨ has flags (TCP_SYN ||| TCP_FIN)) ∧
        b.be32 Offset.seqno ≠ conn.rcvNxt then s.tcpSendAck c
    else (s.ackInput c).stateInput c

/-- Whether a segment in `uip_buf` belongs to the connection. -/
def tcpMatches (b : Buf) (conn : Conn) : Bool :=
  conn.tcpstateflags ≠ UIP_CLOSED ∧ b.u16 Offset.destport = conn.lport ∧
    b.u16 Offset.srcport = conn.rport ∧ b.be32 Offset.srcipaddr = conn.ripaddr

/-- The label `tcp_input`. -/
def tcpInput (s : System) : Option System := do
  let sum ← s.upperLayerChksum UIP_PROTO_TCP
  let b := s.uip.uipBuf
  if sum ≠ 0xffff then return s.drop
  else
    match (List.finRange UIP_CONNS).find? fun c => tcpMatches b (s.uipConns c) with
    | some c => s.found c
    | none =>
      if b Offset.tcpflags &&& TCP_CTL ≠ TCP_SYN then s.reset
      else if (List.finRange UIP_LISTENPORTS).any fun i => s.uip.uipListenports i = b.u16 Offset.destport
      then s.foundListen
      else s.reset

/-- `uip_process(UIP_DATA)`. -/
def uipInput (s : System) : Option System :=
  let s := s.initAppdata
  let b := s.uip.uipBuf
  let len := b.be16 Offset.len
  if b Offset.vhl ≠ 0x45 then some s.drop
  else if s.uip.uipLen < len then some s.drop
  else
    let s := s.setLen len
    if b.be16 Offset.ipoffset &&& 0x3fff ≠ 0 then some s.drop
    else if s.uip.uipHostaddr ≠ 0 ∧ b Offset.proto = UIP_PROTO_UDP ∧
        b.be32 Offset.destipaddr = 0xffffffff then s.udpInput
    else if s.uip.uipHostaddr ≠ 0 ∧ b.be32 Offset.destipaddr ≠ s.uip.uipHostaddr then some s.drop
    else if s.uip.ipchksum ≠ 0xffff then some s.drop
    else if b Offset.proto = UIP_PROTO_TCP then s.tcpInput
    else if b Offset.proto = UIP_PROTO_UDP then s.udpInput
    else if b Offset.proto ≠ UIP_PROTO_ICMP then some s.drop
    else some s.icmpInput

end System

end UIPEthernet
