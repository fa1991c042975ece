import UIPEthernet.UIPClient

/-!
# Opening connections

`uip_init`, `uip_connect`, `uip_listen` and `uip_udp_new`. The search for a
local port takes at most one turn more than there are connections, and is
`none` beyond that.
-/

namespace UIPEthernet

namespace System

/-- `++lastport` with its wrap. -/
def nextPort (lastport : Nat) : Nat :=
  let port := add16 lastport 1
  if 32000 ≤ port then 4096 else port

/-- The loop at `again`. -/
def localPort (inUse : Nat → Bool) : Nat → Nat → Option Nat
  | 0, _ => none
  | fuel + 1, lastport =>
    let port := nextPort lastport
    if inUse (htons port) then localPort inUse fuel port else some port

/-- The slot for a new connection: the first that is closed, else the one that
has been longest in TIME_WAIT. -/
def unusedConn (s : System) : Option (Fin UIP_CONNS) :=
  let flags c := (s.uipConns c).tcpstateflags
  let conns := List.finRange UIP_CONNS
  match conns.find? fun c => flags c = TcpState.UIP_CLOSED with
  | some c => some c
  | none =>
    (conns.filter fun c => flags c = TcpState.UIP_TIME_WAIT).foldl
      (fun conn c => match conn with
        | none => some c
        | some best =>
          if (s.uipConns best).timer < (s.uipConns c).timer then some c else some best)
      none

def uipConnect (s : System) (ripaddr : BitVec 32) (rport : Nat) :
    Option (System × Option (Fin UIP_CONNS)) := do
  let inUse port := (List.finRange UIP_CONNS).any fun c =>
    (s.uipConns c).tcpstateflags ≠ TcpState.UIP_CLOSED ∧ (s.uipConns c).lport = port
  let lastport ← localPort inUse (UIP_CONNS + 1) s.uip.lastport
  let s := { s with uip := { s.uip with lastport } }
  match s.unusedConn with
  | none => return (s, none)
  | some c =>
    let s := s.mapConn c fun conn =>
      { conn with
        tcpstateflags := TcpState.UIP_SYN_SENT, sndNxt := s.uip.iss, initialmss := UIP_TCP_MSS
        mss := UIP_TCP_MSS, len := 1, nrtx := 0, timer := 1, rto := UIP_RTO, sa := 0, sv := 16
        lport := htons lastport, rport, ripaddr }
    return (s.record (.opened c), some c)

def uipListen (s : System) (port : Nat) : System :=
  match (List.finRange UIP_LISTENPORTS).find? fun i => s.uip.uipListenports i = 0 with
  | none => s
  | some i =>
    { s with uip := { s.uip with uipListenports := Function.update s.uip.uipListenports i port } }

/-- `uip_udp_new`, with `none` in place of NULL for the address. -/
def uipUdpNew (s : System) (ripaddr : Option (BitVec 32)) (rport : Nat) :
    Option (System × Option (Fin UIP_UDP_CONNS)) := do
  let conns := List.finRange UIP_UDP_CONNS
  let inUse port := conns.any fun i => (s.uipUdpConns i).lport = port
  let lastport ← localPort inUse (UIP_UDP_CONNS + 1) s.uip.lastport
  let s := { s with uip := { s.uip with lastport } }
  match conns.find? fun i => (s.uipUdpConns i).lport = 0 with
  | none => return (s, none)
  | some i =>
    let conn := { s.uipUdpConns i with
      lport := htons lastport, rport, ripaddr := ripaddr.getD 0, ttl := UIP_TTL }
    return ({ s with uipUdpConns := Function.update s.uipUdpConns i conn }, some i)

end System

end UIPEthernet
