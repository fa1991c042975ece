import UIPEthernet.UIPEthernetClass

/-!
# The calls of a sketch

Every call of the sketch is a sequence of the atomic pieces of `Action`: a
`tick`, and what the call does before or behind it. `connect` is `stop`,
`connect` and ticks until the connection is established, and then takes the
entry from `appstate`; `write` is attempts behind a tick each; a call of
`UIPServer` is one of these for an entry of `all_data`. Frames arrive in the
receive buffer between them.
-/

namespace UIPEthernet

inductive Action
  /-- The controller has received frames into its ring. -/
  | arrive (ring : List Byte) (frames : Nat)
  | tick (now : BitVec 32) (nullTimer : Fin UIP_CONNS → BitVec 32)
  | configure (ip gateway subnet : BitVec 32)
  | listen (port : Nat)
  | connect (ip : BitVec 32) (port : Nat)
  | stop (data : Option (Fin UIP_CONNS))
  | write (data : Option (Fin UIP_CONNS)) (now : BitVec 32) (buf : List Byte)
  | read (data : Option (Fin UIP_CONNS)) (size : Nat)
  | flush (data : Option (Fin UIP_CONNS))
  | udpBegin (k port : Nat)
  | udpStop (k : Nat)
  | beginPacket (k : Nat) (ip : BitVec 32) (port : Nat)
  | udpWrite (k : Nat) (buffer : List Byte)
  | endPacket (k : Nat)
  | parsePacket (k : Nat)
  | udpRead (k len : Nat)
  | udpFlush (k : Nat)

namespace System

/-- The ring lies from `RXSTART_INIT` on. -/
def arrive (s : System) (ring : List Byte) (frames : Nat) : System :=
  { s with
    net := { s.net with
      ram := Lib.store s.net.ram RXSTART_INIT (ring.take (RXSTOP_INIT + 1))
      EPKTCNT := s.net.EPKTCNT + frames } }

def step (s : System) : Action → Option System
  | .arrive ring frames => some (s.arrive ring frames)
  | .tick now nullTimer => s.tick now nullTimer
  | .configure ip gateway subnet => some (s.configure ip gateway subnet)
  | .listen port => some (s.uipListen (htons port))
  | .connect ip port => (s.uipConnect ip (htons port)).map (·.1)
  | .stop data => UIPClient.stop s data
  | .write data now buf => (UIPClient.attempt s data now buf).map (·.1)
  | .read data size => (UIPClient.read s data size).map (·.1)
  | .flush data => UIPClient.flush s data
  | .udpBegin k port => (UIPUDP.begin s k port).map (·.1)
  | .udpStop k => UIPUDP.stop s k
  | .beginPacket k ip port => (UIPUDP.beginPacket s k ip port).map (·.1)
  | .udpWrite k buffer => some (UIPUDP.write s k buffer).1
  | .endPacket k => (UIPUDP.endPacket s k).map (·.1)
  | .parsePacket k => (UIPUDP.parsePacket s k).map (·.1)
  | .udpRead k len => (UIPUDP.read s k len).map (·.1)
  | .udpFlush k => UIPUDP.flush s k

end System

/-- `UIPServer::available` behind the `tick`. -/
def UIPServer.available (s : System) (port : Nat) : Option (Fin UIP_CONNS) :=
  let conn (d : Userdata) := s.uipConns (Fin.ofNat UIP_CONNS (d.state &&& UIP_CLIENT_SOCKETS).toNat)
  (List.finRange UIP_CONNS).find? fun u =>
    let d := s.allData u
    d.packetsIn 0 ≠ NOBLOCK ∧
      ((has d.state UIP_CLIENT_CONNECTED ∧ (conn d).lport = port) ∨
        (has d.state UIP_CLIENT_REMOTECLOSED ∧ d.lport = port))

end UIPEthernet
