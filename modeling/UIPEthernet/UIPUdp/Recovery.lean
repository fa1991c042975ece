import UIPEthernet.Mempool.Chain
import UIPEthernet.Uip.Validation
import UIPEthernet.UIPEthernetClass.FrameLength
import UIPEthernet.UIPUdp.Destination

/-!
# A packet that waits

A packet that could not be sent is tried again at every turn of `tick` for its
connection. With the next hop in the ARP table and a working transmitter it is
gone behind the next one, unless nothing has been written to it: `uip_process`
takes a datagram without a payload for nothing to send.
-/

namespace UIPEthernet

open MemoryPool Lib

namespace Enc28J60Network

variable {e e' : Enc28J60Network} {h : Handle} {size : Nat}

theorem allocBlock_chained (hc : Chained e.blocks) (hsize : 1 ≤ size) (halloc : e.allocBlock size = some (e', h)) :
    Chained e'.blocks := by
  obtain ⟨⟨blocks, ram, h'⟩, hpool, halloc⟩ := Option.bind_eq_some_iff.mp halloc
  cases halloc
  exact MemoryPool.allocBlock_chained hc hsize hpool

theorem freeBlock_back (hc : Chained e.blocks) (h : Handle) : ∃ e', e.freeBlock h = some e' ∧ Chained e'.blocks := by
  obtain ⟨blocks, hpool, hc'⟩ := MemoryPool.freeBlock_chained hc h
  exact ⟨{ e with blocks }, Option.bind_eq_some_iff.mpr ⟨blocks, hpool, rfl⟩, hc'⟩

theorem freeBlock_chained (hc : Chained e.blocks) (hfree : e.freeBlock h = some e') : Chained e'.blocks := by
  obtain ⟨e₁, he₁, hc₁⟩ := freeBlock_back hc h
  obtain rfl := Option.some.inj (he₁.symm.trans hfree)
  exact hc₁

theorem sendPacket_outcome (e : Enc28J60Network) (h : Handle) : (e.sendPacket h).2 = e.outcome := by
  simp only [sendPacket, outcome]
  cases e.transmissions with
  | nil => rfl
  | cons t rest => rfl

end Enc28J60Network

namespace System

open Enc28J60Network

variable {s s' : System}

theorem networkSend_chained {ok : Bool} (hc : Chained s.net.blocks) (hlen : ¬has s.packetstate UIPETHERNET_SENDPACKET →
    1 ≤ add16 s.uip.uipLen (UIP_SENDBUFFER_OFFSET + UIP_SENDBUFFER_PADDING)) (h : s.networkSend = some (s', ok)) :
    Chained s'.net.blocks := by
  rcases networkSend_cases h with ⟨-, net, hsent, hnet⟩ | ⟨hset, net, b, halloc, hnet⟩
  · rw [← writeSend_blocks hsent] at hc
    split at hnet
    · exact freeBlock_chained hc hnet
    · rw [hnet]
      exact hc
  · have hc' := allocBlock_chained hc (hlen hset) halloc
    split at hnet
    · rw [hnet]
      exact hc'
    · obtain ⟨net', hsent, hfree⟩ := hnet
      rw [← writeSend_blocks hsent] at hc'
      exact freeBlock_chained hc' hfree

end System

namespace UIPUDP

open Enc28J60Network UIPEthernet.System

inductive PacketCall
  | beginPacket (ip : BitVec 32) (port : Nat)
  | write (buffer : List Byte)
  | endPacket
  | poll
  | arrive
  | begin (port : Nat)
  | stop
  | other

/-- The other sockets and connections leave the socket alone, and the chain of
the pool as it has to be. -/
structure Around (k : Nat) (s s' : System) : Prop extends Outside k s s' where
  lport : ∀ i, (s.sockets k).uipUdpConn = some i → (s'.uipUdpConns i).lport = (s.uipUdpConns i).lport
  chained : Chained s.net.blocks → Chained s'.net.blocks

inductive PacketStep (k : Nat) (s : System) : PacketCall → System → Prop
  | beginPacket (hcall : beginPacket s k ip port = some (s', success)) : PacketStep k s (.beginPacket ip port) s'
  | write (hcall : write s k buffer = (s', n)) : PacketStep k s (.write buffer) s'
  | endPacket (hcall : endPacket s k = some (s', success)) : PacketStep k s .endPacket s'
  | poll (happ : (s.uipUdpConns i).appstate = some k) (hcall : tickUdp s i = some s') : PacketStep k s .poll s'
  | arrive (hconn : (s.sockets k).uipUdpConn = some i) (happ : (s.uipUdpConns i).appstate = some k)
      (hflags : s.uip.uipFlags = UIP_NEWDATA) (hcall : uipudpAppcall s i = some s') : PacketStep k s .arrive s'
  | begin (hcall : begin s k port = some (s', success)) : PacketStep k s (.begin port) s'
  | stop (hcall : stop s k = some s') : PacketStep k s .stop s'
  | other (hother : Around k s s') : PacketStep k s .other s'

/-- The length of a packet fits 16 bits, a datagram that is queued has a
payload, and a local port is not 0. -/
def Regular (k : Nat) (s : System) : PacketCall → Prop
  | .endPacket => (s.sockets k).appdata.packetOut ≠ NOBLOCK →
      (s.sockets k).appdata.outPos + UIP_SENDBUFFER_PADDING < 65536
  | .arrive => (s.sockets k).appdata.packetNext = NOBLOCK → payloadSize s ≠ 0
  | .begin port => htons port ≠ 0
  | _ => True

/-- The socket can send another packet if there is a block for it. -/
structure Cleared (s : System) (k : Nat) : Prop where
  packetOut : (s.sockets k).appdata.packetOut = NOBLOCK
  send : (s.sockets k).appdata.send = false
  begins : ∀ ip port, (∃ s', beginPacket s k ip port = some (s', true)) ↔ ∃ net h,
    s.net.allocBlock (UIP_UDP_MAXPACKETSIZE + UIP_SENDBUFFER_OFFSET + UIP_SENDBUFFER_PADDING) = some (net, h) ∧ h ≠ NOBLOCK

/-- What every step leaves of the socket: a packet has a block of the chain with
room for the headers, and the connection is open. -/
structure Recoverable (k : Nat) (s : System) : Prop where
  aimed : Aimed k s (some (remote s k))
  chained : Chained s.net.blocks
  lport : ∀ i, (s.sockets k).uipUdpConn = some i → (s.uipUdpConns i).lport ≠ 0
  handle : (s.sockets k).appdata.packetOut ≤ MEMPOOL_NUM_MEMBLOCKS

variable {s s' : System} {k : Nat} {i : Fin UIP_UDP_CONNS} {a : Option Address}

theorem Aimed.here (ha : Aimed k s a) : Aimed k s (some (remote s k)) :=
  ⟨ha.paired, ha.idle, ha.opened, fun _ => rfl, ha.pos, ha.size⟩

-- ---------------------------------------------------------------------------
-- The attempts
-- ---------------------------------------------------------------------------

theorem send_chained (hset : has s.packetstate UIPETHERNET_SENDPACKET) (hc : Chained s.net.blocks)
    (h : send s k = some s') : Chained s'.net.blocks := by
  simp only [send, Option.bind_eq_bind, Option.pure_def] at h
  split at h
  · rename_i hlen
    obtain ⟨⟨s₁, ok⟩, hsend, h⟩ := Option.bind_eq_some_iff.mp h
    cases h
    let s₂ := ((s.mapUip Uip.arpOut).setUipPacket NOBLOCK).setPacketstate (s.packetstate &&& ~~~UIPETHERNET_SENDPACKET)
    have hlen₂ : s₂.uip.uipLen = UIP_ARPHDRSIZE := hlen
    exact networkSend_chained (s := s₂) hc (fun _ => by rw [hlen₂]; decide) hsend
  · obtain ⟨⟨s₁, ok⟩, hsend, h⟩ := Option.bind_eq_some_iff.mp h
    have hc' : Chained s₁.net.blocks :=
      networkSend_chained (s := s.mapUip Uip.arpOut) hc (fun hclear => absurd hset hclear) hsend
    cases ok with
    | false =>
      cases h
      exact hc'
    | true =>
      cases h
      exact hc'

theorem attempt_recoverable {s₁ : System} (hk : Recoverable k s) (happ : (s.uipUdpConns i).appstate = some k)
    (htimer : s.uipUdpTimer i = some s₁) (h : (if 0 < s₁.uip.uipLen then send s₁ k else some s₁) = some s') : Recoverable k s' := by
  have hsame := attempt_same htimer h
  obtain ⟨frames, ht, -⟩ := attempt_fronted happ hk.aimed.waits htimer h
  refine ⟨(hk.aimed.tried hsame ht).here, ?_, fun j hj => ?_, ?_⟩
  · obtain ⟨hnet, -, hprepared⟩ := timer_prepared happ htimer
    have hc : Chained s₁.net.blocks := hnet ▸ hk.chained
    split at h
    · rename_i hlen
      exact send_chained (hprepared hlen).2.send hc h
    · cases h
      exact hc
  · rw [hsame.conn] at hj
    rw [hsame.conns]
    exact hk.lport j hj
  · rcases ht.data with ⟨hout, -⟩ | ⟨hdata, -⟩
    · rw [hout]
      exact Nat.zero_le _
    · rw [hdata]
      exact hk.handle

-- ---------------------------------------------------------------------------
-- The calls
-- ---------------------------------------------------------------------------

/-- The pool and the socket's data are as they were. -/
theorem Recoverable.of_net (hk : Recoverable k s) (ha : Aimed k s' a) (hnet : s'.net = s.net)
    (hout : (s'.sockets k).appdata.packetOut = (s.sockets k).appdata.packetOut)
    (hlport : ∀ i, (s'.sockets k).uipUdpConn = some i → (s'.uipUdpConns i).lport ≠ 0) : Recoverable k s' := by
  refine ⟨ha.here, hnet ▸ hk.chained, hlport, ?_⟩
  rw [hout]
  exact hk.handle

/-- The port of a new connection is one that no other connection has, so it is
not that of the free one. -/
theorem newConn_lport {ripaddr : Option (BitVec 32)} {rport : Nat} (h : newConn s k ripaddr rport = some s')
    (hi : (s'.sockets k).uipUdpConn = some i) : (s'.uipUdpConns i).lport ≠ 0 := by
  obtain ⟨-, ⟨hnone, -⟩ | ⟨j, hj, -, hport, -⟩⟩ := newConn_rebound h
  · exact absurd (hi.symm.trans hnone) (Option.some_ne_none i)
  · obtain rfl := Option.some.inj (hj.symm.trans hi)
    exact hport

theorem write_recoverable {buffer : List Byte} {n : Nat} (hk : Recoverable k s) (h : write s k buffer = (s', n)) :
    Recoverable k s' := by
  have ha := (write_aimed hk.aimed h).here
  have hsame : SameConn k s s' := write_same h
  have hlport : ∀ i, (s'.sockets k).uipUdpConn = some i → (s'.uipUdpConns i).lport ≠ 0 := by
    rw [hsame.conn, hsame.conns]
    exact hk.lport
  simp only [write] at h
  split at h
  · cases h
    exact hk
  · cases h
    refine ⟨ha, hk.chained, hlport, ?_⟩
    rw [mapAppdata_appdata]
    exact hk.handle

theorem poll_recoverable (hk : Recoverable k s) (happ : (s.uipUdpConns i).appstate = some k)
    (h : tickUdp s i = some s') : Recoverable k s' := by
  obtain ⟨s₁, htimer, hsend⟩ := poll_attempt happ h
  exact attempt_recoverable hk happ htimer hsend

theorem Recoverable.ended (hk : Recoverable k s) (hout : (s.sockets k).appdata.packetOut ≠ NOBLOCK)
    (hmax : (s.sockets k).appdata.outPos + UIP_SENDBUFFER_PADDING < 65536) : Recoverable k (ended s k) := by
  have hdata : ((UIPUDP.ended s k).sockets k).appdata = { (s.sockets k).appdata with send := true } := by
    simp [UIPUDP.ended]
  refine ⟨(hk.aimed.ended hout hmax).here, ?_, ?_, ?_⟩
  · have hsize := (hk.aimed.size hout).1
    refine resizeBlockTo_chained hk.chained (Nat.lt_of_lt_of_le (by decide) hsize) ?_ 0
    rw [add16_eq hmax]
    exact Nat.le_add_left _ _
  · simpa [UIPUDP.ended] using hk.lport
  · rw [hdata]
    exact hk.handle

theorem endPacket_recoverable {success : Bool} (hk : Recoverable k s) (hregular : Regular k s .endPacket)
    (h : endPacket s k = some (s', success)) : Recoverable k s' := by
  by_cases hout : (s.sockets k).appdata.packetOut = NOBLOCK
  · rw [endPacket_idle hout] at h
    cases h
    exact hk
  · obtain ⟨i, hi⟩ := Option.ne_none_iff_exists'.mp (hk.aimed.opened hout)
    obtain ⟨s₁, htimer, hsend⟩ := endPacket_attempt hi hout h
    have happ : ((UIPUDP.ended s k).uipUdpConns i).appstate = some k := (hk.aimed.paired i).mp hi
    exact attempt_recoverable (hk.ended hout (hregular hout)) happ htimer hsend

theorem begin_recoverable {port : Nat} {success : Bool} (hk : Recoverable k s) (hport : htons port ≠ 0)
    (h : begin s k port = some (s', success)) : Recoverable k s' := by
  have ha := begin_aimed hk.aimed h
  have hattach : ∀ {t : System} {i}, (t.sockets k).uipUdpConn = some i → t.net = s.net →
      (t.sockets k).appdata = (s.sockets k).appdata →
      s' = t.mapUdpConn i (fun conn => { conn with lport := htons port, appstate := some k }) → Recoverable k s' := by
    rintro t i hi hnet hdata rfl
    refine hk.of_net ha hnet (congrArg UdpUserdata.packetOut hdata) fun j hj => ?_
    obtain rfl := Option.some.inj (hi.symm.trans hj)
    have hself : (t.mapUdpConn i fun conn => { conn with lport := htons port, appstate := some k }).uipUdpConns i =
        { t.uipUdpConns i with lport := htons port, appstate := some k } := Function.update_self ..
    rw [hself]
    exact hport
  simp only [begin, Option.bind_eq_bind, Option.pure_def] at h
  split at h
  · obtain ⟨s₁, hnew, h⟩ := Option.bind_eq_some_iff.mp h
    obtain ⟨hnet, hdata⟩ := newConn_ok hnew
    split at h
    · rename_i hnone
      cases h
      refine hk.of_net ha hnet (congrArg UdpUserdata.packetOut hdata) fun j hj => ?_
      exact absurd (hj.symm.trans hnone) (Option.some_ne_none j)
    · rename_i i hi
      cases h
      exact hattach hi hnet hdata rfl
  · rw [Option.bind_some] at h
    split at h
    · cases h
      exact hk
    · rename_i i hi
      cases h
      exact hattach hi rfl rfl rfl

theorem stop_recoverable (hk : Recoverable k s) (h : stop s k = some s') : Recoverable k s' := by
  have ha := stop_aimed hk.aimed h
  unfold stop at h
  split at h
  · cases h
    exact hk
  · rename_i i hi
    simp only [Option.bind_eq_bind, Option.bind_eq_some_iff, Option.pure_def, Option.some.injEq] at h
    obtain ⟨net₁, h₁, net₂, h₂, net₃, h₃, rfl⟩ := h
    have hc := freeBlock_chained (freeBlock_chained (freeBlock_chained hk.chained h₁) h₂) h₃
    have hsocket : ∀ t : System, (t.mapSocket k fun _ => ⟨none, start⟩).sockets k = ⟨none, start⟩ := by
      intro t
      exact Function.update_self _ _ _
    refine ⟨ha.here, hc, fun j hj => ?_, ?_⟩
    · rw [hsocket] at hj
      exact absurd hj (Option.some_ne_none j).symm
    · rw [hsocket]
      exact Nat.zero_le _

theorem setRemote_recoverable {ip : BitVec 32} {port : Nat} (hk : Recoverable k s)
    (h : setRemote s k ip port = some s') : Recoverable k s' := by
  unfold setRemote connectTo at h
  split at h
  · split at h
    · rename_i i hi
      cases h
      let f := fun conn : UdpConn => { conn with rport := htons port, ripaddr := ip }
      have ha : Aimed k (s.mapUdpConn i f) (some (remote (s.mapUdpConn i f) k)) :=
        hk.aimed.readdressed (mapUdpConn_paired rfl hk.aimed.paired) id (fun _ => rfl) rfl rfl rfl fun _ => rfl
      refine hk.of_net ha rfl rfl fun j hj => ?_
      obtain rfl := Option.some.inj (hi.symm.trans hj)
      have hself : (s.mapUdpConn i f).uipUdpConns i = f (s.uipUdpConns i) := Function.update_self ..
      rw [hself]
      exact hk.lport i hi
    · rename_i hclosed
      obtain ⟨s₁, hnew, h⟩ := Option.bind_eq_some_iff.mp h
      obtain ⟨hnet, hdata⟩ := newConn_ok hnew
      obtain ⟨hout, hsend, hothers⟩ := newConn_aimed hk.aimed hclosed hnew
      cases hi : (s₁.sockets k).uipUdpConn with
      | none =>
        rw [hi] at h
        cases h
        refine hk.of_net (Aimed.idle_of (a := none) (unattached_paired hi hothers) hout hsend) hnet
          (congrArg UdpUserdata.packetOut hdata) fun j hj => ?_
        exact absurd (hj.symm.trans hi) (Option.some_ne_none j)
      | some i =>
        rw [hi] at h
        cases h
        have hp := attach_paired (f := fun conn => { conn with appstate := some k }) hi rfl fun j _ => hothers j
        refine hk.of_net (Aimed.idle_of (a := none) hp hout hsend) hnet (congrArg UdpUserdata.packetOut hdata) fun j hj => ?_
        obtain rfl := Option.some.inj (hi.symm.trans hj)
        have hself : (s₁.mapUdpConn i fun conn => { conn with appstate := some k }).uipUdpConns i =
            { s₁.uipUdpConns i with appstate := some k } := Function.update_self ..
        rw [hself]
        exact newConn_lport hnew hi
  · cases h
    exact hk

theorem beginPacket_recoverable {ip : BitVec 32} {port : Nat} {success : Bool} (hk : Recoverable k s)
    (h : beginPacket s k ip port = some (s', success)) : Recoverable k s' := by
  simp only [beginPacket, Option.bind_eq_bind, Option.pure_def] at h
  obtain ⟨s₁, hto, h⟩ := Option.bind_eq_some_iff.mp h
  have hk₁ := setRemote_recoverable hk hto
  split at h
  · rename_i hfree
    obtain ⟨hopen, hout⟩ := hfree
    obtain ⟨⟨net, b⟩, halloc, h⟩ := Option.bind_eq_some_iff.mp h
    cases h
    let f := fun data : UdpUserdata => { data with packetOut := b, outPos := UIP_UDP_PHYH_LEN + UIP_SENDBUFFER_OFFSET }
    have hsame : SameConn k s₁ ((s₁.setNet net).mapAppdata k f) := (setNet_same net).trans (mapAppdata_same k _)
    refine ⟨(alloc_aimed hk₁.aimed hopen hout halloc fun _ => rfl).here, allocBlock_chained hk₁.chained (by decide) halloc, ?_, ?_⟩
    · rw [hsame.conn, hsame.conns]
      exact hk₁.lport
    · rw [mapAppdata_appdata]
      exact allocBlock_handle halloc
  · cases h
    exact hk₁

theorem queue_chained {size : Nat} (hc : Chained s.net.blocks) (hsize : 1 ≤ size) (h : queue s k size = some s') :
    Chained s'.net.blocks := by
  simp only [queue, Option.bind_eq_bind, Option.pure_def] at h
  obtain ⟨⟨net, b⟩, halloc, h⟩ := Option.bind_eq_some_iff.mp h
  have hc' := allocBlock_chained hc hsize halloc
  split at h
  · cases h
    exact hc'
  · obtain ⟨net', hcopy, h⟩ := Option.bind_eq_some_iff.mp h
    cases h
    have hblocks : net'.blocks = net.blocks := copyPacket_blocks hcopy
    rw [← hblocks] at hc'
    exact hc'

theorem arrive_recoverable (hk : Recoverable k s) (hregular : Regular k s .arrive)
    (hconn : (s.sockets k).uipUdpConn = some i) (happ : (s.uipUdpConns i).appstate = some k)
    (hflags : s.uip.uipFlags = UIP_NEWDATA) (h : uipudpAppcall s i = some s') : Recoverable k s' := by
  simp only [uipudpAppcall, happ, Option.bind_eq_bind, Option.pure_def] at h
  obtain ⟨s₁, hreceived, h⟩ := Option.bind_eq_some_iff.mp h
  cases h
  rw [polled_newdata (received_next hflags hreceived).1]
  unfold received at hreceived
  split at hreceived
  · rename_i hfree
    let f := fun conn : UdpConn =>
      { conn with rport := s.uip.uipBuf.u16 Offset.srcport, ripaddr := s.uip.uipBuf.be32 Offset.srcipaddr }
    have hq : queue (s.mapUdpConn i f) k (payloadSize s) = some s₁ := hreceived
    obtain ⟨hout, hpos, hsend, hsize⟩ := queue_out hq
    have hsame : SameConn k (s.mapUdpConn i f) s₁ := queue_same hq
    have hp : Paired k s₁ := hsame.paired (mapUdpConn_paired rfl hk.aimed.paired)
    refine ⟨hk.aimed.readdressed hp (fun hopen => hsame.conn ▸ hopen) (fun _ => rfl) hout hpos hsend fun hne => hsize ?_ hne,
      queue_chained (s := s.mapUdpConn i f) hk.chained (Nat.pos_of_ne_zero (hregular hfree.2)) hq, fun j hj => ?_, ?_⟩
    · exact Nat.ne_of_gt (Nat.lt_of_lt_of_le (by decide) (hk.aimed.size hne).1)
    · rw [hsame.conn] at hj
      obtain rfl := Option.some.inj (hconn.symm.trans hj)
      have hself : (s.mapUdpConn i f).uipUdpConns i = f (s.uipUdpConns i) := Function.update_self ..
      rw [hsame.conns, hself]
      exact hk.lport i hconn
    · rw [hout]
      exact hk.handle
  · cases hreceived
    exact hk

/-- Every step leaves a packet that can be sent again. -/
theorem PacketStep.recoverable {call : PacketCall} (hk : Recoverable k s) (h : PacketStep k s call s')
    (hregular : Regular k s call) : Recoverable k s' := by
  cases h with
  | beginPacket hcall => exact beginPacket_recoverable hk hcall
  | write hcall => exact write_recoverable hk hcall
  | endPacket hcall => exact endPacket_recoverable hk hregular hcall
  | poll happ hcall => exact poll_recoverable hk happ hcall
  | arrive hconn happ hflags hcall => exact arrive_recoverable hk hregular hconn happ hflags hcall
  | begin hcall => exact begin_recoverable hk hregular hcall
  | stop hcall => exact stop_recoverable hk hcall
  | other hother =>
    have hp : Paired k s' := fun i => by
      rw [hother.conn]
      exact (hk.aimed.paired i).trans (hother.appstate i).symm
    refine ⟨hk.aimed.readdressed hp (fun h => hother.conn ▸ h) (fun _ => rfl) hother.packetOut hother.outPos hother.send
      fun _ => hother.size, hother.chained hk.chained, fun j hj => ?_, ?_⟩
    · rw [hother.conn] at hj
      rw [hother.lport j hj]
      exact hk.lport j hj
    · rw [hother.packetOut]
      exact hk.handle

-- ---------------------------------------------------------------------------
-- The next attempt
-- ---------------------------------------------------------------------------

/-- The checksum over the packet in the block comes back. -/
theorem asked_chksum {s₁ : System} (hk : Recoverable k s) (hout : (s.sockets k).appdata.packetOut ≠ NOBLOCK)
    (ho : OnlyUip (asked s k) s₁) : ∃ sum, s₁.upperLayerChksum UIP_PROTO_UDP = some sum := by
  have hpad : UIP_UDP_PHYH_LEN + (UIP_SENDBUFFER_OFFSET + UIP_SENDBUFFER_PADDING) = 50 := rfl
  obtain ⟨hfit, hmax⟩ := hk.aimed.size hout
  have hmem : s₁.upperLayerMemlen UIP_PROTO_UDP = UIP_UDPH_LEN := if_pos rfl
  have hset : has s₁.packetstate UIPETHERNET_SENDPACKET := by
    rw [ho.packetstate]
    exact has_set _
  have hpos : s₁.payloadPos UIP_UDPH_LEN = 43 := by
    rw [payloadPos, if_pos hset]
    rfl
  have hpacket : s₁.net.packet s₁.uipPacket = s.net.blocks (s.sockets k).appdata.packetOut := by
    have hhandle : (s.sockets k).appdata.packetOut ≠ UIP_RECEIVEBUFFERHANDLE := fun he =>
      absurd hk.handle (by rw [he]; decide)
    rw [ho.net, ho.uipPacket]
    exact if_neg hhandle
  refine upperLayerChksum_ends.mpr fun hdata => ?_
  rw [hmem] at hdata ⊢
  have hroom : sub16 (s.net.blocks (s.sockets k).appdata.packetOut).size 43 = outSize s k - 43 :=
    sub16_eq (show 43 ≤ outSize s k by omega) hmax
  simp only [setReadPtr, clip, hpos, hpacket, hroom]
  split
  · exact Nat.sub_pos_of_lt (by omega)
  · exact Nat.sub_pos_of_lt hdata

/-- `uip_process` takes a packet without a payload for nothing to send. -/
theorem waiting_timer (hk : Recoverable k s) (hi : (s.sockets k).uipUdpConn = some i)
    (hout : (s.sockets k).appdata.packetOut ≠ NOBLOCK) (hsend : (s.sockets k).appdata.send = true) :
    ∃ s₁, s.uipUdpTimer i = some s₁ ∧ OnlyUip (prepared s k) s₁ ∧ s₁.uip.routes = s.uip.routes ∧
      if (s.sockets k).appdata.outPos = UIP_UDP_PHYH_LEN + UIP_SENDBUFFER_OFFSET then s₁.uip.uipLen = 0
      else s₁.uip.uipBuf.be32 Offset.destipaddr = (s.uipUdpConns i).ripaddr ∧ UIP_IPUDPH_LEN < s₁.uip.uipLen ∧
        s₁.uip.uipLen + UIP_LLH_LEN < 65536 := by
  have hroom : UIP_UDP_PHYH_LEN + UIP_SENDBUFFER_OFFSET = 43 := rfl
  have hu : UIP_IPUDPH_LEN = 28 := rfl
  have hl : UIP_LLH_LEN = 14 := rfl
  obtain ⟨hlow, hhigh⟩ := hk.aimed.pos hout
  have hmax := (hk.aimed.size hout).2
  obtain ⟨s₁, hs₁⟩ := udpSend_some (i := i) fun _ => asked_chksum hk hout
  obtain ⟨honly, hlen⟩ := udpSend_only hs₁
  have hslen : (asked s k).uip.uipSlen = (s.sockets k).appdata.outPos - 43 := by
    rw [asked_uipSlen, sub16_eq hlow (Nat.lt_of_le_of_lt hhigh hmax), hroom]
  refine ⟨s₁, (timer_asks ((hk.aimed.paired i).mp hi) (hk.lport i hi) hsend).trans hs₁, (asked_only s k).trans honly,
    (udpSend_routes hs₁).trans (asked_routes s k), ?_⟩
  rw [hslen] at hlen
  split
  · rename_i hempty
    rw [hlen, if_pos (by omega)]
  · rename_i hbytes
    rw [if_neg (by omega), add16_eq (by omega)] at hlen
    exact ⟨(udpSend_destination hs₁ (by omega)).1, by omega, by omega⟩

/-- Nothing comes between the packet and the transmitter. -/
theorem send_clears {s₁ : System} (hc : Chained s.net.blocks) (ho : OnlyUip (prepared s k) s₁) (hres : Resolved s₁.uip)
    (hbytes : UIP_IPUDPH_LEN < s₁.uip.uipLen) (hmax : s₁.uip.uipLen + UIP_LLH_LEN < 65536) (hok : s.net.outcome = true) :
    ∃ s', send s₁ k = some s' ∧ (s'.sockets k).uipUdpConn = (s.sockets k).uipUdpConn ∧
      (s'.sockets k).appdata.packetOut = NOBLOCK ∧ (s'.sockets k).appdata.send = false := by
  have hu : UIP_IPUDPH_LEN + UIP_LLH_LEN = UIP_ARPHDRSIZE := rfl
  have hdata : ¬(s₁.mapUip Uip.arpOut).uip.uipLen = UIP_ARPHDRSIZE := by
    show ¬s₁.uip.arpOut.uipLen = _
    rw [arpOut_len hres, add16_eq hmax]
    omega
  have ho₂ : OnlyUip (prepared s k) (s₁.mapUip Uip.arpOut) := ho.trans rfl
  generalize hs₂ : s₁.mapUip Uip.arpOut = s₂ at hdata ho₂
  have hset : has s₂.packetstate UIPETHERNET_SENDPACKET := by
    rw [ho₂.packetstate]
    exact has_set _
  obtain ⟨⟨net, ok⟩, hsent⟩ : ∃ x, (s₂.net.writePacket s₂.uipPacket UIP_SENDBUFFER_OFFSET
    (load s₂.uip.uipBuf 0 s₂.uipHdrlen)).1.sendPacket s₂.uipPacket = x := ⟨_, rfl⟩
  have hnet : s₂.net = s.net := ho₂.net
  have hout : ok = true := by
    have houtcome := sendPacket_outcome (s₂.net.writePacket s₂.uipPacket UIP_SENDBUFFER_OFFSET
      (load s₂.uip.uipBuf 0 s₂.uipHdrlen)).1 s₂.uipPacket
    rw [hsent, writePacket_outcome, hnet, hok] at houtcome
    exact houtcome
  have hc' : Chained net.blocks := by
    rw [writeSend_blocks hsent, hnet]
    exact hc
  obtain ⟨net', hfree, -⟩ := freeBlock_back hc' s₂.uipPacket
  let s₃ := (s₂.packetSent net').setUipPacket NOBLOCK
  have hrun : s₂.networkSend = some (s₃, true) := by
    rw [networkSend_eq hset hsent, hout, if_pos rfl, hfree, Option.bind_some]
  refine ⟨s₃.mapAppdata k fun data => { data with send := false, packetOut := NOBLOCK }, ?_, ?_, ?_⟩
  · simp only [send, hs₂, if_neg hdata, hrun, Option.bind_eq_bind, Option.bind_some]
    rfl
  · rw [mapAppdata_conn]
    exact congrArg (fun f => (f k).uipUdpConn) ho₂.sockets
  · rw [mapAppdata_appdata]
    exact ⟨rfl, rfl⟩

theorem setRemote_open (ip : BitVec 32) (port : Nat) (hi : (s.sockets k).uipUdpConn = some i) :
    ∃ s', setRemote s k ip port = some s' ∧ s'.net = s.net ∧ s'.sockets = s.sockets := by
  unfold setRemote connectTo
  split
  · rw [hi]
    exact ⟨_, rfl, rfl, rfl⟩
  · exact ⟨s, rfl, rfl, rfl⟩

theorem Cleared.of_open (hi : (s.sockets k).uipUdpConn = some i) (hout : (s.sockets k).appdata.packetOut = NOBLOCK)
    (hsend : (s.sockets k).appdata.send = false) : Cleared s k := by
  refine ⟨hout, hsend, fun ip port => ?_⟩
  obtain ⟨s₁, hto, hnet, hsockets⟩ := setRemote_open ip port hi
  have hfree : (s₁.sockets k).uipUdpConn ≠ none ∧ (s₁.sockets k).appdata.packetOut = NOBLOCK := by
    rw [hsockets, hi]
    exact ⟨Option.some_ne_none i, hout⟩
  simp only [beginPacket, hto, Option.bind_eq_bind, Option.bind_some, if_pos hfree, hnet, Option.pure_def]
  constructor
  · rintro ⟨s', h⟩
    obtain ⟨⟨net, b⟩, halloc, h⟩ := Option.bind_eq_some_iff.mp h
    exact ⟨net, b, halloc, bne_iff_ne.mp (Prod.mk.inj (Option.some.inj h)).2⟩
  · rintro ⟨net, b, halloc, hb⟩
    rw [halloc, Option.bind_some, bne_iff_ne.mpr hb]
    exact ⟨_, rfl⟩

/-- In every state that a socket reaches with a packet to send, the next turn of
`tick` that finds the next hop in the ARP table and the transmitter working
clears it exactly if something has been written to it. -/
theorem pending_clears {s₀ : System} {calls : List PacketCall}
    (h : Run (fun s call s' => PacketStep k s call s' ∧ Regular k s call) s₀ calls s) (hpool : Chained s₀.net.blocks)
    (hfresh : s₀.sockets k = ⟨none, start⟩) (hunattached : ∀ j, (s₀.uipUdpConns j).appstate ≠ some k)
    (hout : (s.sockets k).appdata.packetOut ≠ NOBLOCK) (hsend : (s.sockets k).appdata.send = true) :
    ∃ i, (s.sockets k).uipUdpConn = some i ∧
      (Knows s.uip (s.uipUdpConns i).ripaddr → s.net.outcome = true →
        ((∃ s', tickUdp s i = some s' ∧ Cleared s' k) ↔
          (s.sockets k).appdata.outPos ≠ UIP_UDP_PHYH_LEN + UIP_SENDBUFFER_OFFSET)) := by
  have hstart : Recoverable k s₀ := by
    refine ⟨.idle_of (unattached_paired (by rw [hfresh]) hunattached) (by rw [hfresh]; rfl) (by rw [hfresh]; rfl), hpool, ?_, ?_⟩
    · rw [hfresh]
      exact fun j hj => absurd hj.symm (Option.some_ne_none j)
    · rw [hfresh]
      exact Nat.zero_le _
  have hk : Recoverable k s := h.invariant (fun hk hs => hs.1.recoverable hk hs.2) hstart
  obtain ⟨i, hi⟩ := Option.ne_none_iff_exists'.mp (hk.aimed.opened hout)
  refine ⟨i, hi, fun hknown hok => ?_⟩
  have happ := (hk.aimed.paired i).mp hi
  obtain ⟨s₁, htimer, ho, hroutes, hlen⟩ := waiting_timer hk hi hout hsend
  have hturn : tickUdp s i = if 0 < s₁.uip.uipLen then send s₁ k else some s₁ := by
    have hconns : s₁.uipUdpConns = s.uipUdpConns := ho.uipUdpConns
    simp only [tickUdp, htimer, Option.bind_eq_bind, Option.bind_some, hconns, happ]
    rfl
  constructor
  · rintro ⟨s', h', hclear⟩ hempty
    -- nothing leaves uip_process, so the packet stays as it is
    rw [if_pos hempty] at hlen
    rw [hturn, hlen, if_neg (Nat.lt_irrefl 0)] at h'
    cases h'
    have hstays : (s₁.sockets k).appdata.packetOut = (s.sockets k).appdata.packetOut := by
      rw [ho.sockets]
      rfl
    exact hout (hstays.symm.trans hclear.packetOut)
  · intro hbytes
    rw [if_neg hbytes] at hlen
    obtain ⟨hdest, hlow, hhigh⟩ := hlen
    obtain ⟨s', hrun, hconn, hout', hsend'⟩ := send_clears hk.chained ho ((resolved_iff hroutes hdest).mpr hknown) hlow hhigh hok
    refine ⟨s', ?_, .of_open (hconn.trans hi) hout' hsend'⟩
    rw [hturn, if_pos (Nat.lt_of_le_of_lt (Nat.zero_le _) hlow), hrun]

/-- A host that knows its neighbour 2. -/
def neighbourSystem (transmissions : List Transmission) : System :=
  let s := System.init (fun _ => 0) transmissions [1, 2, 3, 4, 5, 6] 0
  s.mapUip fun u => { u with arpTable := fun _ => ⟨2, [6, 5, 4, 3, 2, 1], 0⟩ }

def checkWaiting (s : System) : Bool :=
  (s.sockets 0).uipUdpConn = some 0 && (s.uipUdpConns 0).ripaddr = 2 && (s.sockets 0).appdata.packetOut != NOBLOCK &&
    (s.sockets 0).appdata.send && decide (Knows s.uip 2) && s.net.outcome

/-- One byte, and a transmission that fails. -/
theorem pending_clears_example : ∃ calls s s', Run (fun s call s' => PacketStep 0 s call s' ∧ Regular 0 s call)
      (neighbourSystem [⟨false, []⟩, ⟨true, []⟩]) calls s ∧
    (s.sockets 0).appdata.send = true ∧ tickUdp s 0 = some s' ∧ Cleared s' 0 := by
  have hcompute : ((beginPacket (neighbourSystem [⟨false, []⟩, ⟨true, []⟩]) 0 2 80).bind fun p =>
      (endPacket (write p.1 0 [7]).1 0).map fun q => decide (((write p.1 0 [7]).1.sockets 0).appdata.outPos = 44) &&
        checkWaiting q.1 && decide ((q.1.sockets 0).appdata.outPos = 44)) = some true := by
    decide +kernel
  obtain ⟨⟨s₁, success₁⟩, h₁, h⟩ := Option.bind_eq_some_iff.mp hcompute
  obtain ⟨⟨s₂, success₂⟩, h₂, h⟩ := Option.map_eq_some_iff.mp h
  simp only [checkWaiting, Bool.and_eq_true, decide_eq_true_eq, bne_iff_ne] at h
  obtain ⟨⟨hpos, ⟨⟨⟨⟨hconn, hip⟩, hout⟩, hsend⟩, hknown⟩, hok⟩, hpos₂⟩ := h
  have hmax : Regular 0 (write s₁ 0 [7]).1 .endPacket := fun _ => by
    rw [hpos]
    decide
  have hrun : Run (fun s call s' => PacketStep 0 s call s' ∧ Regular 0 s call) (neighbourSystem [⟨false, []⟩, ⟨true, []⟩])
      [.beginPacket 2 80, .write [7], .endPacket] s₂ :=
    .snoc (.snoc (.snoc .nil ⟨.beginPacket h₁, trivial⟩) ⟨.write rfl, trivial⟩) ⟨.endPacket h₂, hmax⟩
  obtain ⟨i, hi, hclears⟩ := pending_clears hrun init_wf.chained rfl (fun j => (Option.some_ne_none 0).symm) hout hsend
  obtain rfl := Option.some.inj (hconn.symm.trans hi)
  obtain ⟨s', h', hclear⟩ := (hclears (hip.symm ▸ hknown) hok).mpr (by rw [hpos₂]; decide)
  exact ⟨_, s₂, s', hrun, hsend, h', hclear⟩

/-- Without a `write` the packet stays, and there is no other one. -/
theorem empty_packet_stays : ∃ calls s s', Run (fun s call s' => PacketStep 0 s call s' ∧ Regular 0 s call)
      (neighbourSystem [⟨true, []⟩]) calls s ∧
    (s.sockets 0).appdata.packetOut ≠ NOBLOCK ∧ (s.sockets 0).appdata.send = true ∧
    (s.sockets 0).uipUdpConn = some 0 ∧ Knows s.uip (s.uipUdpConns 0).ripaddr ∧ s.net.outcome = true ∧
    tickUdp s 0 = some s' ∧ (s'.sockets 0).appdata.packetOut ≠ NOBLOCK ∧ (s'.sockets 0).appdata.send = true ∧
    (beginPacket s' 0 2 80).map (·.2) = some false := by
  have hcompute : ((beginPacket (neighbourSystem [⟨true, []⟩]) 0 2 80).bind fun p => (endPacket p.1 0).bind fun q =>
      (tickUdp q.1 0).map fun s => decide ((p.1.sockets 0).appdata.outPos = 43) && checkWaiting q.1 && checkWaiting s &&
        decide ((beginPacket s 0 2 80).map (·.2) = some false)) = some true := by
    decide +kernel
  obtain ⟨⟨s₁, success₁⟩, h₁, h⟩ := Option.bind_eq_some_iff.mp hcompute
  obtain ⟨⟨s₂, success₂⟩, h₂, h⟩ := Option.bind_eq_some_iff.mp h
  obtain ⟨s₃, h₃, h⟩ := Option.map_eq_some_iff.mp h
  simp only [checkWaiting, Bool.and_eq_true, decide_eq_true_eq, bne_iff_ne] at h
  obtain ⟨⟨⟨hpos, ⟨⟨⟨⟨hconn, hip⟩, hout⟩, hsend⟩, hknown⟩, hok⟩, ⟨⟨⟨-, hout'⟩, hsend'⟩, -⟩, -⟩, hagain⟩ := h
  have hmax : Regular 0 s₁ .endPacket := fun _ => by
    rw [hpos]
    decide
  exact ⟨[.beginPacket 2 80, .endPacket], s₂, s₃, .snoc (.snoc .nil ⟨.beginPacket h₁, trivial⟩) ⟨.endPacket h₂, hmax⟩,
    hout, hsend, hconn, hip.symm ▸ hknown, hok, h₃, hout', hsend', hagain⟩

end UIPUDP

end UIPEthernet
