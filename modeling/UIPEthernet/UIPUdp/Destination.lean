import UIPEthernet.UIPUdp.Sender
import UIPEthernet.UIPUdp.Remote
import UIPEthernet.Headers.Fields
import UIPEthernet.Enc28J60Network.Sizes

/-!
# Where a packet goes

The destination of a packet is the remote end of the socket's connection when
a data frame is sent for it, not when `beginPacket` started it.
-/

namespace UIPEthernet.UIPUDP

open Enc28J60Network Lib UIPEthernet.System

inductive DestEvent
  | beginPacket (ip : BitVec 32) (port : Nat) (success : Bool)
  | write (buffer : List Byte)
  | endPacket (frames : List Frame)
  | poll (frames : List Frame)
  | arrive (sender : Address)
  | begin (port : Nat)
  | stop
  | other

namespace DestEvent

/-- The frames handed to the controller. -/
def frames : DestEvent → List Frame
  | .endPacket frames => frames
  | .poll frames => frames
  | _ => []

/-- What the packet's address is behind the event. -/
def started (a : Option Address) : DestEvent → Option Address
  | .beginPacket ip port true => some (ip, port)
  | _ => a

end DestEvent

/-- The arguments of the last `beginPacket` that returned 1. -/
def started (es : List DestEvent) : Option Address := es.foldl DestEvent.started none

def frameDestination (frame : List Byte) : Address :=
  let b : Buf := fun i => frame.getD i 0
  (b.be32 Offset.destipaddr, b.be16 Offset.destport)

/-- Every data frame is for the address that its packet was started with. -/
def Addressed (es : List DestEvent) : Prop :=
  ∀ before e behind, es = before ++ e :: behind → ∀ f ∈ e.frames, frameType f.1 = UIP_ETHTYPE_IP →
    started before = some (frameDestination f.1)

/-- The size of the block in `packet_out`. -/
def outSize (s : System) (k : Nat) : Nat := (s.net.blocks (s.sockets k).appdata.packetOut).size

/-- Everything but the sending side of the socket, its connection and the
size of its block may change. -/
structure Outside (k : Nat) (s s' : System) : Prop where
  conn : (s'.sockets k).uipUdpConn = (s.sockets k).uipUdpConn
  appstate : ∀ i, (s'.uipUdpConns i).appstate = some k ↔ (s.uipUdpConns i).appstate = some k
  remote : remote s' k = remote s k
  outPos : (s'.sockets k).appdata.outPos = (s.sockets k).appdata.outPos
  packetOut : (s'.sockets k).appdata.packetOut = (s.sockets k).appdata.packetOut
  send : (s'.sockets k).appdata.send = (s.sockets k).appdata.send
  size : outSize s' k = outSize s k

inductive DestStep (k : Nat) (s : System) : DestEvent → System → Prop
  | beginPacket (hport : port < 65536) (hcall : beginPacket s k ip port = some (s', success)) :
    DestStep k s (.beginPacket ip port success) s'
  | write (hcall : write s k buffer = (s', n)) : DestStep k s (.write buffer) s'
  | endPacket (heth : SixBytes s.uip) (hcall : endPacket s k = some (s', success))
      (hsent : s'.net.sent = frames ++ s.net.sent) : DestStep k s (.endPacket frames) s'
  | poll (heth : SixBytes s.uip) (happ : (s.uipUdpConns i).appstate = some k) (hcall : tickUdp s i = some s')
      (hsent : s'.net.sent = frames ++ s.net.sent) : DestStep k s (.poll frames) s'
  | arrive (hconn : (s.sockets k).uipUdpConn = some i) (happ : (s.uipUdpConns i).appstate = some k)
      (hflags : s.uip.uipFlags = UIP_NEWDATA) (hcall : uipudpAppcall s i = some s') :
    DestStep k s (.arrive (source s)) s'
  | begin (hcall : begin s k port = some (s', success)) : DestStep k s (.begin port) s'
  | stop (hcall : stop s k = some s') : DestStep k s .stop s'
  | other (hother : Outside k s s') : DestStep k s .other s'

/-- The remote end is that of the packet when it is started, and as long as it
waits it is not overwritten with another one. -/
def Aims (k : Nat) (s : System) : DestEvent → Prop
  | .beginPacket ip port _ =>
    if (s.sockets k).appdata.packetOut = NOBLOCK then
      (s.sockets k).uipUdpConn = none ∨ (ip ≠ 0 ∧ port ≠ 0) ∨ remote s k = (ip, port)
    else ip ≠ 0 ∧ port ≠ 0 → remote s k = (ip, port)
  | .arrive sender => (s.sockets k).appdata.packetOut ≠ NOBLOCK →
      (s.sockets k).appdata.packetNext = NOBLOCK → sender = remote s k
  | .endPacket _ => (s.sockets k).appdata.packetOut ≠ NOBLOCK →
      (s.sockets k).appdata.outPos + UIP_SENDBUFFER_PADDING < 65536
  | _ => True

/-- The connection and the socket point to each other. -/
def Paired (k : Nat) (s : System) : Prop :=
  ∀ i, (s.sockets k).uipUdpConn = some i ↔ (s.uipUdpConns i).appstate = some k

/-- A packet that is started has a block with room for the headers, and the
remote end is where it goes. -/
structure Aimed (k : Nat) (s : System) (a : Option Address) : Prop where
  paired : Paired k s
  idle : (s.sockets k).appdata.packetOut = NOBLOCK → (s.sockets k).appdata.send = false
  opened : (s.sockets k).appdata.packetOut ≠ NOBLOCK → (s.sockets k).uipUdpConn ≠ none
  aimed : (s.sockets k).appdata.packetOut ≠ NOBLOCK → a = some (remote s k)
  pos : (s.sockets k).appdata.packetOut ≠ NOBLOCK →
    UIP_UDP_PHYH_LEN + UIP_SENDBUFFER_OFFSET ≤ (s.sockets k).appdata.outPos ∧ (s.sockets k).appdata.outPos ≤ outSize s k
  size : (s.sockets k).appdata.packetOut ≠ NOBLOCK →
    UIP_UDP_PHYH_LEN + (UIP_SENDBUFFER_OFFSET + UIP_SENDBUFFER_PADDING) ≤ outSize s k ∧ outSize s k < 65536

variable {s s' : System} {k : Nat} {i : Fin UIP_UDP_CONNS} {a : Option Address}

theorem started_snoc (es : List DestEvent) (e : DestEvent) : started (es ++ [e]) = e.started (started es) := by
  simp [started]

theorem Addressed.snoc {es : List DestEvent} {e : DestEvent} (h : Addressed es)
    (he : ∀ f ∈ e.frames, frameType f.1 = UIP_ETHTYPE_IP → started es = some (frameDestination f.1)) :
    Addressed (es ++ [e]) := by
  intro before e' behind hes
  rcases List.eq_nil_or_concat behind with rfl | ⟨behind, last, rfl⟩
  · obtain ⟨rfl, hlast⟩ := List.append_inj' hes rfl
    obtain rfl := List.singleton_inj.mp hlast
    exact he
  · rw [List.concat_eq_append, ← List.cons_append, ← List.append_assoc] at hes
    exact h before e' behind (List.append_inj' hes rfl).1

-- ---------------------------------------------------------------------------
-- The frames of network_send
-- ---------------------------------------------------------------------------

/-- The length of what `network_send` takes from `uip_buf`. -/
def headerLen (s : System) : Nat := if has s.packetstate UIPETHERNET_SENDPACKET then s.uipHdrlen else s.uip.uipLen

/-- At most one frame, with the headers in `uip_buf` at its front. -/
def Fronted (b : Buf) (frames : List Frame) : Prop :=
  frames = [] ∨ ∃ rest ok, frames = [(load b 0 UIP_UDP_PHYH_LEN ++ rest, ok)]

theorem networkSend_front {ok : Bool} (h : s.networkSend = some (s', ok)) (hlen : headerLen s = UIP_UDP_PHYH_LEN)
    (hsize : has s.packetstate UIPETHERNET_SENDPACKET →
      UIP_UDP_PHYH_LEN + (UIP_SENDBUFFER_OFFSET + UIP_SENDBUFFER_PADDING) ≤ (s.net.blocks s.uipPacket).size ∧
        (s.net.blocks s.uipPacket).size < 65536) :
    ∃ frames, s'.net.sent = frames ++ s.net.sent ∧ Fronted s.uip.uipBuf frames := by
  have hmem : UIP_UDP_PHYH_LEN < MEMORY_SIZE := by decide
  let header := load s.uip.uipBuf 0 UIP_UDP_PHYH_LEN
  have hheader : header.length = UIP_UDP_PHYH_LEN := load_length
  rcases networkSend_cases h with ⟨hset, net, hsent, hnet⟩ | ⟨hset, net, b, halloc, hnet⟩
  · rw [headerLen, if_pos hset] at hlen
    obtain ⟨hfit, hmax⟩ := hsize hset
    obtain ⟨rest, r, hrest⟩ := sendPacket_front header (by rw [hheader]; exact hfit) hmax
      (by rw [hheader]; exact hmem)
    rw [hlen] at hsent
    rw [hsent] at hrest
    refine ⟨[(header ++ rest, r)], ?_, .inr ⟨rest, r, rfl⟩⟩
    split at hnet
    · exact (freeBlock_sent hnet).trans hrest
    · rw [hnet]
      exact hrest
  · rw [headerLen, if_neg hset] at hlen
    split at hnet
    · rw [hnet]
      exact ⟨[], allocBlock_sent halloc, .inl rfl⟩
    · rename_i hb
      obtain ⟨net', hsent, hfree⟩ := hnet
      have hnew := allocBlock_new halloc hb
      rw [hlen] at hnew hsent
      obtain ⟨rest, r, hrest⟩ := sendPacket_front (e := net) (h := b) header
        (by rw [hheader, hnew]; decide) (by rw [hnew]; decide) (by rw [hheader]; exact hmem)
      rw [hsent] at hrest
      refine ⟨[(header ++ rest, r)], ?_, .inr ⟨rest, r, rfl⟩⟩
      rw [freeBlock_sent hfree, hrest, allocBlock_sent halloc]
      rfl

/-- What `uip_process` leaves to send for the socket. -/
structure Prepared (s : System) (k : Nat) (i : Fin UIP_UDP_CONNS) (s₁ : System) : Prop where
  send : has s₁.packetstate UIPETHERNET_SENDPACKET
  packet : s₁.uipPacket = (s.sockets k).appdata.packetOut
  hdrlen : s₁.uipHdrlen = UIP_UDP_PHYH_LEN
  ip : s₁.uip.uipBuf.be32 Offset.destipaddr = (s.uipUdpConns i).ripaddr
  port : s₁.uip.uipBuf.be16 Offset.destport = htons (s.uipUdpConns i).rport

theorem udpSend_sixBytes (h : s.udpSend i = some s') (heth : SixBytes s.uip) : SixBytes s'.uip := by
  simp only [udpSend] at h
  split at h
  · cases h
    exact heth
  · obtain ⟨sum, -, h⟩ := Option.bind_eq_some_iff.mp h
    cases h
    exact heth

theorem timer_sixBytes (happ : (s.uipUdpConns i).appstate = some k) (heth : SixBytes s.uip)
    (h : s.uipUdpTimer i = some s') : SixBytes s'.uip := by
  unfold uipUdpTimer at h
  split at h
  · let s₀ := (((s.setAppdata (UIP_LLH_LEN + UIP_IPUDPH_LEN)).setLen 0).setSlen 0).setFlags UIP_POLL
    obtain ⟨s₁, hcall, hsend⟩ := Option.bind_eq_some_iff.mp h
    obtain rfl : polled s₀ k = s₁ := Option.some.inj ((appcall_poll (s := s₀) happ rfl).symm.trans hcall)
    refine udpSend_sixBytes hsend ?_
    simp only [polled]
    split
    · exact heth
    · exact heth
  · cases h
    exact heth

/-- The turn of `uip_process` for the socket's connection. -/
theorem timer_prepared (happ : (s.uipUdpConns i).appstate = some k) (h : s.uipUdpTimer i = some s') :
    s'.net = s.net ∧ s'.sockets = s.sockets ∧
      (0 < s'.uip.uipLen → (s.sockets k).appdata.send = true ∧ Prepared s k i s') := by
  cases hwaits : (s.sockets k).appdata.send with
  | false =>
    obtain ⟨s₁, htimer, honly, hlen⟩ := timer_quiet happ hwaits
    obtain rfl := Option.some.inj (htimer.symm.trans h)
    exact ⟨honly.net, honly.sockets, fun hpos => absurd hpos (by rw [hlen]; exact Nat.lt_irrefl 0)⟩
  | true =>
    by_cases hlport : (s.uipUdpConns i).lport = 0
    · obtain ⟨s₁, htimer, honly, hlen⟩ := timer_closed hlport
      obtain rfl := Option.some.inj (htimer.symm.trans h)
      exact ⟨honly.net, honly.sockets, fun hpos => absurd hpos (by rw [hlen]; exact Nat.lt_irrefl 0)⟩
    · rw [timer_asks happ hlport hwaits] at h
      have honly : OnlyUip (prepared s k) s' := (asked_only s k).trans (udpSend_only h).1
      refine ⟨honly.net, honly.sockets, fun hpos => ⟨rfl, ?_⟩⟩
      obtain ⟨hip, hport⟩ := udpSend_destination h hpos
      refine ⟨?_, honly.uipPacket, honly.uipHdrlen, hip, hport⟩
      rw [honly.packetstate]
      exact has_set _

theorem frameDestination_load (b : Buf) (rest : List Byte) :
    frameDestination (load b 0 UIP_UDP_PHYH_LEN ++ rest) =
      (b.be32 Offset.destipaddr, b.be16 Offset.destport) := by
  have hget : ∀ n < UIP_UDP_PHYH_LEN, (load b 0 UIP_UDP_PHYH_LEN ++ rest).getD n 0 = b n := by
    intro n hn
    rw [List.getD_eq_getElem?_getD, List.getElem?_append_left (by rw [load_length]; exact hn),
      List.getElem?_eq_getElem (by rw [load_length]; exact hn), Option.getD_some, load_getElem, Nat.zero_add]
  have hagree : Buf.Agree b (fun i => (load b 0 UIP_UDP_PHYH_LEN ++ rest).getD i 0) 0 UIP_UDP_PHYH_LEN :=
    fun n _ hn => hget n hn
  exact Prod.ext (hagree.be32 (by decide) (by decide)) (hagree.be16 (by decide) (by decide))

/-- The size of a block that `endPacket` leaves. -/
def Sizable (n : Nat) : Prop :=
  UIP_UDP_PHYH_LEN + (UIP_SENDBUFFER_OFFSET + UIP_SENDBUFFER_PADDING) ≤ n ∧ n < 65536

/-- Behind an attempt to send it the packet is given back, or as it was. -/
structure Tried (s : System) (k : Nat) (s' : System) (frames : List Frame) : Prop where
  sent : s'.net.sent = frames ++ s.net.sent
  data : ((s'.sockets k).appdata.packetOut = NOBLOCK ∧ (s'.sockets k).appdata.send = false) ∨
    ((s'.sockets k).appdata = (s.sockets k).appdata ∧ outSize s' k = outSize s k)

theorem send_tried (hset : has s.packetstate UIPETHERNET_SENDPACKET)
    (hpacket : s.uipPacket = (s.sockets k).appdata.packetOut) (hhdr : s.uipHdrlen = UIP_UDP_PHYH_LEN)
    (hout : (s.sockets k).appdata.packetOut ≠ NOBLOCK) (hsize : Sizable (outSize s k))
    (h : send s k = some s') : ∃ frames, Tried s k s' frames ∧ Fronted s.uip.arpOut.uipBuf frames := by
  have hpos : (s.net.blocks (s.sockets k).appdata.packetOut).size ≠ 0 :=
    Nat.ne_of_gt (Nat.lt_of_lt_of_le (by decide) hsize.1)
  simp only [send, Option.bind_eq_bind, Option.pure_def] at h
  split at h
  · rename_i hlen
    let s₂ := ((s.mapUip Uip.arpOut).setUipPacket NOBLOCK).setPacketstate
      (s.packetstate &&& ~~~UIPETHERNET_SENDPACKET)
    obtain ⟨⟨s₃, ok⟩, hsend, h⟩ := Option.bind_eq_some_iff.mp h
    cases h
    have hclear : ¬has s₂.packetstate UIPETHERNET_SENDPACKET := by
      show ¬has (s.packetstate &&& ~~~UIPETHERNET_SENDPACKET) UIPETHERNET_SENDPACKET
      rw [has_clear]
      decide
    have hsockets : s₃.sockets = s.sockets := (networkSend_only hsend).sockets
    have hlen₂ : headerLen s₂ = UIP_UDP_PHYH_LEN := (if_neg hclear).trans hlen
    obtain ⟨frames, hsent, hfront⟩ := networkSend_front (s := s₂) hsend hlen₂ fun h => absurd h hclear
    have hkept := networkSend_size (s := s₂) hsend hpos hout fun h => absurd h hclear
    refine ⟨frames, ⟨hsent, .inr ⟨by rw [hsockets], ?_⟩⟩, hfront⟩
    rw [outSize, hsockets]
    exact hkept
  · let s₂ := s.mapUip Uip.arpOut
    obtain ⟨⟨s₃, ok⟩, hsend, h⟩ := Option.bind_eq_some_iff.mp h
    have hset₂ : has s₂.packetstate UIPETHERNET_SENDPACKET := hset
    have hsockets : s₃.sockets = s.sockets := (networkSend_only hsend).sockets
    have hlen₂ : headerLen s₂ = UIP_UDP_PHYH_LEN := (if_pos hset₂).trans hhdr
    have hblock : s₂.net.blocks s₂.uipPacket = s.net.blocks (s.sockets k).appdata.packetOut :=
      congrArg s.net.blocks hpacket
    obtain ⟨frames, hsent, hfront⟩ := networkSend_front (s := s₂) hsend hlen₂ fun _ => by
      rw [hblock]
      exact hsize
    cases ok with
    | false =>
      cases h
      have hkept := networkSend_size (s := s₂) hsend hpos hout fun _ h => absurd h Bool.false_ne_true
      refine ⟨frames, ⟨hsent, .inr ⟨by rw [hsockets], ?_⟩⟩, hfront⟩
      rw [outSize, hsockets]
      exact hkept
    | true =>
      cases h
      refine ⟨frames, ⟨hsent, .inl ?_⟩, hfront⟩
      rw [mapAppdata_appdata]
      exact ⟨rfl, rfl⟩

/-- What the turn of `uip_process` and, behind it, `_send` do with the socket's
packet. -/
theorem attempt_fronted {s₁ : System} (happ : (s.uipUdpConns i).appstate = some k)
    (hidle : (s.sockets k).appdata.send = true → (s.sockets k).appdata.packetOut ≠ NOBLOCK ∧ Sizable (outSize s k))
    (htimer : s.uipUdpTimer i = some s₁)
    (h : (if 0 < s₁.uip.uipLen then send s₁ k else some s₁) = some s') :
    ∃ frames, Tried s k s' frames ∧
      (frames = [] ∨ (s.sockets k).appdata.send = true ∧ Prepared s k i s₁ ∧ Fronted s₁.uip.arpOut.uipBuf frames) := by
  obtain ⟨hnet, hsockets, hprepared⟩ := timer_prepared happ htimer
  have hsame : outSize s₁ k = outSize s k := by rw [outSize, hnet, hsockets, outSize]
  split at h
  · rename_i hlen
    obtain ⟨hwaits, hp⟩ := hprepared hlen
    obtain ⟨hout, hsize⟩ := hidle hwaits
    obtain ⟨frames, ht, hfront⟩ := send_tried hp.send (by rw [hp.packet, hsockets]) hp.hdrlen
      (by rw [hsockets]; exact hout) (hsame ▸ hsize) h
    refine ⟨frames, ⟨hnet ▸ ht.sent, ?_⟩, .inr ⟨hwaits, hp, hfront⟩⟩
    rw [← hsame, ← hsockets]
    exact ht.data
  · cases h
    exact ⟨[], ⟨by rw [hnet]; rfl, .inr ⟨by rw [hsockets], hsame⟩⟩, .inl rfl⟩

/-- The data frames go to the remote end. -/
theorem attempt_tried {s₁ : System} (happ : (s.uipUdpConns i).appstate = some k) (heth : SixBytes s.uip)
    (hopen : (s.sockets k).uipUdpConn = some i) (hidle : (s.sockets k).appdata.send = true →
      (s.sockets k).appdata.packetOut ≠ NOBLOCK ∧ Sizable (outSize s k))
    (htimer : s.uipUdpTimer i = some s₁)
    (h : (if 0 < s₁.uip.uipLen then send s₁ k else some s₁) = some s') :
    ∃ frames, Tried s k s' frames ∧ ∀ f ∈ frames, (s.sockets k).appdata.send = true ∧
      (frameType f.1 = UIP_ETHTYPE_IP → frameDestination f.1 = remote s k) := by
  have heth₁ := timer_sixBytes happ heth htimer
  obtain ⟨frames, ht, rfl | ⟨hwaits, hp, hfront⟩⟩ := attempt_fronted happ hidle htimer h
  · exact ⟨[], ht, List.forall_mem_nil _⟩
  · refine ⟨frames, ht, fun f hf => ⟨hwaits, fun htype => ?_⟩⟩
    rcases hfront with rfl | ⟨rest, ok, rfl⟩
    · cases hf
    · obtain rfl := List.mem_singleton.mp hf
      rw [frameType_load _ (by decide)] at htype
      rcases Uip.arpOut_agree heth₁ UIP_UDP_PHYH_LEN with harp | hagree
      · exact absurd (htype.symm.trans harp) (by decide)
      · rw [frameDestination_load, hagree.be32 (by decide) (by decide), hagree.be16 (by decide) (by decide), hp.ip,
          hp.port]
        simp [remote, remoteIP, remotePort, hopen]

-- ---------------------------------------------------------------------------
-- The steps
-- ---------------------------------------------------------------------------

theorem SameConn.paired (h : SameConn k s s') (hp : Paired k s) : Paired k s' := by
  intro i
  rw [h.conn, h.conns]
  exact hp i

theorem mapUdpConn_appstate (f : UdpConn → UdpConn) (j : Fin UIP_UDP_CONNS) :
    ((s.mapUdpConn i f).uipUdpConns j).appstate =
      if j = i then (f (s.uipUdpConns i)).appstate else (s.uipUdpConns j).appstate := by
  have hconns : (s.mapUdpConn i f).uipUdpConns = Function.update s.uipUdpConns i (f (s.uipUdpConns i)) := rfl
  rw [hconns, Function.update_apply]
  split <;> rfl

theorem mapUdpConn_paired {f : UdpConn → UdpConn} (hf : (f (s.uipUdpConns i)).appstate = (s.uipUdpConns i).appstate)
    (hp : Paired k s) : Paired k (s.mapUdpConn i f) := by
  intro j
  refine (hp j).trans ?_
  rw [mapUdpConn_appstate]
  split
  · rename_i hj
    rw [hf, hj]
  · rfl

theorem unattached_paired (hconn : (s.sockets k).uipUdpConn = none)
    (hothers : ∀ j, (s.uipUdpConns j).appstate ≠ some k) : Paired k s := by
  intro j
  rw [hconn]
  exact ⟨fun h => absurd h.symm (Option.some_ne_none j), fun h => absurd h (hothers j)⟩

/-- The connection becomes the socket's. -/
theorem attach_paired {f : UdpConn → UdpConn} (hconn : (s.sockets k).uipUdpConn = some i)
    (hf : (f (s.uipUdpConns i)).appstate = some k) (hothers : ∀ j, j ≠ i → (s.uipUdpConns j).appstate ≠ some k) :
    Paired k (s.mapUdpConn i f) := by
  intro j
  rw [mapUdpConn_appstate]
  show (s.sockets k).uipUdpConn = some j ↔ _
  rw [hconn]
  split
  · rename_i hj
    rw [hj, hf]
    exact ⟨fun _ => rfl, fun _ => rfl⟩
  · rename_i hj
    exact ⟨fun h => absurd (Option.some.inj h).symm hj, fun h => absurd h (hothers j hj)⟩

/-- The packet is as it was, or gone. -/
theorem Aimed.tried {frames : List Frame} (ha : Aimed k s a) (hsame : SameConn k s s') (h : Tried s k s' frames) :
    Aimed k s' a := by
  rcases h.data with ⟨hout, hsend⟩ | ⟨hdata, hsize⟩
  · exact ⟨hsame.paired ha.paired, fun _ => hsend, fun h => absurd hout h, fun h => absurd hout h,
      fun h => absurd hout h, fun h => absurd hout h⟩
  · refine ⟨hsame.paired ha.paired, ?_, ?_, ?_, ?_, ?_⟩
    · rw [hdata]
      exact ha.idle
    · rw [hdata, hsame.conn]
      exact ha.opened
    · rw [hdata, hsame.remains.remote]
      exact ha.aimed
    · rw [hdata, hsize]
      exact ha.pos
    · rw [hdata, hsize]
      exact ha.size

theorem Aimed.waits (ha : Aimed k s a) (hsend : (s.sockets k).appdata.send = true) :
    (s.sockets k).appdata.packetOut ≠ NOBLOCK ∧ Sizable (outSize s k) := by
  have hout : (s.sockets k).appdata.packetOut ≠ NOBLOCK := fun h =>
    absurd (hsend.symm.trans (ha.idle h)) (by decide)
  exact ⟨hout, ha.size hout⟩

theorem attempt_same {s₁ : System} (htimer : s.uipUdpTimer i = some s₁)
    (h : (if 0 < s₁.uip.uipLen then send s₁ k else some s₁) = some s') : SameConn k s s' := by
  have h₁ : SameConn k s s₁ := uipUdpTimer_same htimer
  split at h
  · exact h₁.trans (send_same h)
  · cases h
    exact h₁

/-- The frames of an attempt go where the packet is for. -/
theorem attempt_aimed {s₁ : System} {frames : List Frame} (ha : Aimed k s a) (heth : SixBytes s.uip)
    (happ : (s.uipUdpConns i).appstate = some k) (htimer : s.uipUdpTimer i = some s₁)
    (h : (if 0 < s₁.uip.uipLen then send s₁ k else some s₁) = some s')
    (hsent : s'.net.sent = frames ++ s.net.sent) :
    Aimed k s' a ∧ ∀ f ∈ frames, frameType f.1 = UIP_ETHTYPE_IP → a = some (frameDestination f.1) := by
  have hsame := attempt_same htimer h
  obtain ⟨frames', ht, hdest⟩ := attempt_tried happ heth ((ha.paired i).mpr happ) ha.waits htimer h
  obtain rfl := List.append_cancel_right (hsent.symm.trans ht.sent)
  refine ⟨ha.tried hsame ht, fun f hf htype => ?_⟩
  obtain ⟨hsend, hto⟩ := hdest f hf
  rw [hto htype]
  exact ha.aimed (ha.waits hsend).1

theorem poll_attempt (happ : (s.uipUdpConns i).appstate = some k) (hcall : tickUdp s i = some s') :
    ∃ s₁, s.uipUdpTimer i = some s₁ ∧ (if 0 < s₁.uip.uipLen then send s₁ k else some s₁) = some s' := by
  simp only [tickUdp, Option.bind_eq_bind, Option.pure_def] at hcall
  obtain ⟨s₁, htimer, hcall⟩ := Option.bind_eq_some_iff.mp hcall
  have hconns : s₁.uipUdpConns = s.uipUdpConns := (uipUdpTimer_same (k := k) htimer).conns
  rw [hconns, happ] at hcall
  exact ⟨s₁, htimer, hcall⟩

theorem poll_aimed {frames : List Frame} (ha : Aimed k s a) (heth : SixBytes s.uip)
    (happ : (s.uipUdpConns i).appstate = some k) (hcall : tickUdp s i = some s')
    (hsent : s'.net.sent = frames ++ s.net.sent) :
    Aimed k s' a ∧ ∀ f ∈ frames, frameType f.1 = UIP_ETHTYPE_IP → a = some (frameDestination f.1) := by
  obtain ⟨s₁, htimer, hsend⟩ := poll_attempt happ hcall
  exact attempt_aimed ha heth happ htimer hsend hsent

theorem Aimed.ended (ha : Aimed k s a) (hout : (s.sockets k).appdata.packetOut ≠ NOBLOCK)
    (hmax : (s.sockets k).appdata.outPos + UIP_SENDBUFFER_PADDING < 65536) : Aimed k (ended s k) a := by
  have hdata : ((UIPUDP.ended s k).sockets k).appdata = { (s.sockets k).appdata with send := true } := by
    simp [UIPUDP.ended]
  have hconn : ((UIPUDP.ended s k).sockets k).uipUdpConn = (s.sockets k).uipUdpConn := by simp [UIPUDP.ended]
  have hsame : SameConn k s (UIPUDP.ended s k) := ⟨hconn, rfl⟩
  have hsize : outSize (UIPUDP.ended s k) k = (s.sockets k).appdata.outPos + UIP_SENDBUFFER_PADDING := by
    rw [outSize, hdata, ← add16_eq hmax]
    show (Function.update s.net.blocks (s.sockets k).appdata.packetOut _ (s.sockets k).appdata.packetOut).size = _
    rw [Function.update_self]
  obtain ⟨hlow, -⟩ := ha.pos hout
  refine ⟨hsame.paired ha.paired, ?_, ?_, ?_, ?_, ?_⟩
  · rw [hdata]
    exact fun h => absurd h hout
  · rw [hconn]
    exact fun _ => ha.opened hout
  · rw [hsame.remains.remote]
    exact fun _ => ha.aimed hout
  · rw [hdata, hsize]
    exact fun _ => ⟨hlow, Nat.le_add_right _ _⟩
  · rw [hsize]
    exact fun _ => ⟨Nat.add_le_add_right hlow UIP_SENDBUFFER_PADDING, hmax⟩

/-- `endPacket` makes the first attempt. -/
theorem endPacket_attempt {success : Bool} (hi : (s.sockets k).uipUdpConn = some i)
    (hout : (s.sockets k).appdata.packetOut ≠ NOBLOCK) (hcall : endPacket s k = some (s', success)) :
    ∃ s₁, (ended s k).uipUdpTimer i = some s₁ ∧ (if 0 < s₁.uip.uipLen then send s₁ k else some s₁) = some s' := by
  have hcall' : ((ended s k).uipUdpTimer i).bind (fun s =>
      if 0 < s.uip.uipLen then (send s k).bind fun s => some (s, true) else some (s, false)) = some (s', success) := by
    rw [← hcall]
    simp only [endPacket, hi, if_neg hout]
    rfl
  obtain ⟨s₁, htimer, hcall'⟩ := Option.bind_eq_some_iff.mp hcall'
  refine ⟨s₁, htimer, ?_⟩
  split at hcall'
  · rename_i hlen
    obtain ⟨s₂, hsend, hcall'⟩ := Option.bind_eq_some_iff.mp hcall'
    cases hcall'
    rw [if_pos hlen, hsend]
  · rename_i hlen
    cases hcall'
    rw [if_neg hlen]

theorem endPacket_aimed {frames : List Frame} {success : Bool} (ha : Aimed k s a) (heth : SixBytes s.uip)
    (hmax : (s.sockets k).appdata.packetOut ≠ NOBLOCK →
      (s.sockets k).appdata.outPos + UIP_SENDBUFFER_PADDING < 65536)
    (hcall : endPacket s k = some (s', success)) (hsent : s'.net.sent = frames ++ s.net.sent) :
    Aimed k s' a ∧ ∀ f ∈ frames, frameType f.1 = UIP_ETHTYPE_IP → a = some (frameDestination f.1) := by
  by_cases hout : (s.sockets k).appdata.packetOut = NOBLOCK
  · rw [endPacket_idle hout] at hcall
    cases hcall
    rw [List.self_eq_append_left.mp hsent]
    exact ⟨ha, List.forall_mem_nil _⟩
  · obtain ⟨i, hi⟩ := Option.ne_none_iff_exists'.mp (ha.opened hout)
    have hended := ha.ended hout (hmax hout)
    obtain ⟨s₁, htimer, hsend⟩ := endPacket_attempt hi hout hcall
    exact attempt_aimed hended heth ((ha.paired i).mp hi) htimer hsend hsent

theorem Aimed.idle_of (hp : Paired k s') (hout : (s'.sockets k).appdata.packetOut = NOBLOCK)
    (hsend : (s'.sockets k).appdata.send = false) : Aimed k s' a :=
  ⟨hp, fun _ => hsend, fun h => absurd hout h, fun h => absurd hout h, fun h => absurd hout h,
    fun h => absurd hout h⟩

/-- The packet waits, maybe for another remote end. -/
theorem Aimed.readdressed {a' : Option Address} (ha : Aimed k s a) (hp : Paired k s')
    (hconn : (s.sockets k).uipUdpConn ≠ none → (s'.sockets k).uipUdpConn ≠ none)
    (hremote : (s.sockets k).appdata.packetOut ≠ NOBLOCK → a' = some (remote s' k))
    (hout : (s'.sockets k).appdata.packetOut = (s.sockets k).appdata.packetOut)
    (hpos : (s'.sockets k).appdata.outPos = (s.sockets k).appdata.outPos)
    (hsend : (s'.sockets k).appdata.send = (s.sockets k).appdata.send)
    (hsize : (s.sockets k).appdata.packetOut ≠ NOBLOCK → outSize s' k = outSize s k) : Aimed k s' a' := by
  refine ⟨hp, ?_, ?_, ?_, ?_, ?_⟩ <;> rw [hout]
  · rw [hsend]
    exact ha.idle
  · exact fun h => hconn (ha.opened h)
  · exact hremote
  · rw [hpos]
    exact fun h => (hsize h).symm ▸ ha.pos h
  · exact fun h => (hsize h).symm ▸ ha.size h

/-- The packet waits for the same remote end. -/
theorem Aimed.unchanged (ha : Aimed k s a) (hp : Paired k s')
    (hconn : (s.sockets k).uipUdpConn ≠ none → (s'.sockets k).uipUdpConn ≠ none)
    (hremote : (s.sockets k).appdata.packetOut ≠ NOBLOCK → remote s' k = remote s k)
    (hout : (s'.sockets k).appdata.packetOut = (s.sockets k).appdata.packetOut)
    (hpos : (s'.sockets k).appdata.outPos = (s.sockets k).appdata.outPos)
    (hsend : (s'.sockets k).appdata.send = (s.sockets k).appdata.send)
    (hsize : (s.sockets k).appdata.packetOut ≠ NOBLOCK → outSize s' k = outSize s k) : Aimed k s' a :=
  ha.readdressed hp hconn (fun h => (hremote h).symm ▸ ha.aimed h) hout hpos hsend hsize

theorem write_aimed {buffer : List Byte} {n : Nat} (ha : Aimed k s a) (h : write s k buffer = (s', n)) :
    Aimed k s' a := by
  have hsame : SameConn k s s' := write_same h
  simp only [write] at h
  split at h
  · cases h
    exact ha
  · rename_i hout
    cases h
    obtain ⟨hlow, hhigh⟩ := ha.pos hout
    obtain ⟨hfit, hmax⟩ := ha.size hout
    -- no more is written than the block holds
    let n := clip (s.net.blocks (s.sockets k).appdata.packetOut) (s.sockets k).appdata.outPos buffer.length
    have hn : n ≤ outSize s k - (s.sockets k).appdata.outPos := by
      show (if _ then _ else _) ≤ _
      rw [sub16_eq (show _ ≤ (s.net.blocks _).size from hhigh) hmax]
      unfold outSize
      split <;> omega
    have hadd : add16 (s.sockets k).appdata.outPos n = (s.sockets k).appdata.outPos + n := add16_eq (by omega)
    refine ⟨hsame.paired ha.paired, ?_, ?_, ?_, ?_, ?_⟩
    · rw [mapAppdata_appdata]
      exact fun h => absurd h hout
    · exact fun _ => hsame.conn ▸ ha.opened hout
    · rw [hsame.remains.remote]
      exact fun _ => ha.aimed hout
    · rw [outSize, mapAppdata_appdata]
      refine fun _ => ⟨?_, ?_⟩
      · exact (hlow.trans (Nat.le_add_right _ n)).trans_eq hadd.symm
      · exact hadd.trans_le (show _ ≤ outSize s k by omega)
    · rw [outSize, mapAppdata_appdata]
      exact fun _ => ha.size hout

theorem queue_out {size : Nat} (h : queue s k size = some s') :
    (s'.sockets k).appdata.packetOut = (s.sockets k).appdata.packetOut ∧
      (s'.sockets k).appdata.outPos = (s.sockets k).appdata.outPos ∧
      (s'.sockets k).appdata.send = (s.sockets k).appdata.send ∧
      (outSize s k ≠ 0 → (s.sockets k).appdata.packetOut ≠ NOBLOCK → outSize s' k = outSize s k) := by
  simp only [queue, Option.bind_eq_bind, Option.bind_eq_some_iff, Option.pure_def, Prod.exists] at h
  obtain ⟨net, b, halloc, h⟩ := h
  split at h
  · cases h
    refine ⟨by rw [mapAppdata_appdata]; rfl, by rw [mapAppdata_appdata]; rfl, by rw [mapAppdata_appdata]; rfl,
      fun hsize hout => ?_⟩
    rw [outSize, mapAppdata_appdata]
    exact (allocBlock_size halloc hsize hout).2
  · obtain ⟨net', hcopy, h⟩ := Option.bind_eq_some_iff.mp h
    cases h
    refine ⟨by rw [setNet_sockets, mapAppdata_appdata]; rfl, by rw [setNet_sockets, mapAppdata_appdata]; rfl,
      by rw [setNet_sockets, mapAppdata_appdata]; rfl, fun hsize hout => ?_⟩
    rw [outSize, setNet_sockets, mapAppdata_appdata, setNet_net, copyPacket_blocks hcopy]
    exact (allocBlock_size halloc hsize hout).2

theorem arrive_aimed (ha : Aimed k s a) (hconn : (s.sockets k).uipUdpConn = some i)
    (happ : (s.uipUdpConns i).appstate = some k) (hflags : s.uip.uipFlags = UIP_NEWDATA)
    (haims : Aims k s (.arrive (source s))) (h : uipudpAppcall s i = some s') : Aimed k s' a := by
  obtain ⟨hconn', hremote⟩ := appcall_remote hconn happ hflags h
  simp only [uipudpAppcall, happ, Option.bind_eq_bind, Option.pure_def] at h
  obtain ⟨s₁, hreceived, h⟩ := Option.bind_eq_some_iff.mp h
  cases h
  obtain ⟨hflags', -⟩ := received_next hflags hreceived
  rw [polled_newdata hflags'] at hconn' hremote ⊢
  have hremote' : (s.sockets k).appdata.packetOut ≠ NOBLOCK → remote s₁ k = remote s k := by
    intro hout
    rw [hremote]
    split
    · rename_i hfree
      exact haims hout hfree
    · rfl
  have hopen : (s.sockets k).uipUdpConn ≠ none → (s₁.sockets k).uipUdpConn ≠ none := by
    rw [hconn', hconn]
    exact id
  unfold received at hreceived
  split at hreceived
  · let s₀ := s.mapUdpConn i fun conn =>
      { conn with rport := s.uip.uipBuf.u16 Offset.srcport, ripaddr := s.uip.uipBuf.be32 Offset.srcipaddr }
    have hq : queue s₀ k (sub16 (s.uip.uipBuf.be16 Offset.udplen) UIP_UDPH_LEN) = some s₁ := hreceived
    obtain ⟨hout, hpos, hsend, hsize⟩ := queue_out hq
    have hp : Paired k s₁ := (queue_same hq).paired (mapUdpConn_paired rfl ha.paired)
    refine ha.unchanged hp hopen hremote' hout hpos hsend fun h => hsize ?_ h
    exact Nat.ne_of_gt (Nat.lt_of_lt_of_le (by decide) (ha.size h).1)
  · cases hreceived
    exact ha

theorem newConn_appstate {ripaddr : Option (BitVec 32)} {rport : Nat} (h : newConn s k ripaddr rport = some s')
    (j : Fin UIP_UDP_CONNS) : (s'.uipUdpConns j).appstate = (s.uipUdpConns j).appstate := by
  simp only [newConn, Option.bind_eq_bind] at h
  obtain ⟨⟨s₁, conn⟩, hnew, h⟩ := Option.bind_eq_some_iff.mp h
  cases h
  simp only [uipUdpNew, Option.bind_eq_bind] at hnew
  obtain ⟨lastport, -, hnew⟩ := Option.bind_eq_some_iff.mp hnew
  split at hnew
  · cases hnew
    rfl
  · rename_i i hfind
    cases hnew
    show (Function.update s.uipUdpConns i _ j).appstate = _
    rw [Function.update_apply]
    split
    · rename_i hj
      rw [hj]
    · rfl

/-- A socket without a connection has no packet. -/
theorem Aimed.closed (ha : Aimed k s a) (hclosed : (s.sockets k).uipUdpConn = none) :
    (s.sockets k).appdata.packetOut = NOBLOCK ∧ ∀ j, (s.uipUdpConns j).appstate ≠ some k := by
  refine ⟨by_contra fun h => ha.opened h hclosed, fun j hj => ?_⟩
  exact Option.some_ne_none j (((ha.paired j).mpr hj).symm.trans hclosed)

/-- A new connection for a socket without one. -/
theorem newConn_aimed {ripaddr : Option (BitVec 32)} {rport : Nat} (ha : Aimed k s a)
    (hclosed : (s.sockets k).uipUdpConn = none) (h : newConn s k ripaddr rport = some s') :
    (s'.sockets k).appdata.packetOut = NOBLOCK ∧ (s'.sockets k).appdata.send = false ∧
      ∀ j, (s'.uipUdpConns j).appstate ≠ some k := by
  obtain ⟨hout, hothers⟩ := ha.closed hclosed
  obtain ⟨-, hdata⟩ := newConn_ok h
  refine ⟨by rw [hdata, hout], by rw [hdata, ha.idle hout], fun j => ?_⟩
  rw [newConn_appstate h]
  exact hothers j

theorem begin_aimed {port : Nat} {success : Bool} (ha : Aimed k s a) (h : begin s k port = some (s', success)) :
    Aimed k s' a := by
  by_cases hclosed : (s.sockets k).uipUdpConn = none
  · simp only [begin, if_pos hclosed, Option.bind_eq_bind, Option.pure_def] at h
    obtain ⟨s₁, hnew, h⟩ := Option.bind_eq_some_iff.mp h
    obtain ⟨hout, hsend, hothers⟩ := newConn_aimed ha hclosed hnew
    split at h
    · rename_i hnone
      cases h
      exact .idle_of (unattached_paired hnone hothers) hout hsend
    · rename_i i hi
      cases h
      exact .idle_of (attach_paired hi rfl fun j _ => hothers j) hout hsend
  · have hremains := begin_remains hclosed h
    simp only [begin, if_neg hclosed, Option.bind_eq_bind, Option.bind_some, Option.pure_def] at h
    split at h
    · rename_i hnone
      exact absurd hnone hclosed
    · rename_i i hi
      cases h
      have hp : Paired k (s.mapUdpConn i fun conn => { conn with lport := htons port, appstate := some k }) :=
        attach_paired hi rfl fun j hj happ =>
          hj (Option.some.inj (((ha.paired j).mpr happ).symm.trans hi))
      exact ha.unchanged hp id (fun _ => hremains.remote) rfl rfl rfl fun _ => rfl

theorem stop_aimed (ha : Aimed k s a) (h : stop s k = some s') : Aimed k s' a := by
  unfold stop at h
  split at h
  · cases h
    exact ha
  · rename_i i hi
    simp only [Option.bind_eq_bind, Option.bind_eq_some_iff, Option.pure_def, Option.some.injEq] at h
    obtain ⟨net₁, -, net₂, -, net₃, -, rfl⟩ := h
    have hsocket : ∀ t : System, (t.mapSocket k fun _ => ⟨none, start⟩).sockets k = ⟨none, start⟩ := by
      intro t
      exact Function.update_self _ _ _
    refine .idle_of (unattached_paired (by rw [hsocket]) fun j happ => ?_) (by rw [hsocket]; rfl)
      (by rw [hsocket]; rfl)
    have happ : ((s.mapUdpConn i fun conn => { conn with lport := 0, appstate := none }).uipUdpConns j).appstate =
        some k := happ
    rw [mapUdpConn_appstate] at happ
    split at happ
    · exact Option.some_ne_none k happ.symm
    · rename_i hj
      exact absurd (Option.some.inj (((ha.paired j).mpr happ).symm.trans hi)) hj

theorem newConn_remote {ip : BitVec 32} {rport : Nat} (h : newConn s k (some ip) rport = some s')
    (hi : (s'.sockets k).uipUdpConn = some i) :
    (s'.uipUdpConns i).ripaddr = ip ∧ (s'.uipUdpConns i).rport = rport := by
  simp only [newConn, Option.bind_eq_bind] at h
  obtain ⟨⟨s₁, conn⟩, hnew, h⟩ := Option.bind_eq_some_iff.mp h
  cases h
  have hconn : conn = some i := by
    rw [← hi]
    simp [mapSocket]
  simp only [uipUdpNew, Option.bind_eq_bind] at hnew
  obtain ⟨lastport, -, hnew⟩ := Option.bind_eq_some_iff.mp hnew
  split at hnew
  · cases hnew
    exact absurd hconn.symm (Option.some_ne_none i)
  · cases hnew
    obtain rfl := Option.some.inj hconn
    simp [mapSocket]

/-- The address part of `beginPacket`. -/
theorem setRemote_aimed {ip : BitVec 32} {port : Nat} {success : Bool} (hport : port < 65536) (ha : Aimed k s a)
    (haims : Aims k s (.beginPacket ip port success)) (h : setRemote s k ip port = some s') :
    Aimed k s' a ∧ ((s'.sockets k).uipUdpConn ≠ none → (s'.sockets k).appdata.packetOut = NOBLOCK →
      remote s' k = (ip, port)) := by
  simp only [Aims] at haims
  by_cases hgiven : ip ≠ 0 ∧ port ≠ 0
  · cases hconn : (s.sockets k).uipUdpConn with
    | some i =>
      have hopen : (s.sockets k).uipUdpConn ≠ none := hconn ▸ Option.some_ne_none i
      obtain ⟨-, hremote⟩ := setRemote_remote hopen h
      rw [if_pos hgiven, htons_htons hport] at hremote
      rw [setRemote, if_pos hgiven, connectTo, hconn] at h
      cases h
      refine ⟨?_, fun _ _ => hremote⟩
      refine ha.unchanged (mapUdpConn_paired rfl ha.paired) id (fun hout => ?_) rfl rfl rfl fun _ => rfl
      rw [if_neg hout] at haims
      exact hremote.trans (haims hgiven).symm
    | none =>
      rw [setRemote, if_pos hgiven, connectTo, hconn] at h
      obtain ⟨s₁, hnew, h⟩ := Option.bind_eq_some_iff.mp h
      obtain ⟨hout, hsend, hothers⟩ := newConn_aimed ha hconn hnew
      cases hi : (s₁.sockets k).uipUdpConn with
      | none =>
        rw [hi] at h
        cases h
        exact ⟨.idle_of (unattached_paired hi hothers) hout hsend, fun hne => absurd hi hne⟩
      | some i =>
        obtain ⟨hip, hrport⟩ := newConn_remote hnew hi
        rw [hi] at h
        cases h
        refine ⟨.idle_of (attach_paired hi rfl fun j _ => hothers j) hout hsend, fun _ _ => ?_⟩
        simp [remote, remoteIP, remotePort, mapUdpConn, hi, hip, hrport, htons_htons hport]
  · rw [setRemote, if_neg hgiven] at h
    cases h
    refine ⟨ha, fun hopen hout => ?_⟩
    rw [if_pos hout] at haims
    rcases haims with hclosed | hboth | hremote
    · exact absurd hclosed hopen
    · exact absurd hboth hgiven
    · exact hremote

/-- A block for the next packet, if there is one. -/
theorem alloc_aimed {net : Enc28J60Network} {b : Handle} {a' : Option Address} (ha : Aimed k s a)
    (hopen : (s.sockets k).uipUdpConn ≠ none) (hout : (s.sockets k).appdata.packetOut = NOBLOCK)
    (halloc : s.net.allocBlock (UIP_UDP_MAXPACKETSIZE + UIP_SENDBUFFER_OFFSET + UIP_SENDBUFFER_PADDING) = some (net, b))
    (hto : b ≠ NOBLOCK → a' = some (remote s k)) : Aimed k ((s.setNet net).mapAppdata k fun data =>
      { data with packetOut := b, outPos := UIP_UDP_PHYH_LEN + UIP_SENDBUFFER_OFFSET }) a' := by
  generalize hs₂ : ((s.setNet net).mapAppdata k fun data =>
    { data with packetOut := b, outPos := UIP_UDP_PHYH_LEN + UIP_SENDBUFFER_OFFSET }) = s₂
  have hdata : (s₂.sockets k).appdata = { (s.sockets k).appdata with
      packetOut := b, outPos := UIP_UDP_PHYH_LEN + UIP_SENDBUFFER_OFFSET } := by
    rw [← hs₂]
    exact mapAppdata_appdata _ _ _
  have hsame : SameConn k s s₂ := by
    rw [← hs₂]
    exact (setNet_same net).trans (mapAppdata_same k _)
  have hnet : s₂.net = net := by rw [← hs₂]; rfl
  by_cases hb : b = NOBLOCK
  · refine .idle_of (hsame.paired ha.paired) ?_ ?_
    · rw [hdata]
      exact hb
    · rw [hdata]
      exact ha.idle hout
  · have hsize : outSize s₂ k = UIP_UDP_MAXPACKETSIZE + UIP_SENDBUFFER_OFFSET + UIP_SENDBUFFER_PADDING := by
      rw [outSize, hdata, hnet]
      exact allocBlock_new halloc hb
    refine ⟨hsame.paired ha.paired, fun h => absurd ((congrArg UdpUserdata.packetOut hdata).symm.trans h) hb,
      fun _ => hsame.conn ▸ hopen, fun _ => hsame.remains.remote.symm ▸ hto hb, fun _ => ?_, fun _ => ?_⟩
    · rw [hsize]
      have hpos : (s₂.sockets k).appdata.outPos = UIP_UDP_PHYH_LEN + UIP_SENDBUFFER_OFFSET :=
        congrArg UdpUserdata.outPos hdata
      exact ⟨hpos.ge, hpos.trans_le (by decide)⟩
    · rw [hsize]
      decide

theorem beginPacket_aimed {ip : BitVec 32} {port : Nat} {success : Bool} (hport : port < 65536) (ha : Aimed k s a)
    (haims : Aims k s (.beginPacket ip port success)) (h : beginPacket s k ip port = some (s', success)) :
    Aimed k s' (DestEvent.started a (.beginPacket ip port success)) := by
  simp only [beginPacket, Option.bind_eq_bind, Option.pure_def] at h
  obtain ⟨s₁, hto, h⟩ := Option.bind_eq_some_iff.mp h
  obtain ⟨ha₁, hremote⟩ := setRemote_aimed hport ha haims hto
  split at h
  · rename_i hfree
    obtain ⟨hopen, hout⟩ := hfree
    obtain ⟨⟨net, b⟩, halloc, h⟩ := Option.bind_eq_some_iff.mp h
    cases h
    refine alloc_aimed ha₁ hopen hout halloc fun hb => ?_
    have hstarted : DestEvent.started a (.beginPacket ip port (b != NOBLOCK)) = some (ip, port) := by
      rw [bne_iff_ne.mpr hb]
      rfl
    rw [hremote hopen hout]
    exact hstarted
  · cases h
    exact ha₁

/-- Every step keeps the aim, and its frames go there. -/
theorem DestStep.aimed {e : DestEvent} (ha : Aimed k s a) (h : DestStep k s e s') (haims : Aims k s e) :
    Aimed k s' (e.started a) ∧
      ∀ f ∈ e.frames, frameType f.1 = UIP_ETHTYPE_IP → a = some (frameDestination f.1) := by
  cases h with
  | beginPacket hport hcall => exact ⟨beginPacket_aimed hport ha haims hcall, List.forall_mem_nil _⟩
  | write hcall => exact ⟨write_aimed ha hcall, List.forall_mem_nil _⟩
  | endPacket heth hcall hsent => exact endPacket_aimed ha heth haims hcall hsent
  | poll heth happ hcall hsent => exact poll_aimed ha heth happ hcall hsent
  | arrive hconn happ hflags hcall => exact ⟨arrive_aimed ha hconn happ hflags haims hcall, List.forall_mem_nil _⟩
  | begin hcall => exact ⟨begin_aimed ha hcall, List.forall_mem_nil _⟩
  | stop hcall => exact ⟨stop_aimed ha hcall, List.forall_mem_nil _⟩
  | other hother =>
    have hp : Paired k s' := fun i => by
      rw [hother.conn]
      exact (ha.paired i).trans (hother.appstate i).symm
    exact ⟨ha.unchanged hp (fun h => hother.conn ▸ h) (fun _ => hother.remote) hother.packetOut hother.outPos
      hother.send fun _ => hother.size, List.forall_mem_nil _⟩

/-- In every run whose steps do not overwrite the remote end while a packet
waits, every data frame goes to the address of the `beginPacket` that started
its packet. -/
theorem destinations {es : List DestEvent} (h : Run (fun s e s' => DestStep k s e s' ∧ Aims k s e) s es s')
    (hp : Paired k s) (hout : (s.sockets k).appdata.packetOut = NOBLOCK)
    (hsend : (s.sockets k).appdata.send = false) : Addressed es := by
  suffices hall : Aimed k s' (started es) ∧ Addressed es from hall.2
  induction h with
  | nil => exact ⟨.idle_of hp hout hsend, fun before e behind hes => by simp at hes⟩
  | snoc _ hs ih =>
    obtain ⟨ha, hes⟩ := ih
    obtain ⟨ha', hframes⟩ := hs.1.aimed ha hs.2
    rw [started_snoc]
    exact ⟨ha', hes.snoc hframes⟩

-- ---------------------------------------------------------------------------
-- A packet begun twice
-- ---------------------------------------------------------------------------

/-- A host whose transmitter takes one frame. -/
def hostSystem : System := System.init (fun _ => 0) [⟨true, []⟩] [1, 2, 3, 4, 5, 6] 0

/-- One byte is written and sent. -/
def sendByte (s : System) : Option System := (endPacket (write s 0 [7]).1 0).map (·.1)

def checkByte (s s' : System) : Bool :=
  (write s 0 [7]).1.net.sent.length = 0 && ((write s 0 [7]).1.sockets 0).appdata.outPos = 44 &&
    s'.net.sent.map (fun f => (frameType f.1, frameDestination f.1)) = [(UIP_ETHTYPE_IP, (0xffffffff, 7))]

/-- The packet of one byte goes to the broadcast address. -/
theorem sendByte_steps (heth : SixBytes s.uip) (h : sendByte s = some s') (hcheck : checkByte s s') :
    ∃ s₁ frames,
      frames.map (fun f => (frameType f.1, frameDestination f.1)) = [(UIP_ETHTYPE_IP, (0xffffffff, 7))] ∧
      (DestStep 0 s (.write [7]) s₁ ∧ Aims 0 s (.write [7])) ∧
      DestStep 0 s₁ (.endPacket frames) s' ∧ Aims 0 s₁ (.endPacket frames) := by
  simp only [checkByte, Bool.and_eq_true, decide_eq_true_eq] at hcheck
  obtain ⟨⟨hnone, hpos⟩, hframes⟩ := hcheck
  obtain ⟨⟨s₂, success⟩, hcall, rfl⟩ := Option.map_eq_some_iff.mp h
  have hsent : s₂.net.sent = s₂.net.sent ++ (write s 0 [7]).1.net.sent := by
    rw [List.eq_nil_of_length_eq_zero hnone, List.append_nil]
  have heth₁ : SixBytes (write s 0 [7]).1.uip := by
    simp only [write]
    split
    · exact heth
    · exact heth
  have hmax : ((write s 0 [7]).1.sockets 0).appdata.outPos + UIP_SENDBUFFER_PADDING < 65536 := by
    rw [hpos]
    decide
  exact ⟨(write s 0 [7]).1, s₂.net.sent, hframes, ⟨.write rfl, trivial⟩, .endPacket heth₁ hcall hsent, fun _ => hmax⟩

def sixBytes (s : System) : Bool :=
  s.uip.uipEthaddr.length = 6 && (List.finRange UIP_ARPTAB_SIZE).all fun i => (s.uip.arpTable i).ethaddr.length = 6

theorem sixBytes_iff (s : System) : sixBytes s ↔ SixBytes s.uip := by
  simp [sixBytes, SixBytes]

/-- A packet of one byte to the broadcast address. -/
theorem destinations_example : ∃ frames s',
    frames.map (fun f => (frameType f.1, frameDestination f.1)) = [(UIP_ETHTYPE_IP, (0xffffffff, 7))] ∧
    Run (fun s e s' => DestStep 0 s e s' ∧ Aims 0 s e) hostSystem
      [.beginPacket 0xffffffff 7 true, .write [7], .endPacket frames] s' ∧
    Addressed [.beginPacket 0xffffffff 7 true, .write [7], .endPacket frames] := by
  have hcompute : ((beginPacket hostSystem 0 0xffffffff 7).bind fun p =>
      (sendByte p.1).map fun s => p.2 && sixBytes p.1 && checkByte p.1 s) = some true := by decide +kernel
  obtain ⟨⟨s₁, success⟩, h₁, h⟩ := Option.bind_eq_some_iff.mp hcompute
  obtain ⟨s₂, h₂, h⟩ := Option.map_eq_some_iff.mp h
  simp only [Bool.and_eq_true] at h
  obtain ⟨⟨rfl, heth⟩, hcheck⟩ := h
  obtain ⟨s₃, frames, hframes, hwrite, hend⟩ := sendByte_steps ((sixBytes_iff s₁).mp heth) h₂ hcheck
  have hrun : Run (fun s e s' => DestStep 0 s e s' ∧ Aims 0 s e) hostSystem
      [.beginPacket 0xffffffff 7 true, .write [7], .endPacket frames] s₂ :=
    .snoc (.snoc (.snoc .nil ⟨.beginPacket (by decide) h₁, .inl rfl⟩) hwrite) hend
  exact ⟨frames, s₂, hframes, hrun, destinations hrun (unattached_paired rfl fun j => (Option.some_ne_none 0).symm) rfl rfl⟩

/-- A second `beginPacket`, which returns 0, sends the packet elsewhere. -/
theorem failed_beginPacket_redirects : ∃ es s', Run (DestStep 0) hostSystem es s' ∧ ¬Addressed es := by
  have hcompute : ((beginPacket hostSystem 0 2 80).bind fun p => (beginPacket p.1 0 0xffffffff 7).bind fun q =>
      (sendByte q.1).map fun s => p.2 && !q.2 && sixBytes q.1 && checkByte q.1 s) = some true := by decide +kernel
  obtain ⟨⟨s₁, success₁⟩, h₁, h⟩ := Option.bind_eq_some_iff.mp hcompute
  obtain ⟨⟨s₂, success₂⟩, h₂, h⟩ := Option.bind_eq_some_iff.mp h
  obtain ⟨s₃, h₃, h⟩ := Option.map_eq_some_iff.mp h
  simp only [Bool.and_eq_true, Bool.not_eq_true'] at h
  obtain ⟨⟨⟨rfl, rfl⟩, heth⟩, hcheck⟩ := h
  obtain ⟨s₄, frames, hframes, hwrite, hend⟩ := sendByte_steps ((sixBytes_iff s₂).mp heth) h₃ hcheck
  refine ⟨[.beginPacket 2 80 true, .beginPacket 0xffffffff 7 false, .write [7], .endPacket frames], s₃,
    .snoc (.snoc (.snoc (.snoc .nil (.beginPacket (by decide) h₁)) (.beginPacket (by decide) h₂)) hwrite.1) hend.1,
    fun haddressed => ?_⟩
  obtain ⟨f, hf, hfields⟩ := List.mem_map.mp (hframes ▸ List.mem_singleton_self (UIP_ETHTYPE_IP, (0xffffffff, 7)))
  obtain ⟨htype, hdest⟩ := Prod.mk.inj hfields
  have hstarted := haddressed [.beginPacket 2 80 true, .beginPacket 0xffffffff 7 false, .write [7]]
    (.endPacket frames) [] rfl f hf htype
  rw [hdest] at hstarted
  exact absurd (Option.some.inj hstarted) (by decide)

end UIPEthernet.UIPUDP
