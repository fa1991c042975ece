import UIPEthernet.UIPEthernetClass.KeptPacket
import UIPEthernet.UIPUdp.Listening
import UIPEthernet.UIPUdp.Sender

/-!
# The lengths of datagrams

A datagram that comes in is as long as the UDP header says, and one that goes
out as long as the sketch has written. The blocks are allocated for what the
lengths should be.
-/

namespace UIPEthernet

open Enc28J60Network Lib

namespace UIPUDP

open UIPEthernet.System

variable {s s' : System} {i : Fin UIP_UDP_CONNS} {k : Nat}

-- ---------------------------------------------------------------------------
-- Datagrams that come in
-- ---------------------------------------------------------------------------

/-- A block of the size is allocated, and as many bytes are copied into it from
behind the headers of the frame. -/
def Stored (s : System) (size : Nat) (h : Handle) : Prop :=
  h ≠ NOBLOCK ∧ ∃ net net' : Enc28J60Network,
    s.net.allocBlock size = some (net, h) ∧ net.copyPacket h 0 s.inPacket UIP_UDP_PHYH_LEN size = some net'

theorem mapAppdata_other (f : UdpUserdata → UdpUserdata) {j : Nat} (hj : j ≠ k) :
    (s.mapAppdata k f).sockets j = s.sockets j := Function.update_of_ne hj _ _

theorem queue_stored {size j : Nat} (h : queue s k size = some s') (hfree : (s.sockets j).appdata.packetNext = NOBLOCK)
    (hnext : (s'.sockets j).appdata.packetNext ≠ NOBLOCK) :
    j = k ∧ Stored s size (s'.sockets j).appdata.packetNext := by
  simp only [queue, Option.bind_eq_bind, Option.pure_def] at h
  obtain ⟨⟨net, b⟩, halloc, h⟩ := Option.bind_eq_some_iff.mp h
  split at h
  · rename_i hb
    cases h
    refine absurd ?_ hnext
    by_cases hj : j = k
    · rw [hj, mapAppdata_appdata]
      exact hb
    · rw [mapAppdata_other _ hj]
      exact hfree
  · rename_i hb
    obtain ⟨net', hcopy, h⟩ := Option.bind_eq_some_iff.mp h
    cases h
    rw [setNet_sockets] at hnext ⊢
    by_cases hj : j = k
    · subst hj
      rw [mapAppdata_appdata]
      have hsize : net.blockSize b = size := by
        have hhandle : b ≠ UIP_RECEIVEBUFFERHANDLE := by
          have := allocBlock_handle halloc
          intro he
          rw [he] at this
          exact absurd this (by decide)
        rw [blockSize, if_neg hb, if_neg hhandle, allocBlock_new halloc hb]
      rw [show ((s.setNet net).mapAppdata j fun data => { data with packetNext := b }).net = net from rfl, hsize] at hcopy
      exact ⟨rfl, hb, net, net', halloc, hcopy⟩
    · rw [mapAppdata_other _ hj] at hnext
      exact absurd hfree hnext

theorem received_stored {j : Nat} (h : received s i k = some s') (hfree : (s.sockets j).appdata.packetNext = NOBLOCK)
    (hnext : (s'.sockets j).appdata.packetNext ≠ NOBLOCK) :
    j = k ∧ Stored s (payloadSize s) (s'.sockets j).appdata.packetNext := by
  unfold received at h
  split at h
  · exact queue_stored (s := s.mapUdpConn i _) h hfree hnext
  · cases h
    exact absurd hfree hnext

theorem setUp_sockets (h : Handle) (state : BitVec 8) (hdrlen slen : Nat) :
    ((((s.setUipPacket h).setPacketstate state).setHdrlen hdrlen).setSlen slen).sockets = s.sockets := rfl

theorem polled_sockets : (polled s k).sockets = s.sockets := by
  simp only [polled]
  split
  · exact setUp_sockets _ _ _ _
  · rfl

theorem appcall_stored {j : Nat} (h : uipudpAppcall s i = some s') (hfree : (s.sockets j).appdata.packetNext = NOBLOCK)
    (hnext : (s'.sockets j).appdata.packetNext ≠ NOBLOCK) :
    (s.uipUdpConns i).appstate = some j ∧ Stored s (payloadSize s) (s'.sockets j).appdata.packetNext := by
  unfold uipudpAppcall at h
  split at h
  · cases h
    exact absurd hfree hnext
  · rename_i k hk
    obtain ⟨s₁, hreceived, h⟩ := Option.bind_eq_some_iff.mp h
    cases h
    rw [polled_sockets] at hnext ⊢
    obtain ⟨rfl, hstored⟩ := received_stored hreceived hfree hnext
    exact ⟨hk, hstored⟩

end UIPUDP

namespace System

open UIPUDP

variable {s s' s₁ : System} {c : Fin UIP_CONNS} {k : Nat}

theorem Touch.sockets (h : Touch c s s') : s'.sockets = s.sockets := by rw [h.same]

theorem found_sockets (h : s.found c = some s') : s'.sockets = s.sockets := by
  cases found_turn h with
  | quiet h => exact h.toTouch.sockets
  | served s₁ s₂ hpre hcall hpost =>
    rw [hpost.toTouch.sockets, (UIPClient.appcall_confined hcall).sockets, hpre.toTouch.sockets]

theorem foundListen_sockets (h : s.foundListen = some s') : s'.sockets = s.sockets := by
  rcases foundListen_opened h with honly | ⟨c, hopened⟩
  · exact honly.sockets
  · exact hopened.touch.sockets

theorem Input.stored (h : Input s s') (hfree : (s.sockets k).appdata.packetNext = NOBLOCK)
    (hnext : (s'.sockets k).appdata.packetNext ≠ NOBLOCK) :
    Stored s (payloadSize s) (s'.sockets k).appdata.packetNext := by
  cases h with
  | scratch h => exact absurd (h.sockets ▸ hfree) hnext
  | segment s₁ c hpre _ _ h => exact absurd (((found_sockets h).trans hpre.sockets) ▸ hfree) hnext
  | listen s₁ hpre h => exact absurd (((foundListen_sockets h).trans hpre.sockets) ▸ hfree) hnext
  | datagram s₁ s₂ i hpre hbuf _ hcall hpost =>
    rw [hpost.sockets] at hnext ⊢
    rw [← hpre.sockets] at hfree
    obtain ⟨-, hstored⟩ := appcall_stored hcall hfree hnext
    rw [Stored, payloadSize, hpre.net, hpre.inPacket, hbuf] at hstored
    exact hstored

theorem fetch_sockets (s : System) : s.fetch.sockets = s.sockets := by
  unfold fetch
  split <;> rfl

theorem release_sockets (s : System) : s.release.sockets = s.sockets := by
  unfold release
  split <;> rfl

/-- The datagram that `tick` queues has the size of the UDP header. -/
theorem tickInput_stored (h : s.tickInput = some s') (hfree : (s.sockets k).appdata.packetNext = NOBLOCK)
    (hnext : (s'.sockets k).appdata.packetNext ≠ NOBLOCK) :
    Stored s.fetch (sub16 (s.fetch.frameBuf.be16 Offset.udplen) UIP_UDPH_LEN) (s'.sockets k).appdata.packetNext := by
  rw [← fetch_sockets s] at hfree
  rcases tickInput_handled h with ⟨-, rfl⟩ | ⟨s₁, -, hhandled, rfl⟩
  · exact absurd hfree hnext
  · rw [release_sockets] at hnext ⊢
    cases hhandled with
    | scratch h => exact absurd (h.sockets ▸ hfree) hnext
    | packet s₂ s₃ hpre hbuf hinput hsend =>
      rw [(sendOut_only hsend).sockets] at hnext ⊢
      have hframe : s₂.uip.uipBuf = s.fetch.frameBuf := hbuf
      have hstored := hinput.stored (hpre.sockets ▸ hfree) hnext
      rw [Stored, payloadSize, hpre.net, hpre.inPacket, hframe] at hstored
      exact hstored
    | reply s₂ ok hpre hsend => exact absurd (((networkSend_only hsend).sockets.trans hpre.sockets) ▸ hfree) hnext

/-- For every frame of which `tick` queues a datagram: the size it asks for is
that of the UDP header, and it is at least one and inside the IP packet exactly
where the UDP length is. -/
theorem datagram_inside (h : s.tickInput = some s') (hfree : (s.sockets k).appdata.packetNext = NOBLOCK)
    (hnext : (s'.sockets k).appdata.packetNext ≠ NOBLOCK) :
    Stored s.fetch (sub16 (s.fetch.frameBuf.be16 Offset.udplen) UIP_UDPH_LEN) (s'.sockets k).appdata.packetNext ∧
    (1 ≤ sub16 (s.fetch.frameBuf.be16 Offset.udplen) UIP_UDPH_LEN ∧
        UIP_UDP_PHYH_LEN + sub16 (s.fetch.frameBuf.be16 Offset.udplen) UIP_UDPH_LEN ≤
          UIP_LLH_LEN + s.fetch.frameBuf.be16 Offset.len ↔
      UIP_UDPH_LEN < s.fetch.frameBuf.be16 Offset.udplen ∧
        UIP_IPH_LEN + s.fetch.frameBuf.be16 Offset.udplen ≤ s.fetch.frameBuf.be16 Offset.len) := by
  refine ⟨tickInput_stored h hfree hnext, ?_⟩
  have hudp := s.fetch.frameBuf.be16_lt Offset.udplen
  have hip := s.fetch.frameBuf.be16_lt Offset.len
  have hheader : UIP_UDPH_LEN = 8 := rfl
  have hheaders : UIP_UDP_PHYH_LEN = 42 := rfl
  have hlow : UIP_LLH_LEN = 14 := rfl
  have hiph : UIP_IPH_LEN = 20 := rfl
  simp only [sub16, hheader, hheaders, hlow, hiph]
  omega

/-- A socket that listens on port 7, and a frame that has come in. -/
def listening (frame : List Byte) : Option System :=
  (begin ((System.init (fun _ => 0) [] [1, 2, 3, 4, 5, 6] 0).configure 0x0a000001 0 0xff000000) 0 7).map fun x =>
    x.1.arrive (ringOf frame) 1

/-- A datagram with one byte of payload, padded, and its UDP length. -/
def datagramFrame (udplen : Byte) : List Byte :=
  [1, 2, 3, 4, 5, 6, 6, 5, 4, 3, 2, 1, 8, 0] ++
  [0x45, 0, 0, 29, 0, 0, 0, 0, 64, 17, 0x66, 0xce, 10, 0, 0, 2, 10, 0, 0, 1] ++
  [0, 9, 0, 7, 0, udplen, 0, 0, 9] ++ List.replicate 17 0

theorem datagram_inside_example : ∃ s s' : System, s.tickInput = some s' ∧ (s'.sockets 0).appdata.packetNext ≠ NOBLOCK ∧
    UIP_UDP_PHYH_LEN + sub16 (s.fetch.frameBuf.be16 Offset.udplen) UIP_UDPH_LEN ≤
      UIP_LLH_LEN + s.fetch.frameBuf.be16 Offset.len := by
  have hcompute : ((listening (datagramFrame 9)).bind fun s => s.tickInput.map fun s' =>
      decide ((s.sockets 0).appdata.packetNext = NOBLOCK ∧ (s'.sockets 0).appdata.packetNext ≠ NOBLOCK ∧
        UIP_UDPH_LEN < s.fetch.frameBuf.be16 Offset.udplen ∧
        UIP_IPH_LEN + s.fetch.frameBuf.be16 Offset.udplen ≤ s.fetch.frameBuf.be16 Offset.len)) = some true := by
    decide +kernel
  obtain ⟨s, -, hcompute⟩ := Option.bind_eq_some_iff.mp hcompute
  obtain ⟨s', hrun, hcompute⟩ := Option.map_eq_some_iff.mp hcompute
  obtain ⟨hfree, hnext, hlen⟩ := of_decide_eq_true hcompute
  exact ⟨s, s', hrun, hnext, ((datagram_inside hrun hfree hnext).2.mpr hlen).2⟩

/-- The block of a datagram with one byte of payload, and a UDP length of 40,
has 32 bytes. -/
theorem datagram_beyond : ∃ s s' : System, listening (datagramFrame 40) = some s ∧ s.tickInput = some s' ∧
    (s.sockets 0).appdata.packetNext = NOBLOCK ∧ (s'.sockets 0).appdata.packetNext ≠ NOBLOCK ∧
    Stored s.fetch 32 (s'.sockets 0).appdata.packetNext ∧ s'.net.blockSize (s'.sockets 0).appdata.packetNext = 32 ∧
    s.fetch.frameBuf.be16 Offset.len = 29 ∧
    ¬UIP_UDP_PHYH_LEN + 32 ≤ UIP_LLH_LEN + s.fetch.frameBuf.be16 Offset.len := by
  have hcompute : ((listening (datagramFrame 40)).bind fun s => s.tickInput.map fun s' =>
      decide ((s.sockets 0).appdata.packetNext = NOBLOCK ∧ (s'.sockets 0).appdata.packetNext ≠ NOBLOCK ∧
        s.fetch.frameBuf.be16 Offset.udplen = 40 ∧ s'.net.blockSize (s'.sockets 0).appdata.packetNext = 32 ∧
        s.fetch.frameBuf.be16 Offset.len = 29)) = some true := by
    decide +kernel
  obtain ⟨s, hs, hcompute⟩ := Option.bind_eq_some_iff.mp hcompute
  obtain ⟨s', hrun, hcompute⟩ := Option.map_eq_some_iff.mp hcompute
  obtain ⟨hfree, hnext, hudp, hsize, hlen⟩ := of_decide_eq_true hcompute
  have hstored := tickInput_stored hrun hfree hnext
  rw [hudp] at hstored
  refine ⟨s, s', hs, hrun, hfree, hnext, hstored, hsize, hlen, ?_⟩
  rw [hlen]
  decide

end System

namespace UIPUDP

open UIPEthernet.System MemoryPool

-- ---------------------------------------------------------------------------
-- Datagrams that go out
-- ---------------------------------------------------------------------------

/-- The size that `beginPacket` allocates. -/
def packetSize : Nat := UIP_UDP_MAXPACKETSIZE + UIP_SENDBUFFER_OFFSET + UIP_SENDBUFFER_PADDING

/-- A block resized to `size` stays inside what it was, and so does all that
`sendPacket` writes. -/
structure Fits (e : Enc28J60Network) (h : Handle) (size : Nat) : Prop where
  inside : size ≤ (e.blocks h).size
  others : ∀ j ≠ h, Live e.blocks j → (e.blocks h).begin + size ≤ (e.blocks j).begin ∨
    (e.blocks j).begin + (e.blocks j).size ≤ (e.blocks h).begin
  sends : ∀ a, a < (e.blocks h).begin ∨ (e.blocks h).begin + size ≤ a →
    ((e.resizeBlockTo h 0 size).sendPacket h).1.ram a = e.ram a

/-- A call of `write` with a buffer of the given length, or something beside
the sending side of the socket. -/
inductive WriteStep (k : Nat) (s : System) : Nat → System → Prop
  | write (buffer : List Byte) : WriteStep k s buffer.length (write s k buffer).1
  | other (hother : Beside k s s') : WriteStep k s 0 s'

/-- The packet is open, and `n` bytes have been given to `write`. -/
structure Filling (s : System) (k n : Nat) : Prop where
  valid : s.net.Valid
  block : ∃ c, s.net.view (s.sockets k).appdata.packetOut = some c ∧ c.length = packetSize
  pos : (s.sockets k).appdata.outPos = min (UIP_UDP_PHYH_LEN + UIP_SENDBUFFER_OFFSET + n) packetSize

variable {s s' s₁ : System} {k n : Nat}

theorem setRemote_net {ip : BitVec 32} {port : Nat} (h : setRemote s k ip port = some s') : s'.net = s.net := by
  unfold setRemote at h
  split at h
  · unfold connectTo at h
    split at h
    · cases h
      rfl
    · obtain ⟨s₁, hnew, h⟩ := Option.bind_eq_some_iff.mp h
      split at h <;> cases h <;> exact (newConn_ok hnew).1
  · cases h
    rfl

theorem beginPacket_filling {ip : BitVec 32} {port : Nat} (hv : s.net.Valid)
    (h : beginPacket s k ip port = some (s', true)) : Filling s' k 0 := by
  simp only [beginPacket, Option.bind_eq_bind, Option.pure_def] at h
  obtain ⟨s₁, hto, h⟩ := Option.bind_eq_some_iff.mp h
  have hv₁ : s₁.net.Valid := setRemote_net hto ▸ hv
  split at h
  · obtain ⟨⟨net, b⟩, halloc, h⟩ := Option.bind_eq_some_iff.mp h
    obtain ⟨rfl, hb⟩ := Prod.mk.inj (Option.some.inj h)
    obtain ⟨net', b', halloc', hres, -⟩ := allocBlock_ok hv₁ (show 1 ≤ packetSize by decide)
    obtain ⟨rfl, rfl⟩ := Prod.mk.inj (Option.some.inj (halloc.symm.trans halloc'))
    cases hres with
    | failed _ hch => exact absurd hb (by simp)
    | @placed _ c _ hfresh hlen hch =>
      refine ⟨hch.valid, ⟨c, ?_, hlen⟩, ?_⟩
      · rw [mapAppdata_appdata]
        exact (congrFun hch.view _).trans (Function.update_self _ _ _)
      · rw [mapAppdata_appdata]
        rfl
  · cases h

theorem Filling.step (hf : Filling s k n) {m : Nat} (h : WriteStep k s m s') : Filling s' k (n + m) := by
  obtain ⟨hv, ⟨c, hc, hlen⟩, hpos⟩ := hf
  cases h with
  | write buffer =>
    have hsize : packetSize = 1550 := rfl
    have hle : (s.sockets k).appdata.outPos ≤ c.length := by omega
    obtain ⟨hn, hch⟩ := writePacket_ok hv hc hle buffer
    have hwrite : (write s k buffer).1 = (s.setNet (s.net.writePacket (s.sockets k).appdata.packetOut
        (s.sockets k).appdata.outPos buffer).1).mapAppdata k fun data => { data with
          outPos := add16 data.outPos (s.net.writePacket (s.sockets k).appdata.packetOut
            (s.sockets k).appdata.outPos buffer).2 } := by
      rw [write, if_neg (view_ne hc).1]
    rw [hwrite]
    refine ⟨hch.valid, ⟨splice c (s.sockets k).appdata.outPos
      (buffer.take (c.length - (s.sockets k).appdata.outPos)), ?_, ?_⟩, ?_⟩
    · rw [mapAppdata_appdata]
      exact (congrFun hch.view _).trans (Function.update_self _ _ _)
    · rw [splice_length (by simp; omega), hlen]
    · rw [mapAppdata_appdata]
      show add16 (s.sockets k).appdata.outPos _ = _
      rw [hn, add16_eq (by omega)]
      omega
  | other hother =>
    have hview := hother.others.view (List.mem_singleton_self _) (by rw [hc]; exact Option.some_ne_none c)
    exact ⟨hother.others.1, ⟨c, by rw [hother.packetOut, hview, hc], hlen⟩, hother.outPos.trans hpos⟩

theorem Filling.run {ns : List Nat} (hf : Filling s k 0) (h : Run (WriteStep k) s ns s') : Filling s' k ns.sum := by
  induction h with
  | nil => exact hf
  | snoc _ hs ih =>
    rw [List.sum_append, List.sum_singleton]
    exact ih.step hs

/-- The padding of a block that is not longer than before. -/
theorem fits_of_le {e : Enc28J60Network} {h : Handle} {c : List Byte} {size : Nat} (hv : e.Valid) (hc : e.view h = some c)
    (hmin : UIP_SENDBUFFER_OFFSET + UIP_SENDBUFFER_PADDING ≤ size) (hsize : size ≤ (e.blocks h).size) : Fits e h size := by
  have hlive := (view_some.mp hc).1
  have hb := hv.bounds hc
  rw [view_length hc] at hb
  have ho : UIP_SENDBUFFER_OFFSET = 1 := rfl
  have hpad : UIP_SENDBUFFER_PADDING = 7 := rfl
  have hm : MEMORY_SIZE = 8192 := rfl
  refine ⟨hsize, fun j hj hjl => ?_, fun a ha => ?_⟩
  · have := hv.disjoint hlive hjl hj.symm
    omega
  · have hbegin : ((e.resizeBlockTo h 0 size).blocks h).begin = (e.blocks h).begin := by
      simp only [Enc28J60Network.resizeBlockTo, MemoryPool.resizeBlockTo, Function.update_self]
      rw [add16_eq (by omega), Nat.add_zero]
    have hnew : ((e.resizeBlockTo h 0 size).blocks h).size = size := by
      simp only [Enc28J60Network.resizeBlockTo, MemoryPool.resizeBlockTo, Function.update_self]
    have hcontrol : Function.update e.ram ((e.blocks h).begin % MEMORY_SIZE) 0 a = e.ram a := by
      refine Function.update_of_ne ?_ _ _
      rw [hm]
      omega
    have hram : (e.resizeBlockTo h 0 size).ram = e.ram := rfl
    have hsame : (e.resizeBlockTo h 0 size).transmissions = e.transmissions := rfl
    simp only [sendPacket, hbegin, hnew, hram, hsame]
    cases e.transmissions with
    | nil => exact hcontrol
    | cons t rest =>
      simp only
      rw [writeBuffer_other _ (Nat.mod_lt _ (by decide)), hcontrol]
      intro i hi
      rw [List.length_take, hpad] at hi
      rw [add16_eq (by omega), ho, hpad, sub16_eq (by omega) (by omega), hm]
      omega

/-- For every sequence of writes behind a `beginPacket`: the size that
`endPacket` gives the block fits into what was allocated exactly where no more
than `UIP_UDP_MAXDATALEN` bytes were written. -/
theorem outgoing_inside {ip : BitVec 32} {port : Nat} {ns : List Nat} (hv : s.net.Valid)
    (hbegin : beginPacket s k ip port = some (s₁, true)) (h : Run (WriteStep k) s₁ ns s') :
    (s'.net.blocks (s'.sockets k).appdata.packetOut).size = packetSize ∧
    (Fits s'.net (s'.sockets k).appdata.packetOut (add16 (s'.sockets k).appdata.outPos UIP_SENDBUFFER_PADDING) ↔
      ns.sum ≤ UIP_UDP_MAXDATALEN) := by
  obtain ⟨hv', ⟨c, hc, hlen⟩, hpos⟩ := (beginPacket_filling hv hbegin).run h
  rw [view_length hc] at hlen
  have hsize : packetSize = 1550 := rfl
  have hmax : UIP_UDP_MAXDATALEN = 1500 := rfl
  have hroom : UIP_UDP_PHYH_LEN + UIP_SENDBUFFER_OFFSET = 43 := rfl
  have ho : UIP_SENDBUFFER_OFFSET = 1 := rfl
  have hpad : UIP_SENDBUFFER_PADDING = 7 := rfl
  refine ⟨hlen, fun hfits => ?_, fun hsum => fits_of_le hv' hc ?_ ?_⟩
  · have hle := hfits.inside
    rw [add16_eq (by omega)] at hle
    omega
  · rw [add16_eq (by omega)]
    omega
  · rw [add16_eq (by omega)]
    omega

/-- A packet to the broadcast address is begun. -/
theorem begin_first : ∃ s₁ : System,
    beginPacket (System.init (fun _ => 0) [] [1, 2, 3, 4, 5, 6] 0) 0 0xffffffff 7 = some (s₁, true) := by
  have hcompute : ((beginPacket (System.init (fun _ => 0) [] [1, 2, 3, 4, 5, 6] 0) 0 0xffffffff 7).map (·.2)) =
      some true := by
    decide +kernel
  obtain ⟨⟨s₁, success⟩, hbegin, rfl⟩ := Option.map_eq_some_iff.mp hcompute
  exact ⟨s₁, hbegin⟩

theorem outgoing_inside_example : ∃ s₁ s' : System,
    beginPacket (System.init (fun _ => 0) [] [1, 2, 3, 4, 5, 6] 0) 0 0xffffffff 7 = some (s₁, true) ∧
    Run (WriteStep 0) s₁ [1] s' ∧ Fits s'.net (s'.sockets 0).appdata.packetOut
      (add16 (s'.sockets 0).appdata.outPos UIP_SENDBUFFER_PADDING) := by
  obtain ⟨s₁, hbegin⟩ := begin_first
  have hrun : Run (WriteStep 0) s₁ [1] (write s₁ 0 [7]).1 := .snoc .nil (.write [7])
  exact ⟨s₁, _, hbegin, hrun, (outgoing_inside (init_valid _ _) hbegin hrun).2.mpr (by decide)⟩

/-- One byte more than the longest payload. -/
theorem full_packet_outgrows : ∃ s₁ s' : System,
    beginPacket (System.init (fun _ => 0) [] [1, 2, 3, 4, 5, 6] 0) 0 0xffffffff 7 = some (s₁, true) ∧
    Run (WriteStep 0) s₁ [1501] s' ∧ (s'.net.blocks (s'.sockets 0).appdata.packetOut).size = 1550 ∧
    add16 (s'.sockets 0).appdata.outPos UIP_SENDBUFFER_PADDING = 1551 := by
  obtain ⟨s₁, hbegin⟩ := begin_first
  have hwrite : WriteStep 0 s₁ 1501 (write s₁ 0 (List.replicate 1501 7)).1 := by
    have h := WriteStep.write (k := 0) (s := s₁) (List.replicate 1501 7)
    rwa [List.length_replicate] at h
  have hrun : Run (WriteStep 0) s₁ [1501] (write s₁ 0 (List.replicate 1501 7)).1 := .snoc .nil hwrite
  obtain ⟨-, ⟨c, hc, hlen⟩, hpos⟩ := (beginPacket_filling (init_valid _ _) hbegin).run hrun
  refine ⟨s₁, _, hbegin, hrun, (view_length hc).symm.trans hlen, ?_⟩
  rw [hpos]
  rfl

end UIPUDP

end UIPEthernet
