import UIPEthernet.UIPUdp.Sender
import UIPEthernet.Uip.Checks
import UIPEthernet.Uip.DataTurn
import UIPEthernet.UIPEthernetClass.Pieces

/-!
# What is sent passes the checksums when it is received
-/

namespace UIPEthernet

open Enc28J60Network Lib

namespace System

variable {s s' : System} {proto : Byte} {memlen : Nat} {payload c : List Byte}

-- ---------------------------------------------------------------------------
-- The frame on its way
-- ---------------------------------------------------------------------------

theorem arpOut_resolved {u : Uip} (hres : Resolved u) (heth : SixBytes u) (j : Nat) :
    u.arpOut.uipLen = add16 u.uipLen UIP_LLH_LEN ∧ u.arpOut.uipBuf.be16 Offset.ethType = UIP_ETHTYPE_IP ∧
      Buf.Agree u.uipBuf u.arpOut.uipBuf UIP_LLH_LEN j := by
  have htype : ∀ dest, (u.ethHeader dest).uipBuf.be16 Offset.ethType = UIP_ETHTYPE_IP :=
    fun dest => Buf.be16_putBe16 _ _ (by decide)
  simp only [Uip.arpOut]
  split
  · exact ⟨rfl, htype _, Uip.ethHeader_agree heth.1 rfl j⟩
  · rename_i hcast
    obtain ⟨i, hi⟩ := hres.resolve_left hcast
    split
    · rename_i hnone
      have hmiss := List.find?_eq_none.mp hnone i (List.mem_finRange i)
      exact absurd (beq_iff_eq.mpr hi) hmiss
    · exact ⟨rfl, htype _, Uip.ethHeader_agree heth.1 (heth.2 _) j⟩

/-- The frame that `network_send` hands to the controller. -/
theorem networkSend_frame (ho : Outgoing s memlen payload c) :
    ∃ s' ok tail r, s.networkSend = some (s', ok) ∧
      s'.net.sent = (load s.uip.uipBuf 0 (UIP_IPH_LEN + UIP_LLH_LEN + memlen) ++ tail, r) :: s.net.sent ∧
      tail.take payload.length = payload := by
  have hroom := ho.room
  obtain ⟨s', d, hrun, hs⟩ := networkSend_packet ho.valid ho.send ho.block (by rw [ho.hdrlen]; omega)
  let hdrlen := UIP_IPH_LEN + UIP_LLH_LEN + memlen
  let tail := (c.drop (UIP_SENDBUFFER_OFFSET + hdrlen)).take
    (c.length - (UIP_SENDBUFFER_OFFSET + UIP_SENDBUFFER_PADDING) - hdrlen)
  have hframe : packetFrame s c = load s.uip.uipBuf 0 hdrlen ++ tail := by
    rw [packetFrame, withHeader, ho.hdrlen, load_length]
  have hstart : UIP_SENDBUFFER_OFFSET + hdrlen = UIP_IPH_LEN + UIP_LLH_LEN + UIP_SENDBUFFER_OFFSET + memlen := by
    simp only [hdrlen]
    omega
  refine ⟨s', _, tail, _, hrun, hframe ▸ hs.sent, ?_⟩
  rw [List.take_take, Nat.min_eq_left (by simp only [hdrlen]; omega), hstart]
  exact ho.bytes

/-- A frame with headers that pass the checks with the payload behind them. -/
structure Carries (frame : List Byte) (proto : Byte) (memlen : Nat) (payload : List Byte) (b : Buf) : Prop where
  frame : ∃ tail, frame = load b 0 (UIP_IPH_LEN + UIP_LLH_LEN + memlen) ++ tail ∧ tail.take payload.length = payload
  checks : Checks b proto memlen payload
  ethType : b.be16 Offset.ethType = UIP_ETHTYPE_IP

/-- The packet with its Ethernet header. -/
theorem Outgoing.carries (ho : Outgoing s memlen payload c) (hc : Checks s.uip.uipBuf proto memlen payload)
    (hres : Resolved s.uip) (heth : SixBytes s.uip) :
    ∃ s' ok frame r, (s.mapUip Uip.arpOut).networkSend = some (s', ok) ∧ s'.net.sent = (frame, r) :: s.net.sent ∧
      Carries frame proto memlen payload s.uip.arpOut.uipBuf := by
  obtain ⟨-, htype, hagree⟩ := arpOut_resolved hres heth (UIP_IPH_LEN + UIP_LLH_LEN + memlen)
  have ho' : Outgoing (s.mapUip Uip.arpOut) memlen payload c := ho.only rfl
  obtain ⟨s', ok, tail, r, hrun, hsent, htail⟩ := networkSend_frame ho'
  exact ⟨s', ok, _, r, hrun, hsent, ⟨tail, rfl, htail⟩, hc.agree hagree, htype⟩

/-- The frame in `uip_buf`, with its length in `uip_len`. -/
def fetched (s : System) (size : Nat) (frame : List Byte) : System :=
  ((s.setPacketstate UIPETHERNET_FREEPACKET).setLen size).mapBuf fun b => store b 0 frame

/-- What `uip_process` is given for the frame `in_packet`. -/
def loaded (s : System) : System :=
  ((s.fetched (s.net.blockSize s.inPacket) (s.net.readPacket s.inPacket 0 UIP_BUFSIZE)).setUipPacket
    s.inPacket).mapUip Uip.arpIpin

/-- The received frame lies in one piece in the receive ring. -/
structure Received (s : System) (frame : List Byte) : Prop where
  handle : s.inPacket = UIP_RECEIVEBUFFERHANDLE
  ring : InRing s.net frame

section fetched

variable (s : System) (size : Nat) (frame : List Byte) (h : Handle) (f : Uip → Uip)

theorem fetched_net : (((s.fetched size frame).setUipPacket h).mapUip f).net = s.net := rfl

theorem fetched_packet : (((s.fetched size frame).setUipPacket h).mapUip f).uipPacket = h := rfl

theorem fetched_packetstate :
    (((s.fetched size frame).setUipPacket h).mapUip f).packetstate = UIPETHERNET_FREEPACKET := rfl

theorem fetched_buf : (s.fetched size frame).uip.uipBuf = store s.uip.uipBuf 0 frame := rfl

theorem fetched_arpIpin :
    (((s.fetched size frame).setUipPacket h).mapUip Uip.arpIpin).uip.uipBuf = (s.fetched size frame).uip.uipBuf :=
  arpIpin_buf _

end fetched

theorem loaded_net : s.loaded.net = s.net := fetched_net ..

theorem loaded_packet : s.loaded.uipPacket = s.inPacket := fetched_packet ..

theorem loaded_packetstate : s.loaded.packetstate = UIPETHERNET_FREEPACKET := fetched_packetstate ..

theorem loaded_buf : s.loaded.uip.uipBuf = store s.uip.uipBuf 0 (s.net.readPacket s.inPacket 0 UIP_BUFSIZE) :=
  (fetched_arpIpin ..).trans (fetched_buf ..)

theorem handleFrame_fetched {size : Nat} {frame : List Byte}
    (hframe : s.net.readPacket s.inPacket 0 UIP_BUFSIZE = frame)
    (htype : (s.fetched size frame).uip.uipBuf.be16 Offset.ethType = UIP_ETHTYPE_IP) :
    ((s.setPacketstate UIPETHERNET_FREEPACKET).setLen size).handleFrame =
      ((((s.fetched size frame).setUipPacket s.inPacket).mapUip Uip.arpIpin).uipInput).bind sendOut := by
  generalize hs₁ : s.fetched size frame = s₁ at htype
  have hin : s₁.inPacket = s.inPacket := by
    rw [← hs₁]
    rfl
  have hstored : (((s.setPacketstate UIPETHERNET_FREEPACKET).setLen size).mapBuf fun b => store b 0
      (s.net.readPacket s.inPacket 0 UIP_BUFSIZE)) = s₁ := by
    rw [← hs₁, hframe]
    rfl
  rw [handleFrame_eq hstored, if_pos htype, hin]

/-- The first half of `tick` with an IP packet in the receive buffer. -/
theorem tickInput_loaded (hin : s.inPacket ≠ NOBLOCK) (hsize : 0 < s.net.blockSize s.inPacket)
    (htype : s.loaded.uip.uipBuf.be16 Offset.ethType = UIP_ETHTYPE_IP) :
    s.tickInput = (s.loaded.uipInput.bind sendOut).map release := by
  rw [loaded, ← handleFrame_fetched rfl ((congrArg (Buf.be16 · _) (fetched_arpIpin ..)).symm.trans htype)]
  simp only [tickInput, if_neg hin, Option.bind_eq_bind, Option.pure_def]
  generalize s.net.blockSize s.inPacket = size at hsize
  rw [setLen_len, if_pos hsize]
  cases ((s.setPacketstate UIPETHERNET_FREEPACKET).setLen size).handleFrame with
  | none => rfl
  | some t =>
    rw [Option.bind_some, Option.map_some, release]
    split <;> rfl

/-- A received frame that has the headers of a buffer at its front. -/
theorem Received.loaded {b : Buf} {hdrlen : Nat} {tail : List Byte} (hr : Received s (load b 0 hdrlen ++ tail))
    (hlen : hdrlen ≤ UIP_BUFSIZE) : Buf.Agree b s.loaded.uip.uipBuf 0 hdrlen := by
  intro n _ hn
  rw [loaded_buf, hr.handle, hr.ring.readPacket (Nat.zero_le _), List.drop_zero]
  have hin : n < ((load b 0 hdrlen ++ tail).take UIP_BUFSIZE).length := by
    simp
    omega
  rw [store_inside (Nat.zero_le n) hin, List.getElem_take, List.getElem_append_left (by simpa using hn), load_getElem,
    Nat.zero_add, Nat.sub_zero]

/-- `tick` reads the frame, received in one piece, for `uip_process`, and it
passes the checks made there. -/
def Passes (proto : Byte) (frame : List Byte) : Prop :=
  ∀ r : System, Received r frame → r.tickInput = (r.loaded.uipInput.bind sendOut).map release ∧
    r.loaded.uip.ipchksum = 0xffff ∧ r.loaded.upperLayerChksum proto = some 0xffff

theorem Carries.passes {b : Buf} {frame : List Byte} (hf : Carries frame proto memlen payload b)
    (hmem : ∀ r : System, Buf.Agree b r.uip.uipBuf 0 (UIP_IPH_LEN + UIP_LLH_LEN + memlen) →
      r.upperLayerMemlen proto = memlen)
    (hmax : UIP_IPH_LEN + UIP_LLH_LEN + memlen ≤ UIP_BUFSIZE) (hpos : 1 ≤ payload.length)
    (hlen : payload.length ≤ 60000) : Passes proto frame := by
  intro r hr
  obtain ⟨⟨tail, rfl, htail⟩, hc, htype⟩ := hf
  have hb : UIP_BUFSIZE = 98 := rfl
  have hl : UIP_LLH_LEN = 14 := rfl
  have he : Offset.ethType + 1 < UIP_LLH_LEN := by decide
  have hagree := hr.loaded hmax
  have hc' : Checks r.loaded.uip.uipBuf proto memlen payload :=
    hc.agree fun n _ hn => hagree n (Nat.zero_le n) hn
  refine ⟨tickInput_loaded ?_ ?_ ?_, (Uip.ipchksum_eq _).trans hc'.ip, ?_⟩
  · rw [hr.handle]
    decide
  · rw [hr.handle, blockSize, if_neg (by decide), if_pos rfl, hr.ring.size]
    simp
    omega
  · exact (hagree.be16 (Nat.zero_le _) (by omega)).trans htype
  · rw [← hc'.upper]
    refine upperLayerChksum_eq (hmem _ hagree) hc'.len hpos (by omega) ?_
    have hpayload : r.loaded.payloadPos memlen = UIP_IPH_LEN + UIP_LLH_LEN + memlen := by
      rw [payloadPos, loaded_packetstate, if_neg (by decide)]
    rw [hpayload, loaded_packet, hr.handle, loaded_net, hr.ring.readPacket (by simp), List.drop_left' load_length]
    exact htail

-- ---------------------------------------------------------------------------
-- Segments
-- ---------------------------------------------------------------------------

theorem mapBuf_len (f : Buf → Buf) : (s.mapBuf f).uip.uipLen = s.uip.uipLen := rfl

theorem tcpSend_checks {i : Fin UIP_CONNS} (ho : Outgoing s UIP_TCPH_LEN payload c)
    (hlen : s.uip.uipLen = UIP_IPTCPH_LEN + payload.length) (hoffset : s.uip.uipBuf Offset.tcpoffset = 0x50)
    (h : s.tcpSend i = some s') :
    Checks s'.uip.uipBuf UIP_PROTO_TCP UIP_TCPH_LEN payload ∧ s'.uip.uipBuf Offset.tcpoffset = 0x50 := by
  simp only [tcpSend] at h
  refine tcpSendNoconn_checks (ho.only (mapBuf_only _)) ((mapBuf_len _).trans hlen) ?_ h
  rw [mapBuf_buf, ← hoffset]
  simp [Buf.put, Buf.putU16, Buf.putBe16, Buf.putBe32, Offset.tcpoffset, Offset.ackno, Offset.seqno, Offset.proto,
    Offset.srcport, Offset.destport, Offset.srcipaddr, Offset.destipaddr, Offset.wnd]

/-- A segment of what the callback has put into the packet, as long as uIP
remembers. -/
theorem apprexmit_checks {i : Fin UIP_CONNS} (ho : Outgoing s UIP_TCPH_LEN payload c) (hslen : 0 < s.uip.uipSlen)
    (hlen : (s.uipConns i).len = payload.length) (h : s.apprexmit i = some s') :
    Checks s'.uip.uipBuf UIP_PROTO_TCP UIP_TCPH_LEN payload ∧ s'.uip.uipBuf Offset.tcpoffset = 0x50 := by
  have hpos := ho.pos
  have hlt := ho.length_lt
  have hhdr : UIP_TCPIP_HLEN = UIP_IPTCPH_LEN := rfl
  have hsum : add16 (s.uipConns i).len UIP_TCPIP_HLEN = UIP_IPTCPH_LEN + payload.length := by
    rw [hlen, hhdr, add16_eq (by simp only [UIP_IPTCPH_LEN, UIP_TCPH_LEN, UIP_IPH_LEN] at hlt ⊢; omega), Nat.add_comm]
  simp only [apprexmit] at h
  rw [if_pos ⟨hslen, show 0 < (s.uipConns i).len by omega⟩] at h
  simp only [tcpSendNoopts] at h
  refine tcpSend_checks (ho.only ?_) ?_ ?_ h
  · exact (((setAppdata_only _).trans (setLen_only _)).trans (mapBuf_only _)).trans (mapBuf_only _)
  · rw [mapBuf_len, setTcpFlags, mapBuf_len, setLen_len]
    exact hsum
  · rw [mapBuf_buf]
    exact Function.update_self ..

/-- The block that the callback has filled, as a packet to send with the first
bytes of it. -/
theorem prepared_outgoing {s₀ : System} {i u : Fin UIP_CONNS} {bytes : List Byte} {n : Nat}
    (hp : UIPClient.Prepared s₀ i u bytes s) (hhist : s.history ≠ s₀.history) (hpos : 1 ≤ n) (hn : n ≤ bytes.length) :
    ∃ d, Outgoing s UIP_TCPH_LEN (bytes.take n) d := by
  cases hp with
  | refused => exact absurd rfl hhist
  | @copied net h d _ hlen hpayload hch =>
    have htake : (bytes.take n).length = n := by rw [List.length_take, Nat.min_eq_left hn]
    refine ⟨d, hch.valid, has_set _, ?_, rfl, ?_, ?_, ?_⟩
    · show net.view h = some d
      rw [hch.view, Function.update_self]
    · have hstart : UIP_IPH_LEN + UIP_LLH_LEN + UIP_SENDBUFFER_OFFSET + UIP_TCPH_LEN =
          UIP_IPTCPH_LEN + UIP_LLH_LEN + UIP_SENDBUFFER_OFFSET := rfl
      have hfirst := congrArg (List.take n) hpayload
      rw [List.take_take, Nat.min_eq_left hn] at hfirst
      rw [hstart, htake, hfirst]
    · rw [htake]
      exact hpos
    · have hhdr : UIP_IPH_LEN + UIP_LLH_LEN + UIP_TCPH_LEN = UIP_IPTCPH_LEN + UIP_LLH_LEN := rfl
      rw [htake, hlen, hhdr]
      omega

/-- A connection whose entry has bytes at its head; what uIP remembers of a
segment in flight is at most what the callback offers again. -/
structure Sending (s : System) (i u : Fin UIP_CONNS) (out : List Byte) : Prop where
  head : UIPClient.Offerable s u out
  attached : (s.uipConns i).appstate = some u
  cropped : (s.uipConns i).len ≤ UIPClient.sendLength s u

/-- What a turn of the timer sends is the beginning of what the callback offers. -/
structure Segment (s s' : System) (payload : List Byte) : Prop where
  outgoing : ∃ c, Outgoing s' UIP_TCPH_LEN payload c
  checks : Checks s'.uip.uipBuf UIP_PROTO_TCP UIP_TCPH_LEN payload
  tcpoffset : s'.uip.uipBuf Offset.tcpoffset = 0x50
  sent : s'.net.sent = s.net.sent

theorem Outgoing.congr (ho : Outgoing s memlen payload c) (hnet : s'.net = s.net) (hstate : s'.packetstate = s.packetstate)
    (hpacket : s'.uipPacket = s.uipPacket) (hhdrlen : s'.uipHdrlen = s.uipHdrlen) : Outgoing s' memlen payload c :=
  ⟨hnet ▸ ho.valid, hstate ▸ ho.send, by rw [hnet, hpacket, ho.block], hhdrlen.trans ho.hdrlen, ho.bytes, ho.pos, ho.room⟩

theorem apprexmit_segment {i : Fin UIP_CONNS} (ho : Outgoing s UIP_TCPH_LEN payload c) (hslen : 0 < s.uip.uipSlen)
    (hlen : (s.uipConns i).len = payload.length) (h : s.apprexmit i = some s') : Segment s s' payload := by
  obtain ⟨hchecks, hoffset⟩ := apprexmit_checks ho hslen hlen h
  have honly := apprexmit_only h
  exact ⟨⟨c, ho.only honly⟩, hchecks, hoffset, by rw [honly.net]⟩

theorem Ticked.offerable {i u : Fin UIP_CONNS} {s₁ : System} {out : List Byte} (hpre : Ticked i s s₁)
    (ho : UIPClient.Offerable s u out) : UIPClient.Offerable s₁ u out := by
  rw [hpre.same]
  exact ⟨ho.valid, ho.block, ho.within⟩

theorem Ticked.sendLength {i u : Fin UIP_CONNS} {s₁ : System} (hpre : Ticked i s s₁) :
    UIPClient.sendLength s₁ u = UIPClient.sendLength s u := by
  rw [hpre.same]
  rfl

/-- The callback of a turn with the bytes it has put into the packet. -/
theorem callback_outgoing {i u : Fin UIP_CONNS} {out : List Byte} {s₁ s₂ : System} (hs : Sending s i u out)
    (hpre : Ticked i s s₁) (hflags : s₁.uip.uipFlags = UIP_POLL ∨ s₁.uip.uipFlags = UIP_REXMIT)
    (hcall : uipclientAppcall s₁ i = some s₂) (hslen : s₂.uip.uipSlen ≠ 0) (hhist : s₂.history ≠ s.history) :
    s₂.uip.uipSlen = UIPClient.sendLength s u ∧
    (s₂.uip.uipFlags = s₁.uip.uipFlags ∨ s₂.uip.uipFlags = s₁.uip.uipFlags ||| UIP_NEWDATA) ∧
    (s₂.uipConns i).len = (s₁.uipConns i).len ∧ s₂.net.sent = s.net.sent ∧
    ∀ n, 1 ≤ n → n ≤ UIPClient.sendLength s u → ∃ d, Outgoing s₂ UIP_TCPH_LEN (out.take n) d := by
  have hsame := hpre.same
  have happ : (s₁.uipConns i).appstate = some u := hpre.appstate.trans hs.attached
  have ho : UIPClient.Offerable s₁ u out := hpre.offerable hs.head
  rcases appcall_offers happ hflags hpre.atPayload ho hcall with hzero | ⟨hne, s₃, rfl, -, hp⟩
  · exact absurd hzero hslen
  · rw [hpre.sendLength] at hp ⊢
    obtain ⟨huip, hconns, -, -, hsent⟩ := hp.keeps
    obtain ⟨net, hcut, hnet⟩ := UIPClient.cutHead_net (UIPClient.restart s₁ i u) u
    obtain ⟨stopped, hconn⟩ := UIPClient.restart_conn (s := s₁) (c := i) (u := u)
    rw [hcut] at huip hconns hsent hp
    have hhist₃ : s₃.history ≠ ((UIPClient.restart s₁ i u).setNet net).history := by
      show s₃.history ≠ (UIPClient.restart s₁ i u).history
      rw [UIPClient.restart_history, hsame]
      exact hhist
    refine ⟨rfl, ?_, ?_, ?_, fun n hpos hn => ?_⟩
    · show s₃.uip.uipFlags = _ ∨ s₃.uip.uipFlags = _
      rw [huip]
      exact UIPClient.restart_only_flags
    · show (s₃.uipConns i).len = _
      rw [hconns]
      show ((UIPClient.restart s₁ i u).uipConns i).len = _
      rw [hconn]
    · show s₃.net.sent = _
      rw [hsent]
      show net.sent = _
      rw [hnet, UIPClient.restart_net, hsame]
    · have htake : (out.take (UIPClient.sendLength s u)).take n = out.take n := by
        rw [List.take_take, Nat.min_eq_left hn]
      have hlen : (out.take (UIPClient.sendLength s u)).length = UIPClient.sendLength s u := by
        rw [List.length_take, Nat.min_eq_left hs.head.sendLength_le]
      obtain ⟨d, hd⟩ := prepared_outgoing hp hhist₃ hpos (hlen.symm ▸ hn)
      exact ⟨d, (htake ▸ hd).congr rfl rfl rfl rfl⟩

/-- A turn that sends more than a header sends bytes of the head block. -/
theorem DataTurn.segment {i u : Fin UIP_CONNS} {out : List Byte} (hs : Sending s i u out) (ht : DataTurn i s s')
    (hlong : ¬Bare s') (hhist : s'.history ≠ s.history) :
    ∃ payload, payload <+: out ∧ Segment s s' payload := by
  cases ht with
  | quiet htouch => exact absurd (by rw [htouch.same]) hhist
  | timedOut s₁ s₂ _ _ _ hpost => exact absurd (tcpSendNodata_bare hpost) hlong
  | poll s₁ s₂ hpre hflags _ hlen hcall hpost =>
    have hslen : s₂.uip.uipSlen ≠ 0 := fun hzero => hlong (appsend_bare hpost hzero)
    have hhist₂ : s₂.history ≠ s.history := by
      rw [(appsend_stays hpost).same] at hhist
      exact hhist
    obtain ⟨hN, hfl, hlen₂, hsent, hout⟩ := callback_outgoing hs hpre (.inl hflags) hcall hslen hhist₂
    rw [hflags] at hfl
    obtain ⟨t, ht, htslen, htlen, hnet, hstate, hpacket, hhdrlen, -⟩ :=
      appsend_new hfl (Nat.pos_of_ne_zero hslen) (hlen₂.trans (hpre.len.trans hlen))
    rw [ht] at hpost
    have hpos : t.uip.uipSlen ≠ 0 := fun hzero => hlong (apprexmit_bare hpost hzero)
    have hle : t.uip.uipSlen ≤ UIPClient.sendLength s u := by
      rw [htslen, hN]
      exact Nat.min_le_left _ _
    obtain ⟨d, hd⟩ := hout _ (Nat.pos_of_ne_zero hpos) hle
    have hcount : (t.uipConns i).len = (out.take t.uip.uipSlen).length := by
      rw [htlen, List.length_take, Nat.min_eq_left (hle.trans hs.head.sendLength_le)]
    obtain ⟨ho, hchecks, hoffset, hsent'⟩ :=
      apprexmit_segment (hd.congr hnet hstate hpacket hhdrlen) (Nat.pos_of_ne_zero hpos) hcount hpost
    exact ⟨_, List.take_prefix _ _, ho, hchecks, hoffset, by rw [hsent', hnet, hsent]⟩
  | rexmit s₁ s₂ hpre hflags _ hlen _ _ hcall hpost =>
    have hslen : s₂.uip.uipSlen ≠ 0 := fun hzero => hlong (apprexmit_bare hpost hzero)
    have hhist₂ : s₂.history ≠ s.history := by
      rw [(apprexmit_only hpost).history] at hhist
      exact hhist
    obtain ⟨-, -, hlen₂, hsent, hout⟩ := callback_outgoing hs hpre (.inr hflags) hcall hslen hhist₂
    have hle : (s₂.uipConns i).len ≤ UIPClient.sendLength s u := by
      rw [hlen₂, hpre.len]
      exact hs.cropped
    have hpos : 1 ≤ (s₂.uipConns i).len := Nat.pos_of_ne_zero (by rw [hlen₂, hpre.len]; exact hlen)
    obtain ⟨d, hd⟩ := hout _ hpos hle
    have hcount : (s₂.uipConns i).len = (out.take (s₂.uipConns i).len).length := by
      rw [List.length_take, Nat.min_eq_left (hle.trans hs.head.sendLength_le)]
    obtain ⟨ho, hchecks, hoffset, hsent'⟩ := apprexmit_segment hd (Nat.pos_of_ne_zero hslen) hcount hpost
    exact ⟨_, List.take_prefix _ _, ho, hchecks, hoffset, hsent'.trans hsent⟩

theorem Segment.passes (hseg : Segment s s' payload) (hlong : ¬Bare s') (hres : Resolved s'.uip) (heth : SixBytes s'.uip) :
    ∃ s₂ frame r, s'.sendOut = some s₂ ∧ s₂.net.sent = (frame, r) :: s.net.sent ∧ Passes UIP_PROTO_TCP frame := by
  obtain ⟨⟨c, ho⟩, hc, hoffset, hsent⟩ := hseg
  have hlt := ho.length_lt
  have hpos : 0 < s'.uip.uipLen := Nat.lt_of_le_of_lt (Nat.zero_le _) (Nat.not_le.mp hlong)
  obtain ⟨s₂, ok, frame, r, hrun, hframes, hf⟩ := ho.carries hc hres heth
  obtain ⟨-, -, hagree⟩ := arpOut_resolved hres heth (UIP_IPH_LEN + UIP_LLH_LEN + UIP_TCPH_LEN)
  refine ⟨s₂, frame, r, ?_, hsent ▸ hframes, hf.passes (fun t ht => ?_) (by decide) ho.pos (by omega)⟩
  · simp only [sendOut, if_pos hpos, hrun]
    rfl
  · have hword : t.uip.uipBuf Offset.tcpoffset = 0x50 :=
      ((ht _ (Nat.zero_le _) (by decide)).trans (hagree _ (by decide) (by decide))).trans hoffset
    rw [upperLayerMemlen, if_neg (by decide)]
    show ((t.uip.uipBuf Offset.tcpoffset) >>> 4).toNat * 4 = _
    rw [hword]
    rfl

-- ---------------------------------------------------------------------------
-- Datagrams
-- ---------------------------------------------------------------------------

/-- The packet of a socket that has the payload to send. -/
theorem pending_outgoing {k : Nat} (hp : UIPUDP.Pending s k payload) (ho : OnlyUip (UIPUDP.prepared s k) s') :
    ∃ d, Outgoing s' UIP_UDPH_LEN payload d := by
  obtain ⟨d, hd, hlen, hbytes⟩ := hp.block
  refine ⟨d, ho.net ▸ hp.valid, ?_, ?_, ho.uipHdrlen, hbytes, List.length_pos_iff.mpr hp.ne, ?_⟩
  · rw [ho.packetstate]
    exact has_set _
  · rw [ho.net, ho.uipPacket]
    exact hd
  · have hroom : UIP_IPH_LEN + UIP_LLH_LEN + UIP_UDPH_LEN = UIP_UDP_PHYH_LEN := rfl
    rw [hlen, UIPUDP.sizeOf_eq, hroom]
    omega

theorem datagram_passes {k : Nat} {i : Fin UIP_UDP_CONNS} (hp : UIPUDP.Pending s k payload)
    (hconn : (s.uipUdpConns i).appstate = some k) (hlport : (s.uipUdpConns i).lport ≠ 0)
    (h : s.uipUdpTimer i = some s') (hres : Resolved s'.uip) (heth : SixBytes s'.uip) :
    ∃ s₂ frame r, UIPUDP.send s' k = some s₂ ∧ s₂.net.sent = (frame, r) :: s.net.sent ∧
      Passes UIP_PROTO_UDP frame ∧
      ∀ t, Received t frame → t.loaded.uip.uipBuf.u16 Offset.udpchksum ≠ 0 := by
  have honly₁ := UIPUDP.asked_only s k
  have hslen := UIPUDP.asked_slen hp.pos hp.max
  have hsend : (UIPUDP.asked s k).udpSend i = some s' := (UIPUDP.timer_asks hconn hlport hp.send).symm.trans h
  obtain ⟨c, ho₁⟩ := pending_outgoing hp honly₁
  obtain ⟨hc, hne⟩ := udpSend_checks ho₁ hslen hsend
  obtain ⟨honly₂, hlen⟩ := udpSend_only hsend
  have ho : Outgoing s' UIP_UDPH_LEN payload c := ho₁.only honly₂
  have hlt := ho.length_lt
  have hpos := ho.pos
  have hu : UIP_IPUDPH_LEN = 28 := rfl
  have hl : UIP_LLH_LEN = 14 := rfl
  have ha : UIP_ARPHDRSIZE = 42 := rfl
  rw [hslen, if_neg (by omega), add16_eq (by omega)] at hlen
  obtain ⟨s₂, ok, frame, r, hrun, hframes, hf⟩ := ho.carries hc hres heth
  obtain ⟨hlen', -, hagree⟩ := arpOut_resolved hres heth (UIP_IPH_LEN + UIP_LLH_LEN + UIP_UDPH_LEN)
  have hip : ¬(s'.mapUip Uip.arpOut).uip.uipLen = UIP_ARPHDRSIZE := by
    show s'.uip.arpOut.uipLen ≠ _
    rw [hlen', hlen, add16_eq (by omega)]
    omega
  have hnet : s'.net = s.net := (honly₁.trans honly₂).net
  rw [hnet] at hframes
  have hall : ∀ t, Received t frame → t.loaded.uip.uipBuf.u16 Offset.udpchksum ≠ 0 := by
    intro t ht
    obtain ⟨tail, rfl, -⟩ := hf.frame
    have hkeep := hagree.trans fun n _ hn => ht.loaded (by decide) n (Nat.zero_le n) hn
    rw [Buf.u16, hkeep _ (by decide) (by decide), hkeep _ (by decide) (by decide)]
    exact hne
  have hpasses : Passes UIP_PROTO_UDP frame := hf.passes (fun _ _ => rfl) (by decide) hpos (by omega)
  simp only [UIPUDP.send, if_neg hip, hrun, Option.bind_eq_bind, Option.bind_some]
  cases ok with
  | false => exact ⟨s₂, frame, r, rfl, hframes, hpasses, hall⟩
  | true => exact ⟨_, frame, r, rfl, hframes, hpasses, hall⟩

/-- The frame of every segment that a poll or a retransmission sends from the
block it has got, and of every datagram of a socket, passes the checks when it
is received. The destination is in the ARP table. -/
theorem checksum_round_trip :
    (∀ (s s' : System) (i u : Fin UIP_CONNS) (out : List Byte), Sending s i u out →
      s.uipPoll i = some s' ∨ s.uipTimer i = some s' → ¬Bare s' → s'.history ≠ s.history →
      Resolved s'.uip → SixBytes s'.uip →
      ∃ s₂ frame r, s'.sendOut = some s₂ ∧ s₂.net.sent = (frame, r) :: s.net.sent ∧ Passes UIP_PROTO_TCP frame) ∧
    ∀ (s s' : System) (i : Fin UIP_UDP_CONNS) (k : Nat) (payload : List Byte), UIPUDP.Pending s k payload →
      (s.uipUdpConns i).appstate = some k → (s.uipUdpConns i).lport ≠ 0 → s.uipUdpTimer i = some s' →
      Resolved s'.uip → SixBytes s'.uip →
      ∃ s₂ frame r, UIPUDP.send s' k = some s₂ ∧ s₂.net.sent = (frame, r) :: s.net.sent ∧ Passes UIP_PROTO_UDP frame ∧
        ∀ t, Received t frame → t.loaded.uip.uipBuf.u16 Offset.udpchksum ≠ 0 := by
  constructor
  · intro s s' i u out hs hturn hlong hhist hres heth
    have ht : DataTurn i s s' := hturn.elim uipPoll_data uipTimer_data
    obtain ⟨payload, -, hseg⟩ := ht.segment hs hlong hhist
    exact hseg.passes hlong hres heth
  · intro s s' i k payload hp hconn hlport htimer hres heth
    exact datagram_passes hp hconn hlport htimer hres heth

instance (u : Uip) : Decidable (SixBytes u) := inferInstanceAs (Decidable (_ ∧ _))

/-- Two bytes of a connection and one of a socket, to the broadcast address. -/
def offering (net : Enc28J60Network) : System :=
  { System.init (fun _ => 0) [⟨true, []⟩] [1, 2, 3, 4, 5, 6] 0 with
    net
    uipConns := fun _ => ⟨0xffffffff, 7, 7, 0, 0, 0, 100, 100, 0, 0, 0, TcpState.UIP_ESTABLISHED, 0, 0, some 0⟩
    allData := fun _ => ⟨UIP_CLIENT_CONNECTED, fun _ => NOBLOCK, Function.update (fun _ => NOBLOCK) 0 1, 2, 0⟩
    uipUdpConns := fun _ => ⟨0xffffffff, 7, 7, UIP_TTL, some 0⟩
    sockets := fun _ => ⟨some 0, ⟨44, NOBLOCK, NOBLOCK, 1, true⟩⟩ }

theorem checksum_round_trip_example :
    (∃ s s' s₂ : System, ∃ frame r, s.uipPoll 0 = some s' ∧ s'.sendOut = some s₂ ∧
      s₂.net.sent = (frame, r) :: s.net.sent ∧ Passes UIP_PROTO_TCP frame) ∧
    ∃ s s' s₂ : System, ∃ frame r, s.uipUdpTimer 0 = some s' ∧ UIPUDP.send s' 0 = some s₂ ∧
      s₂.net.sent = (frame, r) :: s.net.sent ∧ Passes UIP_PROTO_UDP frame := by
  have hpool := init_valid (fun _ => 0) [⟨true, []⟩]
  constructor
  · have hcompute : (((Enc28J60Network.init (fun _ => 0) [⟨true, []⟩]).allocBlock 2).bind fun p =>
        ((offering p.1).uipPoll 0).map fun s' => decide (p.1.view 1 = some [0, 0] ∧ UIP_IPTCPH_LEN < s'.uip.uipLen ∧
          s'.history.length = 1 ∧ s'.uip.uipBuf.be32 Offset.destipaddr = 0xffffffff ∧ SixBytes s'.uip)) = some true := by
      decide +kernel
    obtain ⟨⟨net, h⟩, halloc, hturn⟩ := Option.bind_eq_some_iff.mp hcompute
    obtain ⟨s', hpoll, hchecked⟩ := Option.map_eq_some_iff.mp hturn
    obtain ⟨hview, hlong, hhist, hdest, heth⟩ := of_decide_eq_true hchecked
    have hs : Sending (offering net) 0 0 [0, 0] :=
      ⟨⟨allocBlock_valid hpool (by decide) halloc, hview, fun _ => Nat.le_refl 2⟩, rfl, Nat.zero_le _⟩
    obtain ⟨s₂, frame, r, hout⟩ := checksum_round_trip.1 _ s' 0 0 _ hs (.inl hpoll) (Nat.not_le.mpr hlong)
      (fun h => Nat.one_ne_zero (hhist.symm.trans (congrArg List.length h))) (.inl hdest) heth
    exact ⟨_, s', s₂, frame, r, hpoll, hout⟩
  · have hcompute : (((Enc28J60Network.init (fun _ => 0) [⟨true, []⟩]).allocBlock 51).bind fun p =>
        ((offering p.1).uipUdpTimer 0).map fun s' => decide (p.1.view 1 = some (List.replicate 51 0) ∧
          s'.uip.uipBuf.be32 Offset.destipaddr = 0xffffffff ∧ SixBytes s'.uip)) = some true := by
      decide +kernel
    obtain ⟨⟨net, h⟩, halloc, hturn⟩ := Option.bind_eq_some_iff.mp hcompute
    obtain ⟨s', htimer, hchecked⟩ := Option.map_eq_some_iff.mp hturn
    obtain ⟨hview, hdest, heth⟩ := of_decide_eq_true hchecked
    have hp : UIPUDP.Pending (offering net) 0 [0] :=
      ⟨allocBlock_valid hpool (by decide) halloc, rfl, rfl, by decide, by decide, _, hview, rfl, rfl⟩
    obtain ⟨s₂, frame, r, hsend, hsent, hpasses, -⟩ := checksum_round_trip.2 _ s' 0 0 [0] hp rfl (show 7 ≠ 0 by decide) htimer
      (.inl hdest) heth
    exact ⟨_, s', s₂, frame, r, htimer, hsend, hsent, hpasses⟩

end System

end UIPEthernet
