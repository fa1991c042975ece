import UIPEthernet.Uip.Echo
import UIPEthernet.Uip.RoundTrip
import UIPEthernet.UIPClient.Ownership
import UIPEthernet.UIPUdp.Ownership

/-!
# The length of a frame

A segment is set up in a block by the callback, cut by `uip_process`, and sent
or replaced by an ARP request in `network_send`. Where none of this makes a
difference, the frame is as long as `uip_len` says.
-/

namespace UIPEthernet

open Enc28J60Network Lib

namespace System

open UIPClient UIPUDP Slot

variable {s s' s₁ s₂ t : System} {c u : Fin UIP_CONNS} {i : Fin UIP_UDP_CONNS} {k : Nat}

-- ---------------------------------------------------------------------------
-- What sends nothing
-- ---------------------------------------------------------------------------

/-- Nothing is sent, and the blocks are where they belong. -/
structure Silent (s s' : System) : Prop where
  settled : Settled s'
  sent : s'.net.sent = s.net.sent
  small : (∀ c, Small (s.uipConns c)) → ∀ c, Small (s'.uipConns c)

theorem Silent.refl (hs : Settled s) : Silent s s := ⟨hs, rfl, id⟩

theorem Silent.trans (h : Silent s s₁) (h' : Silent s₁ s') : Silent s s' :=
  ⟨h'.settled, h'.sent.trans h.sent, h'.small ∘ h.small⟩

/-- No connection changes. -/
theorem Silent.of_conns (hconns : s'.uipConns = s.uipConns) (h : Settled s' ∧ s'.net.sent = s.net.sent) : Silent s s' :=
  ⟨h.1, h.2, fun hsmall => by rwa [hconns]⟩

/-- The pool, the tables and the sockets are left alone. -/
theorem silent_of (hs : Settled s) (hmoved : Unmoved s s') (hsockets : s'.sockets = s.sockets)
    (hudp : s'.uipUdpConns = s.uipUdpConns) (hblocks : s'.net.blocks = s.net.blocks) (hsent : s'.net.sent = s.net.sent)
    (hunset : ¬has s'.packetstate UIPETHERNET_SENDPACKET) : Silent s s' := by
  have hkeeps : System.Keeps (fun _ => False) s s' := hs.owned.aside hmoved.data hsockets hblocks hsent
  exact .of_conns hmoved.conns ⟨hs.still ⟨hmoved, hsockets, hudp⟩ hkeeps.toRetains (fun _ => id) hunset, hsent⟩

theorem Touch.keeps {mine : Slot → Prop} (ho : s.Owned) (h : Touch c s s') : System.Keeps mine s s' :=
  ho.aside (by rw [h.same]) h.sockets (by rw [h.same]) (by rw [h.same])

theorem Touch.udpConns (h : Touch c s s') : s'.uipUdpConns = s.uipUdpConns := by rw [h.same]

theorem Touch.packetstate (h : Touch c s s') : s'.packetstate = s.packetstate := by rw [h.same]

theorem Touch.paired (hp : s.tables.Paired) (h : Touch c s s') : s'.tables.Paired := by
  rw [h.tables]
  exact hp

theorem Touch.small_all (h : Touch c s s') (hsmall : ∀ c, Small (s.uipConns c)) (j : Fin UIP_CONNS) : Small (s'.uipConns j) := by
  by_cases hj : j = c
  · rw [hj]
    exact h.small (hsmall c)
  · rw [h.others j hj]
    exact hsmall j

theorem Touch.silent (hs : Settled s) (h : Touch c s s') : Silent s s' := by
  have hkeeps : System.Keeps (fun _ => False) s s' := h.keeps hs.owned
  refine ⟨hs.beside hkeeps.toRetains (h.paired hs.paired) (fun _ => id) h.sockets h.udpConns ?_, hkeeps.sent, h.small_all⟩
  rw [h.packetstate]
  exact hs.unset

theorem OnlyUip.silent (hs : Settled s) (h : OnlyUip s s') : Silent s s' :=
  .of_conns h.uipConns ⟨hs.onlyUip h, by rw [h.net]⟩

theorem Confined.small (h : Confined c s s') (hsmall : ∀ c, Small (s.uipConns c)) (j : Fin UIP_CONNS) : Small (s'.uipConns j) := by
  by_cases hj : j = c
  · rw [hj, h.conn]
    exact hsmall c
  · rw [h.others j hj]
    exact hsmall j

/-- A callback that is not asked for bytes. -/
theorem uipclientAppcall_silent (hs : Settled s) (hflags : ¬has s.uip.uipFlags (UIP_POLL ||| UIP_REXMIT))
    (h : uipclientAppcall s c = some s') : Silent s s' := by
  have hkeeps := appcall_keeps hs.paired hs.owned hflags h
  obtain ⟨hcalm, -⟩ := appcall_calm hflags h
  refine ⟨hs.beside hkeeps.toRetains (appcall_paired hs.paired h) (fun _ => id) hcalm.sockets hcalm.udpConns ?_,
    hkeeps.sent, Confined.small hcalm.toConfined⟩
  rw [hcalm.send]
  exact hs.unset

theorem found_silent (hs : Settled s) (h : s.found c = some s') : Silent s s' := by
  cases found_turn h with
  | quiet hgoes => exact hgoes.toTouch.silent hs
  | served s₁ s₂ hpre hcall hpost =>
    have h₁ := hpre.toTouch.silent hs
    have h₂ := h₁.trans (uipclientAppcall_silent h₁.settled hpre.unasked hcall)
    exact h₂.trans (hpost.toTouch.silent h₂.settled)

theorem record_silent (hs : Settled s) (e : Event) : Silent s (s.record e) := by
  have hkeeps : System.Keeps (fun _ => False) s (s.record e) := hs.owned.aside rfl rfl rfl rfl
  exact .of_conns rfl ⟨hs.beside hkeeps.toRetains hs.paired (fun _ => id) rfl rfl hs.unset, rfl⟩

theorem Opened.silent (hs : Settled s) (h : Opened c s s') : Silent s s' := by
  have h₁ := record_silent hs (.opened c)
  exact h₁.trans (h.touch.silent h₁.settled)

theorem foundListen_silent (hs : Settled s) (h : s.foundListen = some s') : Silent s s' := by
  rcases foundListen_opened h with honly | ⟨c, hopened⟩
  · exact honly.silent hs
  · exact hopened.silent hs

theorem uipConnect_silent {ripaddr : BitVec 32} {rport : Nat} {conn : Option (Fin UIP_CONNS)} (hs : Settled s)
    (h : s.uipConnect ripaddr rport = some (s', conn)) : Silent s s' := by
  obtain ⟨s₁, honly, hopened⟩ := uipConnect_opened h
  have h₁ := honly.silent hs
  cases conn with
  | none =>
    obtain rfl := hopened
    exact h₁
  | some c => exact h₁.trans (hopened.silent h₁.settled)

-- ---------------------------------------------------------------------------
-- The input of a frame
-- ---------------------------------------------------------------------------

/-- What `uip_process` asks of a datagram before it comes to `udp_input`: it is
whole, and for this host or for all. -/
structure ForHost (s : System) : Prop where
  vhl : s.uip.uipBuf Offset.vhl = 0x45
  len : s.uip.uipBuf.be16 Offset.len ≤ s.uip.uipLen
  whole : s.uip.uipBuf.be16 Offset.ipoffset &&& 0x3fff = 0
  dest : (s.uip.uipHostaddr ≠ 0 ∧ s.uip.uipBuf.be32 Offset.destipaddr = 0xffffffff) ∨
    ((s.uip.uipHostaddr = 0 ∨ s.uip.uipBuf.be32 Offset.destipaddr = s.uip.uipHostaddr) ∧ s.uip.ipchksum = 0xffff)

/-- Nor is its checksum wrong. -/
structure Accepted (s : System) : Prop extends ForHost s where
  sum : s.datagramSum = some 0xffff

/-- The packet in `uip_buf` is a datagram without payload, for a socket that has
none waiting. -/
def NoPayload (s : System) (b : Buf) : Prop :=
  b.be16 Offset.ethType = UIP_ETHTYPE_IP ∧ b Offset.proto = UIP_PROTO_UDP ∧ b.be16 Offset.udplen = UIP_UDPH_LEN ∧
    ∃ i k, (List.finRange UIP_UDP_CONNS).find? (fun i => udpMatches b (s.uipUdpConns i)) = some i ∧
      (s.uipUdpConns i).appstate = some k ∧ (s.sockets k).appdata.packetNext = NOBLOCK

/-- `uip_process` is given such a datagram, and hands it to the callback. -/
def EmptyDatagram (s : System) : Prop := NoPayload s s.uip.uipBuf ∧ Accepted s

theorem payloadSize_zero (h : payloadSize s = 0) : s.uip.uipBuf.be16 Offset.udplen = UIP_UDPH_LEN := by
  have hlt := s.uip.uipBuf.be16_lt Offset.udplen
  have hheader : UIP_UDPH_LEN = 8 := rfl
  rw [payloadSize, sub16, hheader] at h
  omega

theorem Input.silent (hs : Settled s) (htype : s.uip.uipBuf.be16 Offset.ethType = UIP_ETHTYPE_IP)
    (hdata : ¬NoPayload s s.uip.uipBuf) (h : Input s s') : Silent s s' := by
  cases h with
  | scratch h => exact h.silent hs
  | segment s₁ c hpre _ _ h =>
    have h₁ := hpre.silent hs
    exact h₁.trans (found_silent h₁.settled h)
  | listen s₁ hpre h =>
    have h₁ := hpre.silent hs
    exact h₁.trans (foundListen_silent h₁.settled h)
  | datagram s₁ s₂ i hpre hbuf hflags hcall hpost hproto hmatch =>
    have h₁ := hpre.silent hs
    have h₂ : Silent s₁ s₂ := by
      refine .of_conns (udpAppcall_unmoved hcall).conns (appcall_settled h₁.settled hflags (fun k happ hfree hzero => hdata ?_) hcall)
      have hlen := payloadSize_zero hzero
      rw [hbuf] at hproto hmatch hlen
      rw [hpre.uipUdpConns] at happ hmatch
      rw [hpre.sockets] at hfree
      exact ⟨htype, hproto, hlen, i, k, hmatch, happ, hfree⟩
    exact (h₁.trans h₂).trans (hpost.silent h₂.settled)

theorem datagramSum_eq : s.datagramSum =
    if s.uip.uipBuf.u16 Offset.udpchksum ≠ 0 then s.upperLayerChksum UIP_PROTO_UDP else some 0xffff := by
  have hsame : ∀ len i, ((s.setLen len).setAppdata i).upperLayerChksum UIP_PROTO_UDP = s.upperLayerChksum UIP_PROTO_UDP :=
    fun _ _ => rfl
  simp only [datagramSum, input_buf, hsame]

theorem udpInput_refused (h : s.udpInput = some s') : OnlyUip s s' ∨ s.datagramSum = some 0xffff := by
  by_cases hsum : s.datagramSum = some 0xffff
  · exact .inr hsum
  refine .inl ?_
  have hpre := (setLen_only (s := s) (sub16 s.uip.uipLen UIP_IPUDPH_LEN)).trans
    (setAppdata_only (UIP_LLH_LEN + UIP_IPUDPH_LEN))
  simp only [datagramSum] at hsum
  simp only [udpInput, Option.bind_eq_bind, Option.pure_def] at h
  generalize (s.setLen (sub16 s.uip.uipLen UIP_IPUDPH_LEN)).setAppdata (UIP_LLH_LEN + UIP_IPUDPH_LEN) = s₁ at hpre hsum h
  split at h
  · rename_i hchksum
    rw [if_pos hchksum] at hsum
    obtain ⟨sum, hsome, h⟩ := Option.bind_eq_some_iff.mp h
    rw [if_pos fun he => hsum (by rw [hsome, he])] at h
    cases h
    exact hpre.trans drop_only
  · rename_i hchksum
    rw [if_neg hchksum] at hsum
    exact absurd rfl hsum

/-- A datagram is dropped, or it comes to `udp_input`. -/
theorem uipInput_udp (hproto : s.uip.uipBuf Offset.proto = UIP_PROTO_UDP) (h : s.uipInput = some s') :
    (∃ t, OnlyUip s t ∧ s' = t.drop) ∨
      (ForHost s ∧ (s.initAppdata.setLen (s.uip.uipBuf.be16 Offset.len)).udpInput = some s') := by
  have hpre : OnlyUip s (s.initAppdata.setLen (s.uip.uipBuf.be16 Offset.len)) :=
    (setAppdata_only _).trans (setLen_only _)
  simp only [uipInput] at h
  split at h
  · cases h
    exact .inl ⟨_, setAppdata_only _, rfl⟩
  rename_i hvhl
  split at h
  · cases h
    exact .inl ⟨_, setAppdata_only _, rfl⟩
  rename_i hlen
  split at h
  · cases h
    exact .inl ⟨_, hpre, rfl⟩
  rename_i hwhole
  have hhost := ForHost.mk (s := s) (not_not.mp hvhl) (Nat.le_of_not_lt hlen) (not_not.mp hwhole)
  split at h
  · rename_i hcast
    exact .inr ⟨hhost (.inl ⟨hcast.1, hcast.2.2⟩), h⟩
  split at h
  · cases h
    exact .inl ⟨_, hpre, rfl⟩
  rename_i hdest
  split at h
  · cases h
    exact .inl ⟨_, hpre, rfl⟩
  rename_i hsum
  split at h
  · rename_i htcp
    exact absurd (htcp.symm.trans hproto) (by decide)
  split at h
  · refine .inr ⟨hhost (.inr ⟨?_, ?_⟩), h⟩
    · exact or_iff_not_imp_left.mpr fun hhost => not_not.mp fun hne => hdest ⟨hhost, hne⟩
    · rw [← not_not.mp hsum, Uip.ipchksum_eq, Uip.ipchksum_eq]
      rfl
  · rename_i hudp
    exact absurd hproto hudp

/-- A datagram that is not accepted comes to nothing. -/
theorem uipInput_refused (hproto : s.uip.uipBuf Offset.proto = UIP_PROTO_UDP) (h : s.uipInput = some s') :
    OnlyUip s s' ∨ Accepted s := by
  have hsame : ∀ i n, ((s.setAppdata i).setLen n).datagramSum = s.datagramSum := by
    intro i n
    rw [datagramSum_eq, datagramSum_eq]
    rfl
  rcases uipInput_udp hproto h with ⟨t, hpre, rfl⟩ | ⟨hhost, hudp⟩
  · exact .inl (hpre.trans drop_only)
  · rcases udpInput_refused hudp with honly | hsum
    · exact .inl (((setAppdata_only _).trans (setLen_only _)).trans honly)
    · exact .inr ⟨hhost, hsame _ _ ▸ hsum⟩

-- ---------------------------------------------------------------------------
-- What goes out of uip_buf
-- ---------------------------------------------------------------------------

/-- What is sent is as long as `uip_len` says. -/
structure Sends (s s' : System) : Prop where
  settled : Settled s'
  exact : Exact s s'
  small : (∀ c, Small (s.uipConns c)) → ∀ c, Small (s'.uipConns c)

theorem Silent.sends (h : Silent s s') : Sends s s' := ⟨h.settled, .none h.sent, h.small⟩

theorem Silent.before (h : Silent s s₁) (h' : Sends s₁ s') : Sends s s' :=
  ⟨h'.settled, h'.exact.before h.sent, h'.small ∘ h.small⟩

theorem Sends.of_conns (hconns : s'.uipConns = s.uipConns) (h : Settled s' ∧ Exact s s') : Sends s s' :=
  ⟨h.1, h.2, fun hsmall => by rwa [hconns]⟩

/-- A frame that is all in `uip_buf`. -/
theorem networkSend_settled {ok : Bool} (hs : Settled s) (hlen : s.uip.uipLen < 65536) (h : s.networkSend = some (s', ok)) :
    Sends s s' := by
  have hretains : Retains (fun _ => False) s s' := networkSend_retains hs.owned h fun hset => absurd hset hs.unset
  have honly := networkSend_only h
  refine .of_conns honly.uipConns
    ⟨hs.still (OnlySent.still honly) hretains (fun _ => id) (networkSend_state h).2, networkSend_exact h ?_⟩
  rw [frameLength, if_neg hs.unset, Nat.mod_eq_of_lt hlen]

theorem arpOut_lt (u : Uip) : u.arpOut.uipLen < 65536 := by
  obtain ⟨hlen, -⟩ | ⟨hlen, -⟩ := arpOut_cases u
  · rw [hlen]
    exact add16_lt _ _
  · rw [hlen]
    decide

theorem sendOut_settled (hs : Settled s) (h : s.sendOut = some s') : Sends s s' := by
  simp only [sendOut, Option.bind_eq_bind, Option.pure_def] at h
  split at h
  · obtain ⟨⟨s₂, ok⟩, hsend, h⟩ := Option.bind_eq_some_iff.mp h
    cases h
    have harp : Silent s (s.mapUip Uip.arpOut) := (mapUip_only Uip.arpOut).silent hs
    exact harp.before (networkSend_settled harp.settled (arpOut_lt s.uip) hsend)
  · cases h
    exact (Silent.refl hs).sends

theorem release_silent (hs : Settled s) : Silent s s.release := by
  unfold release
  split
  · exact silent_of hs ⟨rfl, rfl, rfl⟩ rfl rfl rfl rfl hs.unset
  · exact .refl hs

theorem release_uip : s.release.uip = s.uip := by
  unfold release
  split <;> rfl

theorem fetch_silent (hs : Settled s) : Silent s s.fetch := by
  refine silent_of hs fetch_unmoved (fetch_sockets s) ?_ ?_ fetch_sent ?_
  all_goals
    unfold fetch
    split
  · rfl
  · rfl
  · exact receivePacket_blocks s.net
  · rfl
  · exact hs.unset
  · exact hs.unset

theorem Sends.release (h : Sends s s₁) : Sends s s₁.release := by
  have hrelease := release_silent h.settled
  obtain ⟨frames, hframes, hlen⟩ := h.exact
  refine ⟨hrelease.settled, ⟨frames, hrelease.sent.trans hframes, fun f hf => ?_⟩, hrelease.small ∘ h.small⟩
  rw [hlen f hf, release_uip]

theorem given_loaded (s : System) :
    ((s.setPacketstate UIPETHERNET_FREEPACKET).setLen (s.net.blockSize s.inPacket)).given = s.loaded := rfl

/-- The first half of `tick`. -/
theorem tickInput_settled (hs : Settled s) (hdata : s.fetch.inPacket ≠ NOBLOCK → ¬EmptyDatagram s.fetch.loaded)
    (h : s.tickInput = some s') : Sends s s' := by
  have h₁ := fetch_silent hs
  rcases tickInput_handled h with ⟨-, rfl⟩ | ⟨s₂, hsome, hhandled, rfl⟩
  · exact h₁.sends
  · have hloaded := given_loaded s.fetch
    generalize ht : (s.fetch.setPacketstate UIPETHERNET_FREEPACKET).setLen (s.fetch.net.blockSize s.fetch.inPacket) = t
      at hhandled hloaded
    have h₂ : Silent s t := by
      rw [← ht]
      have hunset : ¬has UIPETHERNET_FREEPACKET UIPETHERNET_SENDPACKET := by decide
      exact h₁.trans (silent_of h₁.settled ⟨rfl, rfl, rfl⟩ rfl rfl rfl rfl hunset)
    refine Sends.release ?_
    cases hhandled with
    | scratch h => exact (h₂.trans (h.silent h₂.settled)).sends
    | packet s₃ s₄ hpre hbuf hinput hsend htype hgiven hcall =>
      have h₃ : Silent s (t.setUipPacket t.inPacket) :=
        h₂.trans (silent_of h₂.settled ⟨rfl, rfl, rfl⟩ rfl rfl rfl rfl h₂.settled.unset)
      have h₄ := h₃.trans (hpre.silent h₃.settled)
      have h₅ : Silent s s₄ := by
        by_cases hno : NoPayload s₃ s₃.uip.uipBuf
        · rcases uipInput_refused hno.2.1 hcall with honly | hacc
          · exact h₄.trans (honly.silent h₄.settled)
          · rw [← hloaded, ← hgiven] at hdata
            exact absurd ⟨hno, hacc⟩ (hdata hsome)
        · exact h₄.trans (hinput.silent h₄.settled htype hno)
      exact h₅.before (sendOut_settled h₅.settled hsend)
    | reply s₃ ok hpre hsend hlen =>
      have h₃ := h₂.trans (hpre.silent h₂.settled)
      exact h₃.before (networkSend_settled h₃.settled (by rw [hlen]; decide) hsend)

-- ---------------------------------------------------------------------------
-- What goes out of a block
-- ---------------------------------------------------------------------------

/-- A segment is set up in a block of its own, and its next hop is known. -/
structure Filled (s s₁ : System) : Prop where
  keeps : System.Keeps ofTcp s s₁
  paired : s₁.tables.Paired
  sockets : s₁.sockets = s.sockets
  udpConns : s₁.uipUdpConns = s.uipUdpConns
  send : has s₁.packetstate UIPETHERNET_SENDPACKET
  own : ∀ x, s₁.own x ≠ NOBLOCK → s₁.own x ≠ s₁.uipPacket
  size : ∃ n ≤ UIP_TCP_MSS, s₁.sizeAt s₁.uipPacket = segmentSize n ∧ s₁.uip.uipLen = add16 n UIP_TCPIP_HLEN
  resolved : Resolved s₁.uip
  small : (∀ c, Small (s.uipConns c)) → ∀ c, Small (s₁.uipConns c)

theorem Filled.sendOut (hs : Settled s) (hf : Filled s s₁) (h : s₁.sendOut = some s') : Sends s s' := by
  obtain ⟨n, hn, hsize, hlen⟩ := hf.size
  have hmss : UIP_TCP_MSS = 512 := rfl
  have hhdr : UIP_TCPIP_HLEN = 40 := rfl
  have hllh : UIP_LLH_LEN = 14 := rfl
  have hiptcp : UIP_IPTCPH_LEN = 40 := rfl
  have hpad : UIP_SENDBUFFER_OFFSET + UIP_SENDBUFFER_PADDING = 8 := rfl
  rw [add16_eq (by omega)] at hlen
  simp only [System.sendOut, Option.bind_eq_bind, Option.pure_def] at h
  rw [if_pos (by omega)] at h
  obtain ⟨⟨s₂, ok⟩, hsend, h⟩ := Option.bind_eq_some_iff.mp h
  cases h
  generalize hout : s₁.mapUip Uip.arpOut = t at hsend
  have honly : OnlyUip s₁ t := by
    rw [← hout]
    exact mapUip_only _
  have hkeeps : System.Keeps ofTcp s t := hf.keeps.trans (honly.keeps hf.keeps.owned)
  have hlen₁ : t.uip.uipLen = n + 54 := by
    have harp : t.uip.uipLen = add16 s₁.uip.uipLen UIP_LLH_LEN := by
      rw [← hout]
      exact arpOut_len hf.resolved
    rw [harp, add16_eq (by omega)]
    omega
  have hset : has t.packetstate UIPETHERNET_SENDPACKET := by
    rw [honly.packetstate]
    exact hf.send
  have hframe : t.frameLength = t.uip.uipLen := by
    have hblock : (t.net.blocks t.uipPacket).size = segmentSize n := by
      rw [honly.net, honly.uipPacket]
      exact hsize
    rw [frameLength, if_pos hset, hblock, segmentSize, add16_eq (by omega), sub16_eq (by omega) (by omega)]
    omega
  have hretains : Retains ofTcp s s₂ := by
    refine hkeeps.toRetains.trans (networkSend_retains hkeeps.owned hsend fun _ _ x hx => ?_)
    rw [own_congr honly.allData honly.sockets] at hx ⊢
    rw [honly.uipPacket]
    exact hf.own x hx
  have hsent := networkSend_only hsend
  have htables : s₂.tables.Paired := by
    rw [(honly.unmoved.trans hsent.unmoved).tables]
    exact hf.paired
  refine ⟨hs.beside hretains htables (fun _ => id) ?_ ?_ (networkSend_state hsend).2,
    (networkSend_exact hsend hframe).before hkeeps.sent, fun hsmall => ?_⟩
  · rw [hsent.sockets, honly.sockets, hf.sockets]
  · rw [hsent.uipUdpConns, honly.uipUdpConns, hf.udpConns]
  · rw [hsent.uipConns, honly.uipConns]
    exact hf.small hsmall

-- ---------------------------------------------------------------------------
-- The turn of a connection
-- ---------------------------------------------------------------------------

/-- The segment that the callback offers is not cut, and its next hop is
known. -/
structure Whole (s : System) (c u : Fin UIP_CONNS) : Prop where
  known : Knows s.uip (s.uipConns c).ripaddr
  new : (s.uipConns c).len = 0 → sendLength s u ≤ (s.uipConns c).mss
  again : (s.uipConns c).len ≠ 0 → sendLength s u = (s.uipConns c).len

theorem restart_routes : (restart s c u).uip.routes = s.uip.routes := by
  unfold restart
  split <;> rfl

theorem setAppdata_conns (n : Nat) : (s.setAppdata n).uipConns = s.uipConns := rfl

theorem apprexmit_sent {n : Nat} (hslen : 0 < s.uip.uipSlen) (hlen : (s.uipConns c).len = n) (hn : 0 < n)
    (h : s.apprexmit c = some s') : s'.uip.uipLen = add16 n UIP_TCPIP_HLEN ∧
      s'.uip.uipBuf.be32 Offset.destipaddr = (s.uipConns c).ripaddr ∧ s'.uip.routes = s.uip.routes := by
  simp only [apprexmit] at h
  rw [if_pos ⟨hslen, show 0 < (s.uipConns c).len by omega⟩] at h
  simp only [tcpSendNoopts, setTcpFlags, setAppdata_conns, hlen] at h
  generalize ht : ((((s.setAppdata (UIP_IPTCPH_LEN + UIP_LLH_LEN)).setLen (add16 n UIP_TCPIP_HLEN)).mapBuf fun b =>
    b.put Offset.tcpflags (TCP_ACK ||| TCP_PSH)).mapBuf fun b => b.put Offset.tcpoffset 0x50) = t at h
  have honly : OnlyUip s t := by
    rw [← ht]
    exact (((setAppdata_only _).trans (setLen_only _)).trans (mapBuf_only _)).trans (mapBuf_only _)
  refine ⟨(tcpSend_only h).2.trans ?_, (tcpSend_destination h).trans (by rw [honly.uipConns]), (tcpSend_routes h).trans ?_⟩
  · rw [← ht, mapBuf_len, mapBuf_len, setLen_len]
  · rw [← ht]
    rfl

/-- The block that the callback has filled, and the headers for it. -/
theorem offered_filled {n : Nat} (hs : Settled s) (hpre : Ticked c s s₁) (hkeeps : System.Keeps ofTcp s₁ s₂)
    (hcall : uipclientAppcall s₁ c = some s₂) (hoffered : Offered (restart s₁ c u) u s₂) (hn : sendLength s u = n)
    (hmax : n ≤ UIP_TCP_MSS) (hpost : Touch c s₂ s') (hlen : s'.uip.uipLen = add16 n UIP_TCPIP_HLEN)
    (hdest : s'.uip.uipBuf.be32 Offset.destipaddr = (s₂.uipConns c).ripaddr) (hroutes : s'.uip.routes = s₂.uip.routes)
    (hknown : Knows s.uip (s.uipConns c).ripaddr) : Filled s s' := by
  have hbefore := hpre.toTouch
  have hconfined := appcall_confined hcall
  have h₁ : System.Keeps ofTcp s s₁ := hbefore.keeps hs.owned
  have h₂ : System.Keeps ofTcp s s₂ := h₁.trans hkeeps
  have hown : s'.own = s₂.own := own_congr (by rw [hpost.same]) hpost.sockets
  have hpacket : s'.uipPacket = s₂.uipPacket := by rw [hpost.same]
  refine ⟨h₂.trans (hpost.keeps h₂.owned), hpost.paired (appcall_paired (hbefore.paired hs.paired) hcall), ?_, ?_, ?_, ?_,
    ⟨n, hmax, ?_, hlen⟩, (resolved_iff ?_ ?_).mpr hknown, ?_⟩
  · rw [hpost.sockets, hconfined.sockets, hbefore.sockets]
  · rw [hpost.udpConns, hconfined.udpConns, hbefore.udpConns]
  · rw [hpost.packetstate]
    exact hoffered.send
  · rw [hown, hpacket]
    exact hoffered.own
  · have hsize : s'.sizeAt s'.uipPacket = s₂.sizeAt s₂.uipPacket := by rw [hpost.same]; rfl
    rw [hsize, hoffered.size, restart_sendLength, hpre.sendLength, hn]
  · rw [hroutes, hoffered.routes, restart_routes, hpre.routes]
  · rw [hdest, hconfined.conn]
    exact hpre.ripaddr
  · exact fun hsmall => hpost.small_all (Confined.small hconfined (hbefore.small_all hsmall))

/-- A turn of the timer sets up a whole segment, or no packet at all. -/
theorem DataTurn.filled (hs : Settled s) (hsmall : Small (s.uipConns c))
    (hwhole : ∀ u, (s.uipConns c).appstate = some u → Asks s c → Copies s u → Whole s c u) (h : DataTurn c s s') :
    Silent s s' ∨ Filled s s' := by
  have hcallback : ∀ {s₁ s₂}, Ticked c s s₁ → s₁.uip.uipFlags = UIP_POLL ∨ s₁.uip.uipFlags = UIP_REXMIT →
      uipclientAppcall s₁ c = some s₂ → System.Keeps ofTcp s₁ s₂ ∧ (Silent s s₂ ∨ ∃ u, (s.uipConns c).appstate = some u ∧
        Offered (restart s₁ c u) u s₂ ∧ Copies s u ∧ s₂.uip.uipSlen = sendLength s u) := by
    intro s₁ s₂ hpre hflags hcall
    have h₁ := hpre.toTouch.silent hs
    obtain ⟨hkeeps, hout⟩ := appcall_asked h₁.settled.paired h₁.settled.owned hpre.atPayload hflags hcall
    refine ⟨hkeeps, hout.imp (fun hstate => h₁.trans ?_) ?_⟩
    · have hconfined := appcall_confined hcall
      refine ⟨h₁.settled.beside hkeeps.toRetains (appcall_paired h₁.settled.paired hcall) (fun _ => id) hconfined.sockets
        hconfined.udpConns ?_, hkeeps.sent, Confined.small hconfined⟩
      rw [hstate]
      exact h₁.settled.unset
    · rintro ⟨u, happ, hoffered⟩
      refine ⟨u, hpre.appstate.symm.trans happ, hoffered, hpre.copies hoffered.copies, ?_⟩
      rw [hoffered.slen, restart_sendLength, hpre.sendLength]
  cases h with
  | quiet hgoes => exact .inl (hgoes.toTouch.silent hs)
  | timedOut s₁ s₂ hpre hflags hcall hpost =>
    have h₁ := hpre.toTouch.silent hs
    have h₂ := h₁.trans (uipclientAppcall_silent h₁.settled (by rw [hflags]; decide) hcall)
    exact .inl (h₂.trans ((tcpSendNodata_only hpost).silent h₂.settled))
  | poll s₁ s₂ hpre hflags hest hlen hcall hpost =>
    have htouch := (appsend_stays hpost).toTouch
    obtain ⟨hkeeps, hquiet | ⟨u, happ, hoffered, hcopies, hslen⟩⟩ := hcallback hpre (.inl hflags) hcall
    · exact .inl (hquiet.trans (htouch.silent hquiet.settled))
    · have hw := hwhole u happ ⟨hest, fun hne => absurd hlen hne⟩ hcopies
      have hconn := (appcall_confined hcall).conn
      have hflags₂ : s₂.uip.uipFlags = UIP_POLL ∨ s₂.uip.uipFlags = UIP_POLL ||| UIP_NEWDATA := by
        rw [hoffered.flags, ← hflags]
        exact restart_only_flags
      have hlen₂ : (s₂.uipConns c).len = 0 := by
        rw [hconn]
        exact hpre.len.trans hlen
      have hmss₂ : (s₂.uipConns c).mss = (s.uipConns c).mss := by
        rw [hconn]
        exact hpre.mss
      have hpos := Nat.pos_of_ne_zero hcopies.bytes
      obtain ⟨t, ht, htslen, htlen, -, -, -, -, htaddr, htroutes⟩ := appsend_new hflags₂ (hslen ▸ hpos) hlen₂
      rw [hslen, hmss₂, Nat.min_eq_left (hw.new hlen)] at htslen
      rw [ht] at hpost
      obtain ⟨hout, hdest, hroutes⟩ := apprexmit_sent (htslen ▸ hpos) (htlen.trans htslen) hpos hpost
      exact .inr (offered_filled hs hpre hkeeps hcall hoffered rfl ((hw.new hlen).trans hsmall.1) htouch hout (hdest.trans htaddr)
        (hroutes.trans htroutes) hw.known)
  | rexmit s₁ s₂ hpre hflags hest hlen htimer hnrtx hcall hpost =>
    have htouch : Touch c s₂ s' := (apprexmit_only hpost).touch
    obtain ⟨hkeeps, hquiet | ⟨u, happ, hoffered, hcopies, hslen⟩⟩ := hcallback hpre (.inr hflags) hcall
    · exact .inl (hquiet.trans (htouch.silent hquiet.settled))
    · have hw := hwhole u happ ⟨hest, fun _ => ⟨htimer, hnrtx⟩⟩ hcopies
      have hpos := Nat.pos_of_ne_zero hcopies.bytes
      have hlen₂ : (s₂.uipConns c).len = sendLength s u := by
        rw [(appcall_confined hcall).conn]
        exact hpre.len.trans (hw.again hlen).symm
      obtain ⟨hout, hdest, hroutes⟩ := apprexmit_sent (hslen ▸ hpos) hlen₂ hpos hpost
      exact .inr (offered_filled hs hpre hkeeps hcall hoffered rfl ((hw.again hlen).trans_le hsmall.2.2) htouch hout hdest hroutes hw.known)

/-- The turn of `tick` for a connection. -/
theorem tickConn_settled {now nullTimer : BitVec 32} {periodic : Bool} (hs : Settled s) (hsmall : Small (s.uipConns c))
    (hwhole : CopiesIn s now nullTimer periodic c → ∀ u, (s.uipConns c).appstate = some u → Whole s c u)
    (h : s.tickConn now nullTimer periodic c = some s') : Sends s s' := by
  have hturn : ∀ {t}, (periodic = true ∨ due now (s.connTimer nullTimer c) ∧ (s.uipConns c).len = 0) → DataTurn c s t →
      t.sendOut = some s' → Sends s s' := by
    intro t hdue ht hsend
    rcases ht.filled hs hsmall fun u happ hasks hcopies => hwhole ⟨hdue, hasks, u, happ, hcopies⟩ u happ with hquiet | hfilled
    · exact hquiet.before (sendOut_settled hquiet.settled hsend)
    · exact hfilled.sendOut hs hsend
  simp only [tickConn, Option.bind_eq_bind, Option.pure_def] at h
  split at h
  · rename_i hperiodic
    obtain ⟨s₁, htimer, hsend⟩ := Option.bind_eq_some_iff.mp h
    exact hturn (.inl hperiodic) (uipTimer_data htimer) hsend
  · split at h
    · rename_i hdue
      obtain ⟨s₁, hpoll, hsend⟩ := Option.bind_eq_some_iff.mp h
      by_cases hlen : (s.uipConns c).len = 0
      · exact hturn (.inr ⟨hdue, hlen⟩) (uipPoll_data hpoll) hsend
      · -- a connection with unacknowledged bytes is not polled
        rw [uipPoll, if_neg fun h => hlen (by simpa [Conn.outstanding, initAppdata, setAppdata] using h.2)] at hpoll
        cases hpoll
        have hquiet : Silent s s.initAppdata.drop := OnlyUip.silent hs rfl
        exact hquiet.before (sendOut_settled hquiet.settled hsend)
    · cases h
      exact (Silent.refl hs).sends

end System

end UIPEthernet
