import UIPEthernet.Headers

/-!
# What the header code leaves alone

The labels behind `tcp_send` and `udp_send` change the scratch globals of
`uip.c` only.
-/

namespace UIPEthernet

namespace System

def OnlyUip (s s' : System) : Prop := { s with uip := s'.uip } = s'

variable {s s' s'' : System} {c : Fin UIP_CONNS}

theorem OnlyUip.refl (s : System) : OnlyUip s s := rfl

theorem OnlyUip.trans (h : OnlyUip s s') (h' : OnlyUip s' s'') : OnlyUip s s'' := by
  rw [OnlyUip] at *
  rw [← h', ← h]

theorem OnlyUip.net (h : OnlyUip s s') : s'.net = s.net := by rw [← h]

theorem OnlyUip.uipConns (h : OnlyUip s s') : s'.uipConns = s.uipConns := by rw [← h]

theorem OnlyUip.uipUdpConns (h : OnlyUip s s') : s'.uipUdpConns = s.uipUdpConns := by rw [← h]

theorem OnlyUip.allData (h : OnlyUip s s') : s'.allData = s.allData := by rw [← h]

theorem OnlyUip.sockets (h : OnlyUip s s') : s'.sockets = s.sockets := by rw [← h]

theorem OnlyUip.uipPacket (h : OnlyUip s s') : s'.uipPacket = s.uipPacket := by rw [← h]

theorem OnlyUip.uipHdrlen (h : OnlyUip s s') : s'.uipHdrlen = s.uipHdrlen := by rw [← h]

theorem OnlyUip.packetstate (h : OnlyUip s s') : s'.packetstate = s.packetstate := by rw [← h]

theorem OnlyUip.inPacket (h : OnlyUip s s') : s'.inPacket = s.inPacket := by rw [← h]

theorem OnlyUip.history (h : OnlyUip s s') : s'.history = s.history := by rw [← h]

theorem mapBuf_only (f : Buf → Buf) : OnlyUip s (s.mapBuf f) := rfl

theorem setLen_only (len : Nat) : OnlyUip s (s.setLen len) := rfl

theorem setSlen_only (slen : Nat) : OnlyUip s (s.setSlen slen) := rfl

theorem setFlags_only (flags : BitVec 8) : OnlyUip s (s.setFlags flags) := rfl

theorem setAppdata_only (i : Nat) : OnlyUip s (s.setAppdata i) := rfl

theorem drop_only : OnlyUip s s.drop := rfl

@[simp] theorem ipSendNolen_len : s.ipSendNolen.uip.uipLen = s.uip.uipLen := rfl

theorem tcpSendNoconn_only (h : s.tcpSendNoconn = some s') :
    OnlyUip s s' ∧ s'.uip.uipLen = s.uip.uipLen := by
  simp only [tcpSendNoconn, Option.bind_eq_bind, Option.bind_eq_some_iff, Option.pure_def,
    Option.some.injEq] at h
  obtain ⟨sum, -, rfl⟩ := h
  exact ⟨rfl, rfl⟩

theorem tcpSend_only (h : s.tcpSend c = some s') : OnlyUip s s' ∧ s'.uip.uipLen = s.uip.uipLen := by
  obtain ⟨h1, h2⟩ := tcpSendNoconn_only h
  exact ⟨(mapBuf_only _).trans h1, h2⟩

theorem tcpSendNoopts_only (h : s.tcpSendNoopts c = some s') :
    OnlyUip s s' ∧ s'.uip.uipLen = s.uip.uipLen := by
  obtain ⟨h1, h2⟩ := tcpSend_only h
  exact ⟨(mapBuf_only _).trans h1, h2⟩

theorem tcpSendNodata_only {flags : Byte} (h : s.tcpSendNodata c flags = some s') : OnlyUip s s' := by
  obtain ⟨h1, -⟩ := tcpSendNoopts_only h
  exact ((mapBuf_only _).trans (setLen_only _)).trans h1

theorem tcpSendSyn_only {flags : Byte} (h : s.tcpSendSyn c flags = some s') : OnlyUip s s' := by
  obtain ⟨h1, -⟩ := tcpSend_only h
  exact ((mapBuf_only _).trans (setLen_only _)).trans h1

theorem reset_only (h : s.reset = some s') : OnlyUip s s' := by
  rw [reset] at h
  split at h
  · cases h
    exact drop_only
  · obtain ⟨h1, -⟩ := tcpSendNoconn_only h
    exact ((mapBuf_only _).trans (setLen_only _)).trans h1

theorem udpSend_only {i : Fin UIP_UDP_CONNS} (h : s.udpSend i = some s') :
    OnlyUip s s' ∧
      s'.uip.uipLen = if s.uip.uipSlen = 0 then 0 else add16 s.uip.uipSlen UIP_IPUDPH_LEN := by
  simp only [udpSend] at h
  split at h
  · rename_i hslen
    cases h
    exact ⟨drop_only, by rw [if_pos hslen]; rfl⟩
  · rename_i hslen
    simp only [Option.bind_eq_bind, Option.bind_eq_some_iff, Option.pure_def, Option.some.injEq] at h
    obtain ⟨sum, -, rfl⟩ := h
    exact ⟨rfl, by rw [if_neg hslen]; rfl⟩

/-- The checksum is all that `udp_send` may not come back from. -/
theorem udpSend_some {i : Fin UIP_UDP_CONNS}
    (hsum : ∀ s₁, OnlyUip s s₁ → ∃ sum, s₁.upperLayerChksum UIP_PROTO_UDP = some sum) :
    ∃ s', s.udpSend i = some s' := by
  simp only [udpSend]
  split
  · exact ⟨_, rfl⟩
  · refine ⟨_, Option.bind_eq_some_iff.mpr ⟨_, Exists.choose_spec (hsum _ ?_), rfl⟩⟩
    exact rfl

end System

-- ---------------------------------------------------------------------------
-- The type field
-- ---------------------------------------------------------------------------

theorem Buf.be16_putBe16 (b : Buf) (i : Nat) {v : Nat} (hv : v < 65536) :
    (b.putBe16 i v).be16 i = v := by
  simp [Buf.be16, Buf.putBe16, Buf.put]
  omega

/-- The type field of a frame. -/
def frameType (frame : List Byte) : Nat :=
  256 * (frame.getD Offset.ethType 0).toNat + (frame.getD (Offset.ethType + 1) 0).toNat

theorem frameType_load (b : Buf) {n : Nat} (hn : UIP_LLH_LEN ≤ n) (rest : List Byte) :
    frameType (Lib.load b 0 n ++ rest) = b.be16 Offset.ethType := by
  have h1 : UIP_LLH_LEN = 14 := rfl
  have h2 : Offset.ethType = 12 := rfl
  simp only [frameType, Buf.be16, List.getD_eq_getElem?_getD, h2]
  rw [List.getElem?_append_left (by simp; omega), List.getElem?_append_left (by simp; omega),
    List.getElem?_eq_getElem (by simp; omega), List.getElem?_eq_getElem (by simp; omega)]
  simp

/-- `uip_arp_out`: the packet with its Ethernet header, or an ARP request in
its place. -/
theorem arpOut_cases (u : Uip) :
    (u.arpOut.uipLen = add16 u.uipLen UIP_LLH_LEN ∧ u.arpOut.uipBuf.be16 Offset.ethType = UIP_ETHTYPE_IP) ∨
    (u.arpOut.uipLen = UIP_ARPHDRSIZE ∧ u.arpOut.uipBuf.be16 Offset.ethType = UIP_ETHTYPE_ARP) := by
  have hip : ∀ dest, (u.ethHeader dest).uipBuf.be16 Offset.ethType = UIP_ETHTYPE_IP :=
    fun dest => Buf.be16_putBe16 _ _ (by decide)
  simp only [Uip.arpOut]
  split
  · exact .inl ⟨rfl, hip _⟩
  · split
    · exact .inr ⟨rfl, Buf.be16_putBe16 _ _ (by decide)⟩
    · exact .inl ⟨rfl, hip _⟩

end UIPEthernet
