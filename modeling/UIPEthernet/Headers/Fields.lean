import UIPEthernet.Headers.Frame

/-!
# The destination of a datagram in uip_buf

`udp_send` takes it from the connection, and nothing behind it writes there
again.
-/

namespace UIPEthernet

namespace Buf

theorem bytes_append (v : BitVec 32) :
    v.extractLsb' 24 8 ++ v.extractLsb' 16 8 ++ v.extractLsb' 8 8 ++ v.extractLsb' 0 8 = v := by
  rw [BitVec.extractLsb'_append_extractLsb'_eq_extractLsb' (by rfl),
    BitVec.extractLsb'_append_extractLsb'_eq_extractLsb' (by rfl),
    BitVec.extractLsb'_append_extractLsb'_eq_extractLsb' (by rfl)]
  exact BitVec.extractLsb'_eq_self

theorem be32_putBe32 (b : Buf) (i : Nat) (v : BitVec 32) : (b.putBe32 i v).be32 i = v := by
  simp [be32, putBe32, put]
  exact bytes_append v

theorem be16_putU16 (b : Buf) (i v : Nat) : (b.putU16 i v).be16 i = htons v := by
  simp [be16, putU16, put, htons]
  omega

theorem be16_inj {b b' : Buf} {i : Nat} (h : b.be16 i = b'.be16 i) : b i = b' i ∧ b (i + 1) = b' (i + 1) := by
  have hlow : ∀ x : Byte, x.toNat < 256 := fun x => x.isLt
  have h₁ := hlow (b (i + 1))
  have h₂ := hlow (b' (i + 1))
  simp only [be16] at h
  exact ⟨BitVec.eq_of_toNat_eq (by omega), BitVec.eq_of_toNat_eq (by omega)⟩

/-- Two buffers that agree from `i` on up to `j`. -/
def Agree (b b' : Buf) (i j : Nat) : Prop := ∀ n, i ≤ n → n < j → b' n = b n

theorem Agree.trans {b b' b'' : Buf} {i j : Nat} (h : Agree b b' i j) (h' : Agree b' b'' i j) :
    Agree b b'' i j := fun n hi hj => (h' n hi hj).trans (h n hi hj)

theorem Agree.be32 {b b' : Buf} {i j a : Nat} (h : Agree b b' i j) (hi : i ≤ a) (hj : a + 3 < j) :
    b'.be32 a = b.be32 a := by
  rw [Buf.be32, h a hi (by omega), h (a + 1) (by omega) (by omega), h (a + 2) (by omega) (by omega),
    h (a + 3) (by omega) (by omega)]
  rfl

theorem Agree.be16 {b b' : Buf} {i j a : Nat} (h : Agree b b' i j) (hi : i ≤ a) (hj : a + 1 < j) :
    b'.be16 a = b.be16 a := by
  rw [Buf.be16, h a hi (by omega), h (a + 1) (by omega) (by omega)]
  rfl

theorem put_agree {b : Buf} {i j a : Nat} {x : Byte} (h : a < i ∨ j ≤ a) : Agree b (b.put a x) i j :=
  fun n hi hj => Function.update_of_ne (by omega) _ _

theorem putU16_agree {b : Buf} {i j a v : Nat} (h : a + 1 < i ∨ j ≤ a) : Agree b (b.putU16 a v) i j :=
  (put_agree (by omega)).trans (put_agree (by omega))

theorem putBe16_agree {b : Buf} {i j a v : Nat} (h : a + 1 < i ∨ j ≤ a) : Agree b (b.putBe16 a v) i j :=
  (put_agree (by omega)).trans (put_agree (by omega))

theorem putBe32_agree {b : Buf} {i j a : Nat} {v : BitVec 32} (h : a + 3 < i ∨ j ≤ a) : Agree b (b.putBe32 a v) i j :=
  (((put_agree (by omega)).trans (put_agree (by omega))).trans (put_agree (by omega))).trans (put_agree (by omega))

theorem putEthaddr_agree {b : Buf} {i j a : Nat} {addr : List Byte} (h : a + addr.length ≤ i) :
    Agree b (b.putEthaddr a addr) i j := fun n hi _ => by
  rw [putEthaddr, Lib.store_outside]
  exact .inr (by omega)

end Buf

namespace System

variable {s s' : System} {i : Fin UIP_UDP_CONNS}

/-- Nothing behind the IP checksum is touched by `ip_send_nolen`. -/
theorem ipSendNolen_agree (j : Nat) : Buf.Agree s.uip.uipBuf s.ipSendNolen.uip.uipBuf Offset.srcipaddr j := by
  let b := s.uip.uipBuf
  have hfront : Buf.Agree b (((b.put Offset.vhl 0x45).put Offset.tos 0).putBe16 Offset.ipoffset 0)
      Offset.srcipaddr j :=
    ((Buf.put_agree (.inl (by decide))).trans (Buf.put_agree (.inl (by decide)))).trans
      (Buf.putBe16_agree (.inl (by decide)))
  exact ((hfront.trans (Buf.putBe16_agree (.inl (by decide)))).trans (Buf.putU16_agree (.inl (by decide)))).trans
    (Buf.putU16_agree (.inl (by decide)))

/-- A datagram that `udp_send` leaves is for the remote end of the
connection. -/
theorem udpSend_destination (h : s.udpSend i = some s') (hlen : 0 < s'.uip.uipLen) :
    s'.uip.uipBuf.be32 Offset.destipaddr = (s.uipUdpConns i).ripaddr ∧
      s'.uip.uipBuf.be16 Offset.destport = htons (s.uipUdpConns i).rport := by
  simp only [udpSend] at h
  split at h
  · cases h
    exact absurd hlen (Nat.lt_irrefl 0)
  · obtain ⟨sum, -, h⟩ := Option.bind_eq_some_iff.mp h
    cases h
    refine ⟨((ipSendNolen_agree Offset.udpchksum).be32 (by decide) (by decide)).trans ?_,
      ((ipSendNolen_agree Offset.udpchksum).be16 (by decide) (by decide)).trans ?_⟩
    · simp [mapBuf, setAppdata, Buf.be32, Buf.putBe32, Buf.putU16, Buf.put, Offset.destipaddr, Offset.udpchksum,
        Buf.bytes_append]
    · simp [mapBuf, setAppdata, Buf.be16, Buf.putBe32, Buf.putU16, Buf.put, Offset.destipaddr, Offset.srcipaddr,
        Offset.destport, Offset.udpchksum, htons]
      omega

/-- A segment of a connection is for its remote end. -/
theorem tcpSend_destination {c : Fin UIP_CONNS} (h : s.tcpSend c = some s') :
    s'.uip.uipBuf.be32 Offset.destipaddr = (s.uipConns c).ripaddr := by
  simp only [tcpSend, tcpSendNoconn, Option.bind_eq_bind, Option.pure_def] at h
  obtain ⟨sum, -, h⟩ := Option.bind_eq_some_iff.mp h
  cases h
  refine ((ipSendNolen_agree Offset.tcpchksum).be32 (by decide) (by decide)).trans ?_
  simp [mapBuf, Buf.be32, Buf.putBe32, Buf.putBe16, Buf.putU16, Buf.put, Offset.destipaddr, Offset.wnd, Offset.ttl,
    Offset.len, Offset.urgp, Offset.tcpchksum, Buf.bytes_append]

end System

-- ---------------------------------------------------------------------------
-- What uip_arp_out looks at
-- ---------------------------------------------------------------------------

/-- The addresses of this host and its neighbours. -/
def Uip.routes (u : Uip) : BitVec 32 × BitVec 32 × BitVec 32 × (Fin UIP_ARPTAB_SIZE → ArpEntry) :=
  (u.uipHostaddr, u.uipNetmask, u.uipDraddr, u.arpTable)

namespace System

theorem tcpSend_routes {s s' : System} {c : Fin UIP_CONNS} (h : s.tcpSend c = some s') : s'.uip.routes = s.uip.routes := by
  simp only [tcpSend, tcpSendNoconn, Option.bind_eq_bind, Option.pure_def] at h
  obtain ⟨sum, -, h⟩ := Option.bind_eq_some_iff.mp h
  cases h
  rfl

theorem udpSend_routes {s s' : System} {i : Fin UIP_UDP_CONNS} (h : s.udpSend i = some s') : s'.uip.routes = s.uip.routes := by
  simp only [udpSend] at h
  split at h
  · cases h
    rfl
  · obtain ⟨sum, -, h⟩ := Option.bind_eq_some_iff.mp h
    cases h
    rfl

/-- The next hop towards an address is known. -/
def Knows (u : Uip) (dest : BitVec 32) : Prop :=
  dest = 0xffffffff ∨ ∃ i, (u.arpTable i).ipaddr =
    if dest &&& u.uipNetmask ≠ u.uipHostaddr &&& u.uipNetmask then u.uipDraddr else dest

instance (u : Uip) (dest : BitVec 32) : Decidable (Knows u dest) := inferInstanceAs (Decidable (_ ∨ _))

/-- The next hop of the packet in `uip_buf` is known. -/
def Resolved (u : Uip) : Prop :=
  let dest := u.uipBuf.be32 Offset.destipaddr
  dest = 0xffffffff ∨ ∃ i, (u.arpTable i).ipaddr =
    if dest &&& u.uipNetmask ≠ u.uipHostaddr &&& u.uipNetmask then u.uipDraddr else dest

theorem resolved_iff {u v : Uip} {dest : BitVec 32} (hroutes : v.routes = u.routes) (hdest : v.uipBuf.be32 Offset.destipaddr = dest) :
    Resolved v ↔ Knows u dest := by
  obtain ⟨hhost, hroutes⟩ := Prod.mk.inj hroutes
  obtain ⟨hmask, hroutes⟩ := Prod.mk.inj hroutes
  obtain ⟨hrouter, htable⟩ := Prod.mk.inj hroutes
  simp only [Resolved, Knows, hdest, hhost, hmask, hrouter, htable]

end System

-- ---------------------------------------------------------------------------
-- uip_arp_out
-- ---------------------------------------------------------------------------

namespace System

theorem arpOut_len {u : Uip} (hres : Resolved u) : u.arpOut.uipLen = add16 u.uipLen UIP_LLH_LEN := by
  simp only [Uip.arpOut]
  split
  · rfl
  · rename_i hcast
    obtain ⟨i, hi⟩ := hres.resolve_left hcast
    split
    · rename_i hnone
      exact absurd (beq_iff_eq.mpr hi) (List.find?_eq_none.mp hnone i (List.mem_finRange i))
    · rfl

/-- An ARP request goes out in the packet's place. -/
theorem arpOut_unresolved {u : Uip} (hres : ¬Resolved u) :
    u.arpOut.uipLen = UIP_ARPHDRSIZE ∧ u.arpOut.uipBuf.be16 Offset.ethType = UIP_ETHTYPE_ARP := by
  simp only [Uip.arpOut]
  split
  · rename_i hcast
    exact absurd (.inl hcast) hres
  · split
    · exact ⟨rfl, Buf.be16_putBe16 _ _ (by decide)⟩
    · rename_i i hfind
      exact absurd (.inr ⟨i, by simpa using List.find?_some hfind⟩) hres

end System

/-- Every Ethernet address has the six bytes of a `uip_eth_addr`. -/
def SixBytes (u : Uip) : Prop := u.uipEthaddr.length = 6 ∧ ∀ i, (u.arpTable i).ethaddr.length = 6

namespace Uip

variable {u : Uip} {dest : List Byte}

theorem ethHeader_agree (heth : u.uipEthaddr.length = 6) (hdest : dest.length = 6) (j : Nat) :
    Buf.Agree u.uipBuf (u.ethHeader dest).uipBuf UIP_LLH_LEN j :=
  ((Buf.putEthaddr_agree (by rw [hdest]; decide)).trans (Buf.putEthaddr_agree (by rw [heth]; decide))).trans
    (Buf.putBe16_agree (.inl (by decide)))

/-- The packet keeps what is behind its Ethernet header, or an ARP request
takes its place. -/
theorem arpOut_agree (heth : SixBytes u) (j : Nat) :
    u.arpOut.uipBuf.be16 Offset.ethType = UIP_ETHTYPE_ARP ∨
      Buf.Agree u.uipBuf u.arpOut.uipBuf UIP_LLH_LEN j := by
  simp only [Uip.arpOut]
  split
  · exact .inr (ethHeader_agree heth.1 rfl j)
  · split
    · exact .inl (Buf.be16_putBe16 _ _ (by decide))
    · exact .inr (ethHeader_agree heth.1 (heth.2 _) j)

end Uip

end UIPEthernet
