import UIPEthernet.UIPEthernetClass.Neighbours

/-!
# How two hosts find each other

The ARP request that takes a packet's place, the reply of the host that has the
address, and the packet when it is sent again.
-/

namespace UIPEthernet

open Lib

-- ---------------------------------------------------------------------------
-- ARP packets
-- ---------------------------------------------------------------------------

namespace Buf

variable {b b' : Buf} {i j a : Nat} {addr : List Byte}

theorem putEthaddr_apart (h : a + addr.length ≤ i ∨ j ≤ a) : Agree b (b.putEthaddr a addr) i j := by
  intro n hi hj
  rw [putEthaddr, store_outside]
  omega

theorem ethaddr_putEthaddr (h : addr.length = 6) : (b.putEthaddr a addr).ethaddr a = addr := by
  rw [ethaddr, putEthaddr, ← h]
  exact load_store_self

theorem Agree.ethaddr (h : Agree b b' i j) (hi : i ≤ a) (hj : a + 6 ≤ j) : b'.ethaddr a = b.ethaddr a :=
  load_congr fun n hn => h (a + n) (by omega) (by omega)

/-- What is read of an ARP packet. -/
structure IsArp (b : Buf) (opcode : Nat) (sipaddr : BitVec 32) (shwaddr : List Byte) (dipaddr : BitVec 32) : Prop where
  ethType : b.be16 Offset.ethType = UIP_ETHTYPE_ARP
  opcode : b.be16 Offset.opcode = opcode
  sipaddr : b.be32 Offset.sipaddr = sipaddr
  shwaddr : b.ethaddr Offset.shwaddr = shwaddr
  dipaddr : b.be32 Offset.dipaddr = dipaddr

variable {opcode : Nat} {sipaddr dipaddr : BitVec 32} {shwaddr : List Byte}

theorem IsArp.agree (h : IsArp b opcode sipaddr shwaddr dipaddr) (hagree : Agree b b' 0 UIP_ARPHDRSIZE) :
    IsArp b' opcode sipaddr shwaddr dipaddr where
  ethType := (hagree.be16 (by decide) (by decide)).trans h.ethType
  opcode := (hagree.be16 (by decide) (by decide)).trans h.opcode
  sipaddr := (hagree.be32 (by decide) (by decide)).trans h.sipaddr
  shwaddr := (hagree.ethaddr (by decide) (by decide)).trans h.shwaddr
  dipaddr := (hagree.be32 (by decide) (by decide)).trans h.dipaddr

theorem IsArp.announces {u : Uip} {len : Nat} (h : IsArp b opcode sipaddr shwaddr dipaddr)
    (hopcode : opcode = Uip.ARP_REQUEST ∨ opcode = Uip.ARP_REPLY) (hown : dipaddr = u.uipHostaddr)
    (hlen : UIP_ARPHDRSIZE ≤ len) : b.announces u len = some (sipaddr, shwaddr) := by
  have hip : b.be16 Offset.ethType ≠ UIP_ETHTYPE_IP := by
    rw [h.ethType]
    decide
  have hfor : ¬(len < UIP_ARPHDRSIZE ∨ b.be32 Offset.dipaddr ≠ u.uipHostaddr) := by
    rw [h.dipaddr, hown]
    rintro (hshort | hother)
    · exact absurd hlen (Nat.not_le_of_lt hshort)
    · exact hother rfl
  rw [Buf.announces, if_neg hip, if_pos h.ethType, if_neg hfor, h.opcode, if_pos hopcode, h.sipaddr, h.shwaddr]

end Buf

namespace Uip

variable {u v a b p : Uip} {ipaddr sipaddr : BitVec 32} {shwaddr : List Byte}

theorem arpRequest_isArp (heth : u.uipEthaddr.length = 6) (ipaddr : BitVec 32) :
    Buf.IsArp (u.arpRequest ipaddr).uipBuf ARP_REQUEST u.uipHostaddr u.uipEthaddr ipaddr := by
  have htail : ∀ {b : Buf} {i j : Nat}, 22 ≤ i →
      Buf.Agree b ((((((b.putBe16 Offset.opcode ARP_REQUEST).putBe16 Offset.hwtype 1).putBe16 Offset.protocol
        UIP_ETHTYPE_IP).put Offset.hwlen 6).put Offset.protolen 4).putBe16 Offset.ethType UIP_ETHTYPE_ARP) i j := by
    intro b i j hi
    have hbefore : ∀ {k}, k < 22 → k < i := fun h => Nat.lt_of_lt_of_le h hi
    exact (((((Buf.putBe16_agree (.inl (hbefore (by decide)))).trans (Buf.putBe16_agree (.inl (hbefore (by decide))))).trans
      (Buf.putBe16_agree (.inl (hbefore (by decide))))).trans (Buf.put_agree (.inl (hbefore (by decide))))).trans
      (Buf.put_agree (.inl (hbefore (by decide))))).trans (Buf.putBe16_agree (.inl (hbefore (by decide))))
  have hopcode : ∀ b : Buf, Buf.Agree b (((((b.putBe16 Offset.hwtype 1).putBe16 Offset.protocol UIP_ETHTYPE_IP).put
      Offset.hwlen 6).put Offset.protolen 4).putBe16 Offset.ethType UIP_ETHTYPE_ARP) Offset.opcode 22 := fun b =>
    ((((Buf.putBe16_agree (.inl (by decide))).trans (Buf.putBe16_agree (.inl (by decide)))).trans
      (Buf.put_agree (.inl (by decide)))).trans (Buf.put_agree (.inl (by decide)))).trans (Buf.putBe16_agree (.inl (by decide)))
  have hshwaddr : ∀ b : Buf, Buf.Agree b ((b.putBe32 Offset.dipaddr ipaddr).putBe32 Offset.sipaddr u.uipHostaddr)
      Offset.shwaddr Offset.sipaddr := fun b =>
    (Buf.putBe32_agree (.inr (by decide))).trans (Buf.putBe32_agree (.inr (by decide)))
  have hdipaddr : ∀ b : Buf, Buf.Agree b (b.putBe32 Offset.sipaddr u.uipHostaddr) Offset.dipaddr UIP_ARPHDRSIZE :=
    fun b => Buf.putBe32_agree (.inl (by decide))
  constructor
  · exact Buf.be16_putBe16 _ _ (by decide)
  · exact ((hopcode _).be16 (by decide) (by decide)).trans (Buf.be16_putBe16 _ _ (by decide))
  · exact ((htail (i := Offset.sipaddr) (j := UIP_ARPHDRSIZE) (by decide)).be32 (by decide) (by decide)).trans (Buf.be32_putBe32 _ _ _)
  · exact (((hshwaddr _).trans (htail (by decide))).ethaddr (by decide) (by decide)).trans (Buf.ethaddr_putEthaddr heth)
  · exact (((hdipaddr _).trans (htail (by decide))).be32 (by decide) (by decide)).trans (Buf.be32_putBe32 _ _ _)

/-- What an ARP request for the address of this host is answered with. -/
theorem arpArpin_reply (h : u.uipBuf.IsArp ARP_REQUEST sipaddr shwaddr u.uipHostaddr) (hlen : UIP_ARPHDRSIZE ≤ u.uipLen)
    (heth : u.uipEthaddr.length = 6) : u.arpArpin.uipLen = UIP_ARPHDRSIZE ∧
      u.arpArpin.uipBuf.IsArp ARP_REPLY u.uipHostaddr u.uipEthaddr sipaddr ∧
        u.arpArpin.uipBuf.ethaddr Offset.ethDest = shwaddr := by
  have hsix : shwaddr.length = 6 := h.shwaddr ▸ load_length
  let b := u.uipBuf
  let b₃ := ((b.putBe16 Offset.opcode ARP_REPLY).putEthaddr Offset.dhwaddr shwaddr).putEthaddr Offset.shwaddr u.uipEthaddr
  let b₅ := (b₃.putEthaddr Offset.ethSrc u.uipEthaddr).putEthaddr Offset.ethDest shwaddr
  let b₇ := (b₅.putBe32 Offset.dipaddr sipaddr).putBe32 Offset.sipaddr u.uipHostaddr
  have hreply : u.arpArpin.uipLen = UIP_ARPHDRSIZE ∧ u.arpArpin.uipBuf = b₇.putBe16 Offset.ethType UIP_ETHTYPE_ARP := by
    have hshort : ¬u.uipLen < UIP_ARPHDRSIZE := Nat.not_lt_of_le hlen
    have hown : ¬u.uipBuf.be32 Offset.dipaddr ≠ u.uipHostaddr := not_not_intro h.dipaddr
    simp only [arpArpin, if_neg hshort]
    rw [if_neg hown, if_pos h.opcode]
    refine ⟨rfl, ?_⟩
    have hhost : (({ u with uipLen := 0 } : Uip).arpUpdate sipaddr shwaddr).uipHostaddr = u.uipHostaddr :=
      congrArg Settings.hostaddr (arpUpdate_settings _ _ _)
    have heth : (({ u with uipLen := 0 } : Uip).arpUpdate sipaddr shwaddr).uipEthaddr = u.uipEthaddr :=
      congrArg Settings.ethaddr (arpUpdate_settings _ _ _)
    simp only [h.sipaddr, h.shwaddr, hhost, heth]
    rfl
  have hleft : ∀ {b : Buf} {i j : Nat}, Offset.vhl ≤ i → Buf.Agree b (b.putBe16 Offset.ethType UIP_ETHTYPE_ARP) i j :=
    fun hi => Buf.putBe16_agree (.inl (Nat.lt_of_lt_of_le (by decide) hi))
  have hmacs : ∀ {b : Buf} {i j : Nat}, Offset.ethType ≤ i →
      Buf.Agree b ((b.putEthaddr Offset.ethSrc u.uipEthaddr).putEthaddr Offset.ethDest shwaddr) i j := fun hi =>
    (Buf.putEthaddr_apart (.inl (by rw [heth]; exact hi))).trans
      (Buf.putEthaddr_apart (.inl (by rw [hsix]; exact Nat.le_trans (by decide) hi)))
  have haddrs : ∀ {b : Buf} {i j : Nat}, j ≤ Offset.sipaddr →
      Buf.Agree b ((b.putBe32 Offset.dipaddr sipaddr).putBe32 Offset.sipaddr u.uipHostaddr) i j := fun hj =>
    (Buf.putBe32_agree (.inr (Nat.le_trans hj (by decide)))).trans (Buf.putBe32_agree (.inr hj))
  have hhead : ∀ b : Buf, Buf.Agree b ((b.putEthaddr Offset.dhwaddr shwaddr).putEthaddr Offset.shwaddr u.uipEthaddr)
      Offset.opcode Offset.shwaddr := fun b =>
    (Buf.putEthaddr_apart (.inr (by decide))).trans (Buf.putEthaddr_apart (.inr (by decide)))
  have hdipaddr : ∀ b : Buf, Buf.Agree b (b.putBe32 Offset.sipaddr u.uipHostaddr) Offset.dipaddr UIP_ARPHDRSIZE :=
    fun b => Buf.putBe32_agree (.inl (by decide))
  have hdest : Buf.Agree b₅ (b₇.putBe16 Offset.ethType UIP_ETHTYPE_ARP) Offset.ethDest Offset.ethSrc :=
    (haddrs (by decide)).trans (Buf.putBe16_agree (.inr (by decide)))
  refine ⟨hreply.1, ?_, ?_⟩ <;> rw [hreply.2]
  · constructor
    · exact Buf.be16_putBe16 _ _ (by decide)
    · have hrest := (((hhead (b.putBe16 Offset.opcode ARP_REPLY)).trans (hmacs (by decide))).trans (haddrs (by decide))).trans (hleft (by decide))
      exact (hrest.be16 (by decide) (by decide)).trans (Buf.be16_putBe16 _ _ (by decide))
    · have hrest : Buf.Agree b₇ _ Offset.sipaddr Offset.dhwaddr := hleft (by decide)
      exact (hrest.be32 (by decide) (by decide)).trans (Buf.be32_putBe32 _ _ _)
    · have hrest : Buf.Agree b₃ (b₇.putBe16 Offset.ethType UIP_ETHTYPE_ARP) Offset.shwaddr Offset.sipaddr :=
        ((hmacs (by decide)).trans (haddrs (by decide))).trans (hleft (by decide))
      exact (hrest.ethaddr (by decide) (by decide)).trans (Buf.ethaddr_putEthaddr heth)
    · have hrest := (hdipaddr (b₅.putBe32 Offset.dipaddr sipaddr)).trans (hleft (by decide))
      exact (hrest.be32 (by decide) (by decide)).trans (Buf.be32_putBe32 _ _ _)
  · exact (hdest.ethaddr (by decide) (by decide)).trans (Buf.ethaddr_putEthaddr hsix)

-- ---------------------------------------------------------------------------
-- The exchange
-- ---------------------------------------------------------------------------

/-- The frame that goes out. -/
def sent (u : Uip) : List Byte := load u.uipBuf 0 u.uipLen

/-- The frame that `tick` puts into `uip_buf`; `handleFrame_arp` says that it does. -/
def receive (u : Uip) (frame : List Byte) : Uip := { u with uipBuf := store u.uipBuf 0 frame, uipLen := frame.length }

/-- The ARP part of `tick`, with a frame that fits into `uip_buf`. -/
theorem handleFrame_arp {s : System} {frame : List Byte} (hframe : s.net.readPacket s.inPacket 0 UIP_BUFSIZE = frame)
    (hlen : s.uip.uipLen = frame.length) (htype : (s.uip.receive frame).uipBuf.be16 Offset.ethType = UIP_ETHTYPE_ARP) :
    s.handleFrame = if 0 < (s.uip.receive frame).arpArpin.uipLen
      then (s.mapUip fun u => (u.receive frame).arpArpin).networkSend.bind fun p => some p.1
      else some (s.mapUip fun u => (u.receive frame).arpArpin) := by
  have hreceived : (s.mapBuf fun b => Lib.store b 0 (s.net.readPacket s.inPacket 0 UIP_BUFSIZE)) = s.mapUip fun u => u.receive frame := by
    rw [hframe]
    simp only [System.mapBuf, System.mapUip, receive, ← hlen]
  have harp : (s.mapUip fun u => u.receive frame).uip.uipBuf.be16 Offset.ethType = UIP_ETHTYPE_ARP := htype
  have hother : (s.mapUip fun u => u.receive frame).uip.uipBuf.be16 Offset.ethType ≠ UIP_ETHTYPE_IP := by
    rw [harp]
    decide
  rw [System.handleFrame_eq hreceived, if_neg hother, if_pos harp]
  rfl

/-- The controller pads a frame behind what was sent. -/
theorem receive_sent (u v : Uip) (pad : List Byte) : Buf.Agree u.uipBuf (v.receive (u.sent ++ pad)).uipBuf 0 u.uipLen := by
  intro n _ hn
  have hsent : n < u.sent.length := by rwa [sent, load_length]
  have hlen : n - 0 < (u.sent ++ pad).length := by
    rw [List.length_append]
    omega
  refine (store_inside (Nat.zero_le n) hlen).trans ?_
  rw [List.getElem_append_left (by omega)]
  simp [sent]

theorem receive_len (u v : Uip) (pad : List Byte) : u.uipLen ≤ (v.receive (u.sent ++ pad)).uipLen := by
  have hlen : (v.receive (u.sent ++ pad)).uipLen = (u.sent ++ pad).length := rfl
  rw [hlen, List.length_append, sent, load_length]
  exact Nat.le_add_right _ _

/-- An ARP packet that is for this host makes its sender known. -/
theorem arpArpin_learns {opcode : Nat} (h : u.uipBuf.IsArp opcode sipaddr shwaddr u.uipHostaddr) (hlen : UIP_ARPHDRSIZE ≤ u.uipLen)
    (hopcode : opcode = ARP_REQUEST ∨ opcode = ARP_REPLY) (husable : usable sipaddr) (hp : p.settings = u.arpArpin.settings)
    (hcast : p.uipBuf.be32 Offset.destipaddr ≠ 0xffffffff) (hhop : p.nextHop = sipaddr) : p.arpOut = p.ethHeader shwaddr := by
  have hset := hp.trans (arpArpin_settings h.ethType)
  rw [h.announces hopcode rfl hlen] at hset
  rw [arpOut_answers hcast, hhop, answers_congr hset, Uip.told, arpUpdate_answers husable]
  rfl

/-- Nothing but a request is answered. -/
theorem arpArpin_quiet (h : u.uipBuf.be16 Offset.opcode ≠ ARP_REQUEST) : u.arpArpin.uipLen = 0 := by
  simp only [arpArpin, if_neg h]
  split
  · rfl
  · split
    · rfl
    · split
      · exact System.arpUpdate_len _ _ _
      · rfl

/-- A host that does not know the next hop of a packet asks for it. The host that
has the address answers to it alone and has it in its table; the answer, when it
comes, puts that host into the table of the first and is not answered. With the
tables as they are then, what goes from one to the other goes out. -/
theorem arp_resolution (ha : a.uipEthaddr.length = 6) (hb : b.uipEthaddr.length = 6) (husable : usable a.uipHostaddr)
    (husable' : usable b.uipHostaddr) (hcast : a.uipBuf.be32 Offset.destipaddr ≠ 0xffffffff) (hhop : a.nextHop = b.uipHostaddr)
    (hunknown : a.answers b.uipHostaddr = none) (hlater : v.uipHostaddr = a.uipHostaddr) (pad pad' : List Byte) :
    let b' := (b.receive (a.arpOut.sent ++ pad)).arpArpin
    let v' := (v.receive (b'.sent ++ pad')).arpArpin
    b'.uipLen = UIP_ARPHDRSIZE ∧ b'.uipBuf.ethaddr Offset.ethDest = a.uipEthaddr ∧ v'.uipLen = 0 ∧
      (∀ p : Uip, p.settings = b'.settings → p.uipBuf.be32 Offset.destipaddr ≠ 0xffffffff → p.nextHop = a.uipHostaddr →
        p.arpOut = p.ethHeader a.uipEthaddr) ∧
      ∀ p : Uip, p.settings = v'.settings → p.uipBuf.be32 Offset.destipaddr ≠ 0xffffffff → p.nextHop = b.uipHostaddr →
        p.arpOut = p.ethHeader b.uipEthaddr := by
  intro b' v'
  have hask : a.arpOut = a.arpRequest b.uipHostaddr := by
    rw [arpOut_answers hcast, hhop, hunknown]
    rfl
  have hlen : a.arpOut.uipLen = UIP_ARPHDRSIZE := by
    rw [hask]
    rfl
  have hrequest : (b.receive (a.arpOut.sent ++ pad)).uipBuf.IsArp ARP_REQUEST a.uipHostaddr a.uipEthaddr b.uipHostaddr := by
    refine Buf.IsArp.agree ?_ (hlen ▸ receive_sent a.arpOut b pad)
    rw [hask]
    exact arpRequest_isArp ha b.uipHostaddr
  have hlen₁ : UIP_ARPHDRSIZE ≤ (b.receive (a.arpOut.sent ++ pad)).uipLen := hlen ▸ receive_len a.arpOut b pad
  obtain ⟨hlen', hreply, hdest⟩ := arpArpin_reply hrequest hlen₁ hb
  have hreply' : (v.receive (b'.sent ++ pad')).uipBuf.IsArp ARP_REPLY b.uipHostaddr b.uipEthaddr v.uipHostaddr :=
    hlater ▸ hreply.agree (hlen' ▸ receive_sent b' v pad')
  have hlen₂ : UIP_ARPHDRSIZE ≤ (v.receive (b'.sent ++ pad')).uipLen := hlen' ▸ receive_len b' v pad'
  refine ⟨hlen', hdest, ?_, fun p => ?_, fun p => ?_⟩
  · refine arpArpin_quiet ?_
    rw [hreply'.opcode]
    decide
  · exact arpArpin_learns hrequest hlen₁ (.inl rfl) husable
  · exact arpArpin_learns hreply' hlen₂ (.inr rfl) husable'

/-- A host with a packet for 10.0.0.2 in `uip_buf`. -/
def lookingFor (ipaddr : BitVec 32) (ethaddr : List Byte) : Uip :=
  { ((System.init (fun _ => 0) [] ethaddr 0).configure ipaddr 0 0xff000000).uip with
    uipBuf := Buf.putBe32 (fun _ => 0) Offset.destipaddr 0x0a000002 }

/-- 10.0.0.1 looks for 10.0.0.2, which has another stack of this library. The
frames have 60 bytes. -/
theorem arp_resolution_example : ∃ a b v : Uip, ∃ pad : List Byte,
    ((v.receive ((b.receive (a.arpOut.sent ++ pad)).arpArpin.sent ++ pad)).arpArpin).uipLen = 0 := by
  have hlen := arp_resolution (a := lookingFor 0x0a000001 [1, 2, 3, 4, 5, 6]) (b := lookingFor 0x0a000002 [6, 5, 4, 3, 2, 1])
    (v := lookingFor 0x0a000001 [1, 2, 3, 4, 5, 6]) rfl rfl (by decide) (by decide) (by decide) (by decide) (by decide) rfl
    (List.replicate 18 0) (List.replicate 18 0)
  exact ⟨_, _, _, _, hlen.2.2.1⟩

end Uip

end UIPEthernet
