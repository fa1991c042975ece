import UIPEthernet.Uip.Validation

/-!
# Echo replies

`tick` reads the first `UIP_BUFSIZE` bytes of a frame into `uip_buf`, and a
reply is sent from there with the length of the request. Behind `uip_buf` lies
other memory, in the model the rest of the buffer.
-/

namespace UIPEthernet

open Enc28J60Network Lib

/-- `MAX_FRAMELEN`, longer frames are not received. -/
def MAX_FRAMELEN : Nat := 1500

def UIP_ICMPH_LEN : Nat := 8

/-- A frame as it lies in a buffer. -/
def bytes (frame : List Byte) : Buf := fun i => frame.getD i 0

/-- The frame is an echo request that `uip_process` answers. -/
structure EchoRequest (u : Uip) (frame : List Byte) : Prop where
  ethType : (bytes frame).be16 Offset.ethType = UIP_ETHTYPE_IP
  vhl : bytes frame Offset.vhl = 0x45
  length : UIP_LLH_LEN + (bytes frame).be16 Offset.len ≤ frame.length
  header : UIP_IPH_LEN + UIP_ICMPH_LEN ≤ (bytes frame).be16 Offset.len
  whole : (bytes frame).be16 Offset.ipoffset &&& 0x3fff = 0
  address : u.uipHostaddr ≠ 0 → (bytes frame).be32 Offset.destipaddr = u.uipHostaddr
  ipchksum : chksumResult (wordSum (load (bytes frame) UIP_LLH_LEN UIP_IPH_LEN)) = 0xffff
  proto : bytes frame Offset.proto = UIP_PROTO_ICMP
  type : bytes frame Offset.icmpType = System.ICMP_ECHO

namespace EchoRequest

/-- The Ethernet and IP addresses, the ICMP type and the ICMP checksum. -/
def Rewritten (i : Nat) : Prop :=
  i < Offset.ethType ∨ (Offset.srcipaddr ≤ i ∧ i < Offset.icmpType) ∨ i = Offset.icmpType ∨
    i = Offset.icmpchksum ∨ i = Offset.icmpchksum + 1

/-- The reply has the length of the request, and its bytes elsewhere. -/
structure Returned (request reply : List Byte) : Prop where
  length : reply.length = UIP_LLH_LEN + (bytes request).be16 Offset.len
  kept : ∀ i < reply.length, ¬Rewritten i → reply.getD i 0 = request.getD i 0

end EchoRequest

-- ---------------------------------------------------------------------------
-- The request in uip_buf
-- ---------------------------------------------------------------------------

/-- The front of a frame, stored at the start of a buffer. -/
theorem store_bytes (b : Buf) (frame : List Byte) (n : Nat) :
    Buf.Agree (bytes frame) (store b 0 (frame.take n)) 0 (min n frame.length) ∧
      ∀ i, n ≤ i → store b 0 (frame.take n) i = b i := by
  have hlen : (frame.take n).length = min n frame.length := List.length_take
  constructor
  · intro i _ hi
    have hlt : i < frame.length := Nat.lt_of_lt_of_le hi (Nat.min_le_right _ _)
    rw [store_inside (Nat.zero_le i) (by rwa [Nat.sub_zero, hlen]), List.getElem_take]
    simp [bytes, hlt]
  · intro i hi
    refine store_outside (.inr ?_)
    rw [hlen, Nat.zero_add]
    exact (Nat.min_le_left _ _).trans hi

namespace Enc28J60Network

theorem readBuffer_take (ram : Nat → Byte) (m n a : Nat) : readBuffer ram (min n m) a = (readBuffer ram m a).take n := by
  induction m generalizing n a with
  | zero => simp [readBuffer]
  | succ m ih =>
    cases n with
    | zero => simp [readBuffer]
    | succ n => rw [Nat.succ_min_succ, readBuffer, readBuffer, List.take_succ_cons, ih]

end Enc28J60Network

namespace Uip

/-- `uip_arp_ipin` learns an address. -/
theorem arpIpin_eq (u : Uip) :
    u.arpIpin = { u with uipLen := sub16 u.uipLen UIP_LLH_LEN, arpTable := u.arpIpin.arpTable } := by
  simp only [arpIpin]
  split
  · rfl
  · simp only [arpUpdate]
    split <;> rfl

/-- The address it learns is in the headers. -/
theorem arpIpin_table {u : Uip} {b : Buf} (hsrc : b.be32 Offset.srcipaddr = u.uipBuf.be32 Offset.srcipaddr)
    (heth : b.ethaddr Offset.ethSrc = u.uipBuf.ethaddr Offset.ethSrc) :
    { u with uipBuf := b }.arpIpin.arpTable = u.arpIpin.arpTable := by
  simp only [arpIpin, hsrc, heth]
  split
  · rfl
  · simp only [arpUpdate, arpOldest]
    split <;> rfl

/-- `uip_ethaddr`, `uip_hostaddr`, `uip_netmask` and `uip_draddr` stay. -/
structure SameAddresses (u u' : Uip) : Prop where
  ethaddr : u'.uipEthaddr = u.uipEthaddr
  hostaddr : u'.uipHostaddr = u.uipHostaddr
  netmask : u'.uipNetmask = u.uipNetmask
  draddr : u'.uipDraddr = u.uipDraddr

theorem SameAddresses.trans {u u' u'' : Uip} (h : SameAddresses u u') (h' : SameAddresses u' u'') : SameAddresses u u'' :=
  ⟨h'.ethaddr.trans h.ethaddr, h'.hostaddr.trans h.hostaddr, h'.netmask.trans h.netmask, h'.draddr.trans h.draddr⟩

theorem arpIpin_addresses (u : Uip) : SameAddresses u u.arpIpin := by
  rw [arpIpin_eq]
  exact ⟨rfl, rfl, rfl, rfl⟩

theorem arpIpin_sixBytes {u : Uip} (h : SixBytes u) : SixBytes u.arpIpin := by
  have hlearn : ∀ (i : Fin UIP_ARPTAB_SIZE) (e : ArpEntry), e.ethaddr.length = 6 →
      ∀ j, (Function.update u.arpTable i e j).ethaddr.length = 6 := by
    intro i e he j
    by_cases hj : j = i
    · rw [hj, Function.update_self]
      exact he
    · rw [Function.update_of_ne hj]
      exact h.2 j
  simp only [arpIpin]
  split
  · exact ⟨h.1, h.2⟩
  · simp only [arpUpdate]
    split <;> exact ⟨h.1, hlearn _ _ load_length⟩

end Uip

namespace System

variable {s s' t : System} {f : List Byte}

/-- The received frame. -/
def request (s : System) : List Byte := s.net.readPacket s.inPacket 0 (s.net.blockSize s.inPacket)

/-- `tick` sends the reply to the echo request `in_packet`. -/
def Replies (s : System) (reply : List Byte) : Prop :=
  ∃ s' ok, s.tickInput = some s' ∧ s'.net.sent = (reply, ok) :: s.net.sent ∧ frameType reply = UIP_ETHTYPE_IP

section
variable (hin : s.inPacket = UIP_RECEIVEBUFFERHANDLE) (hsize : s.net.receivePkt.size ≤ MAX_FRAMELEN)
include hin hsize

theorem readPacket_request (n : Nat) : s.net.readPacket s.inPacket 0 n = s.request.take n := by
  have hmax : MAX_FRAMELEN = 1500 := rfl
  have hclip : ∀ n, clip s.net.receivePkt 0 n = min n s.net.receivePkt.size := by
    intro n
    rw [clip, sub16_eq (Nat.zero_le _) (by omega), Nat.sub_zero]
    split <;> omega
  have hpacket : s.net.packet UIP_RECEIVEBUFFERHANDLE = s.net.receivePkt := rfl
  have hblock : s.net.blockSize UIP_RECEIVEBUFFERHANDLE = s.net.receivePkt.size := rfl
  rw [request, hin, hblock]
  simp only [Enc28J60Network.readPacket, setReadPtr, hpacket, hclip, Nat.min_self]
  exact readBuffer_take ..

theorem request_length : s.request.length = s.net.receivePkt.size := by
  have hmax : MAX_FRAMELEN = 1500 := rfl
  have hpacket : s.net.packet UIP_RECEIVEBUFFERHANDLE = s.net.receivePkt := rfl
  have hblock : s.net.blockSize UIP_RECEIVEBUFFERHANDLE = s.net.receivePkt.size := rfl
  rw [request, hin, hblock]
  simp only [Enc28J60Network.readPacket, setReadPtr, hpacket, readBuffer_length, clip]
  rw [sub16_eq (Nat.zero_le _) (by omega), Nat.sub_zero]
  split <;> rfl

/-- The part of the frame that fits is in `uip_buf`, with what was there
before behind it. -/
theorem loaded_request : Buf.Agree (bytes s.request) s.loaded.uip.uipBuf 0 (min UIP_BUFSIZE s.request.length) ∧
    ∀ i, UIP_BUFSIZE ≤ i → s.loaded.uip.uipBuf i = s.uip.uipBuf i := by
  rw [loaded_buf, readPacket_request hin hsize]
  exact store_bytes s.uip.uipBuf s.request UIP_BUFSIZE

end

-- ---------------------------------------------------------------------------
-- The reply in uip_buf
-- ---------------------------------------------------------------------------

theorem uipInput_icmp (hvhl : t.uip.uipBuf Offset.vhl = 0x45) (hlen : t.uip.uipBuf.be16 Offset.len ≤ t.uip.uipLen)
    (hwhole : t.uip.uipBuf.be16 Offset.ipoffset &&& 0x3fff = 0)
    (haddr : t.uip.uipHostaddr ≠ 0 → t.uip.uipBuf.be32 Offset.destipaddr = t.uip.uipHostaddr)
    (hsum : t.uip.ipchksum = 0xffff) (hproto : t.uip.uipBuf Offset.proto = UIP_PROTO_ICMP) :
    t.uipInput = some (t.initAppdata.setLen (t.uip.uipBuf.be16 Offset.len)).icmpInput := by
  have hbuf : t.initAppdata.uip.uipBuf = t.uip.uipBuf := rfl
  have hsum' : (t.initAppdata.setLen (t.uip.uipBuf.be16 Offset.len)).uip.ipchksum = 0xffff := by
    rw [Uip.ipchksum_eq] at hsum ⊢
    exact hsum
  have hother : ∀ x : Byte, x ≠ UIP_PROTO_ICMP → ¬t.uip.uipBuf Offset.proto = x := fun x hx he => hx (he.symm.trans hproto)
  have hlen' : t.initAppdata.uip.uipLen = t.uip.uipLen := rfl
  have haddr' : ∀ n, (t.initAppdata.setLen n).uip.uipHostaddr = t.uip.uipHostaddr := fun _ => rfl
  simp only [uipInput, hbuf, hlen', haddr']
  rw [if_neg (fun h => h hvhl), if_neg (Nat.not_lt.mpr hlen), if_neg (fun h => h hwhole),
    if_neg (fun h => hother UIP_PROTO_UDP (by decide) h.2.1), if_neg (fun h => h.2 (haddr h.1)), if_neg (fun h => h hsum'),
    if_neg (hother UIP_PROTO_TCP (by decide)), if_neg (hother UIP_PROTO_UDP (by decide)), if_neg (fun h => h hproto)]

/-- What the ICMP code leaves in `uip_buf`. -/
structure Answered (t t' : System) : Prop where
  only : OnlyUip t t'
  len : t'.uip.uipLen = t.uip.uipLen
  addresses : Uip.SameAddresses t.uip t'.uip
  table : t'.uip.arpTable = t.uip.arpTable
  dest : t'.uip.uipBuf.be32 Offset.destipaddr = t.uip.uipBuf.be32 Offset.srcipaddr
  kept : ∀ i, Offset.ethType ≤ i → ¬EchoRequest.Rewritten i → t'.uip.uipBuf i = t.uip.uipBuf i

theorem icmpInput_answered (htype : t.uip.uipBuf Offset.icmpType = ICMP_ECHO) : Answered t t.icmpInput := by
  have hecho : ∀ sum ip, Answered t (t.mapBuf fun b => (((b.put Offset.icmpType ICMP_ECHO_REPLY).putU16 Offset.icmpchksum
      sum).putBe32 Offset.destipaddr (b.be32 Offset.srcipaddr)).putBe32 Offset.srcipaddr ip).send := by
    intro sum ip
    refine ⟨rfl, rfl, ⟨rfl, rfl, rfl, rfl⟩, rfl, ?_, fun i hi hkept => ?_⟩
    · have hdest : ∀ (b : Buf) v, ((b.putBe32 Offset.destipaddr v).putBe32 Offset.srcipaddr ip).be32 Offset.destipaddr = v :=
        fun b v => (Buf.Agree.be32 (Buf.putBe32_agree (i := Offset.destipaddr) (j := Offset.icmpType) (.inl (by decide)))
          (Nat.le_refl _) (by decide)).trans (Buf.be32_putBe32 b _ v)
      exact hdest _ _
    · simp only [EchoRequest.Rewritten, Offset.ethType, Offset.srcipaddr, Offset.icmpType, Offset.icmpchksum] at hi hkept
      simp only [send, setFlags, mapBuf, Buf.putBe32, Buf.putU16, Buf.put, Offset.icmpType, Offset.icmpchksum,
        Offset.destipaddr, Offset.srcipaddr]
      rw [Function.update_of_ne, Function.update_of_ne, Function.update_of_ne, Function.update_of_ne, Function.update_of_ne,
        Function.update_of_ne, Function.update_of_ne, Function.update_of_ne, Function.update_of_ne, Function.update_of_ne,
        Function.update_of_ne] <;> omega
  rw [icmpInput, if_neg (fun h => h htype)]
  exact hecho _ _

-- ---------------------------------------------------------------------------
-- The reply on its way
-- ---------------------------------------------------------------------------

section
variable (t : System) (n : Nat)

theorem asked_buf : (t.initAppdata.setLen n).uip.uipBuf = t.uip.uipBuf := rfl

theorem asked_net : (t.initAppdata.setLen n).net = t.net := rfl

theorem asked_packetstate : (t.initAppdata.setLen n).packetstate = t.packetstate := rfl

theorem asked_len : (t.initAppdata.setLen n).uip.uipLen = n := rfl

theorem asked_addresses : Uip.SameAddresses t.uip (t.initAppdata.setLen n).uip := ⟨rfl, rfl, rfl, rfl⟩

theorem asked_table : (t.initAppdata.setLen n).uip.arpTable = t.uip.arpTable := rfl

end

section
variable (t : System) (g : Uip → Uip)

theorem mapUip_uip : (t.mapUip g).uip = g t.uip := rfl

theorem mapUip_net : (t.mapUip g).net = t.net := rfl

theorem mapUip_packetstate : (t.mapUip g).packetstate = t.packetstate := rfl

end

/-- What `uip_process` leaves for the echo request `in_packet`. -/
def reply (s : System) : System := (s.loaded.initAppdata.setLen ((bytes s.request).be16 Offset.len)).icmpInput

theorem release_sent : s.release.net.sent = s.net.sent := by
  unfold release
  split <;> rfl

theorem fetched_addresses (size : Nat) (frame : List Byte) : Uip.SameAddresses s.uip (s.fetched size frame).uip :=
  ⟨rfl, rfl, rfl, rfl⟩

theorem fetched_uip (size : Nat) (frame : List Byte) (h : Handle) (g : Uip → Uip) :
    (((s.fetched size frame).setUipPacket h).mapUip g).uip = g (s.fetched size frame).uip := rfl

theorem fetched_sixBytes (heth : SixBytes s.uip) (size : Nat) (frame : List Byte) : SixBytes (s.fetched size frame).uip :=
  ⟨heth.1, heth.2⟩

theorem loaded_addresses : Uip.SameAddresses s.uip s.loaded.uip := by
  rw [loaded, fetched_uip]
  exact (fetched_addresses ..).trans (Uip.arpIpin_addresses _)

section
variable (b : Buf)

theorem memory_request : (s.mapBuf fun _ => b).request = s.request := rfl

theorem memory_net : (s.mapBuf fun _ => b).net = s.net := rfl

theorem memory_inPacket : (s.mapBuf fun _ => b).inPacket = s.inPacket := rfl

theorem memory_buf : (s.mapBuf fun _ => b).uip.uipBuf = b := rfl

theorem memory_addresses : Uip.SameAddresses s.uip (s.mapBuf fun _ => b).uip := ⟨rfl, rfl, rfl, rfl⟩

theorem memory_table {size : Nat} {frame : List Byte}
    (hsrc : Buf.be32 (store b 0 frame) Offset.srcipaddr = Buf.be32 (store s.uip.uipBuf 0 frame) Offset.srcipaddr)
    (heth : Buf.ethaddr (store b 0 frame) Offset.ethSrc = Buf.ethaddr (store s.uip.uipBuf 0 frame) Offset.ethSrc) :
    ((s.mapBuf fun _ => b).fetched size frame).uip.arpIpin.arpTable = (s.fetched size frame).uip.arpIpin.arpTable :=
  Uip.arpIpin_table (u := (s.fetched size frame).uip) (b := store b 0 frame) hsrc heth

end

theorem loaded_sixBytes (heth : SixBytes s.uip) : SixBytes s.loaded.uip := by
  rw [loaded, fetched_uip]
  exact Uip.arpIpin_sixBytes (fetched_sixBytes heth ..)

section
variable (hin : s.inPacket = UIP_RECEIVEBUFFERHANDLE) (hsize : s.net.receivePkt.size ≤ MAX_FRAMELEN)
  (hreq : EchoRequest s.uip s.request)
include hin hsize hreq

theorem request_fits : UIP_LLH_LEN + (bytes s.request).be16 Offset.len ≤ MAX_FRAMELEN :=
  hreq.length.trans (request_length hin hsize ▸ hsize)

theorem loaded_headers : Buf.Agree (bytes s.request) s.loaded.uip.uipBuf 0 (UIP_LLH_LEN + UIP_IPH_LEN + UIP_ICMPH_LEN) := by
  have hshort : UIP_LLH_LEN + UIP_IPH_LEN + UIP_ICMPH_LEN ≤ min UIP_BUFSIZE s.request.length := by
    refine Nat.le_min.mpr ⟨by decide, hreq.length.trans' ?_⟩
    rw [Nat.add_assoc]
    exact Nat.add_le_add_left hreq.header _
  exact fun i hi hlt => (loaded_request hin hsize).1 i hi (Nat.lt_of_lt_of_le hlt hshort)

theorem uipInput_reply : s.loaded.uipInput = some s.reply := by
  have hagree := loaded_headers hin hsize hreq
  have hlow : UIP_LLH_LEN = 14 := rfl
  have hmax : MAX_FRAMELEN = 1500 := rfl
  have hfits := request_fits hin hsize hreq
  have hlen : s.loaded.uip.uipBuf.be16 Offset.len = (bytes s.request).be16 Offset.len := hagree.be16 (Nat.zero_le _) (by decide)
  have hblock : s.net.blockSize s.inPacket = s.request.length := by
    rw [request_length hin hsize, hin]
    rfl
  rw [reply, ← hlen]
  refine uipInput_icmp ?_ ?_ ?_ ?_ ?_ ?_
  · rw [hagree _ (Nat.zero_le _) (by decide), hreq.vhl]
  · have hwhole := hreq.length
    rw [loaded_len, hlen, hblock, sub16_eq (by omega) (by rw [request_length hin hsize]; omega)]
    omega
  · rw [hagree.be16 (Nat.zero_le _) (by decide), hreq.whole]
  · rw [loaded_addresses.hostaddr, hagree.be32 (Nat.zero_le _) (by decide)]
    exact hreq.address
  · rw [Uip.ipchksum_eq, load_agree hagree (Nat.zero_le _) (by decide)]
    exact hreq.ipchksum
  · rw [hagree _ (Nat.zero_le _) (by decide), hreq.proto]

theorem reply_answered :
    Answered (s.loaded.initAppdata.setLen ((bytes s.request).be16 Offset.len)) s.reply := by
  have hagree := loaded_headers hin hsize hreq
  refine icmpInput_answered ?_
  rw [asked_buf, hagree _ (Nat.zero_le _) (by decide), hreq.type]

theorem reply_state : s.reply.net = s.net ∧ s.reply.packetstate = UIPETHERNET_FREEPACKET ∧
    s.reply.uip.uipLen = (bytes s.request).be16 Offset.len ∧ Uip.SameAddresses s.uip s.reply.uip ∧
    s.reply.uip.arpTable = s.loaded.uip.arpTable := by
  have hanswer := reply_answered hin hsize hreq
  refine ⟨?_, ?_, hanswer.len.trans (asked_len ..), (loaded_addresses.trans (asked_addresses ..)).trans hanswer.addresses,
    hanswer.table.trans (asked_table ..)⟩
  · rw [hanswer.only.net, asked_net, loaded_net]
  · rw [hanswer.only.packetstate, asked_packetstate, loaded_packetstate]

theorem tickInput_reply : s.tickInput = ((s.reply.mapUip Uip.arpOut).networkSend).map fun x => x.1.release := by
  have hblock : s.net.blockSize s.inPacket = s.request.length := by
    rw [request_length hin hsize, hin]
    rfl
  have hpos : 0 < (bytes s.request).be16 Offset.len := Nat.lt_of_lt_of_le (by decide) hreq.header
  have htype : s.loaded.uip.uipBuf.be16 Offset.ethType = UIP_ETHTYPE_IP := by
    rw [(loaded_headers hin hsize hreq).be16 (Nat.zero_le _) (by decide), hreq.ethType]
  rw [tickInput_loaded (by rw [hin]; decide) (by have := hreq.length; omega) htype, uipInput_reply hin hsize hreq,
    Option.bind_some, sendOut, if_pos ((reply_state hin hsize hreq).2.2.1.symm ▸ hpos), Option.bind_eq_bind]
  cases (s.reply.mapUip Uip.arpOut).networkSend with
  | none => rfl
  | some x => rfl

/-- The reply is sent if the address is known and there is a block for it. -/
theorem replies_iff (heth : SixBytes s.uip) : s.Replies f ↔ Resolved s.reply.uip ∧
    s.net.Sendable (UIP_LLH_LEN + (bytes s.request).be16 Offset.len) ∧
    f = load s.reply.uip.arpOut.uipBuf 0 (UIP_LLH_LEN + (bytes s.request).be16 Offset.len) := by
  have hlow : UIP_LLH_LEN = 14 := rfl
  have hmax : MAX_FRAMELEN = 1500 := rfl
  have hm : MEMORY_SIZE = 8192 := rfl
  have harp : UIP_ARPHDRSIZE = 42 := rfl
  have hfits := request_fits hin hsize hreq
  obtain ⟨hnet, hstate, hlen, haddr, htable⟩ := reply_state hin hsize hreq
  have hsix : SixBytes s.reply.uip := by
    rw [SixBytes, htable, haddr.ethaddr]
    exact ⟨heth.1, (loaded_sixBytes heth).2⟩
  have hset : ¬has (s.reply.mapUip Uip.arpOut).packetstate UIPETHERNET_SENDPACKET := by
    rw [mapUip_packetstate, hstate]
    decide
  have htick : s.Replies f ↔ (∃ t' ok r, (s.reply.mapUip Uip.arpOut).networkSend = some (t', ok) ∧
      t'.net.sent = (f, r) :: (s.reply.mapUip Uip.arpOut).net.sent) ∧ frameType f = UIP_ETHTYPE_IP := by
    rw [mapUip_net, hnet, Replies, tickInput_reply hin hsize hreq]
    constructor
    · rintro ⟨s', r, h, hsent, htype⟩
      obtain ⟨⟨t', ok⟩, hrun, rfl⟩ := Option.map_eq_some_iff.mp h
      exact ⟨⟨t', ok, r, hrun, release_sent ▸ hsent⟩, htype⟩
    · rintro ⟨⟨t', ok, r, hrun, hsent⟩, htype⟩
      exact ⟨t'.release, r, Option.map_eq_some_iff.mpr ⟨_, hrun, rfl⟩, release_sent.trans hsent, htype⟩
  have htype : ∀ b : Buf, ∀ n, UIP_LLH_LEN ≤ n → frameType (load b 0 n) = b.be16 Offset.ethType := fun b n hn => by
    have h := frameType_load b hn []
    rwa [List.append_nil] at h
  rw [htick]
  by_cases hres : Resolved s.reply.uip
  · obtain ⟨hout, hip, -⟩ := arpOut_resolved hres hsix 0
    rw [hlen, add16_eq (by omega), Nat.add_comm] at hout
    rw [networkSend_copied hset (by rw [mapUip_uip, hout]; omega), mapUip_uip, mapUip_net, hout, hnet]
    constructor
    · rintro ⟨⟨hroom, rfl⟩, -⟩
      exact ⟨hres, hroom, rfl⟩
    · rintro ⟨-, hroom, rfl⟩
      exact ⟨⟨hroom, rfl⟩, (htype _ _ (Nat.le_add_right _ _)).trans hip⟩
  · obtain ⟨hout, hrequest⟩ := arpOut_unresolved hres
    rw [networkSend_copied hset (by rw [mapUip_uip, hout]; omega), mapUip_uip, hout]
    constructor
    · rintro ⟨⟨-, rfl⟩, hip⟩
      rw [htype _ _ (by decide), hrequest] at hip
      exact absurd hip (by decide)
    · rintro ⟨hres', -⟩
      exact absurd hres' hres

/-- What is not rewritten comes from `uip_buf` as `tick` filled it. -/
theorem replied_kept (heth : SixBytes s.uip) (h : s.Replies f) :
    f.length = UIP_LLH_LEN + (bytes s.request).be16 Offset.len ∧
      ∀ i < f.length, ¬EchoRequest.Rewritten i → f.getD i 0 = s.loaded.uip.uipBuf i := by
  obtain ⟨hres, -, rfl⟩ := (replies_iff hin hsize hreq heth).mp h
  obtain ⟨-, -, -, haddr, htable⟩ := reply_state hin hsize hreq
  have hsix : SixBytes s.reply.uip := by
    rw [SixBytes, htable, haddr.ethaddr]
    exact ⟨heth.1, (loaded_sixBytes heth).2⟩
  refine ⟨load_length, fun i hi hkept => ?_⟩
  obtain ⟨-, htype, hagree⟩ := arpOut_resolved hres hsix (i + 1)
  rw [load_length] at hi
  rw [List.getD_eq_getElem?_getD, List.getElem?_eq_getElem (by rwa [load_length]), Option.getD_some, load_getElem, Nat.zero_add]
  by_cases hhead : i < UIP_LLH_LEN
  · -- the type is that of an IP packet in both
    have hloaded : s.loaded.uip.uipBuf.be16 Offset.ethType = UIP_ETHTYPE_IP := by
      rw [(loaded_headers hin hsize hreq).be16 (Nat.zero_le _) (by decide), hreq.ethType]
    obtain ⟨hfirst, hsecond⟩ := Buf.be16_inj (htype.trans hloaded.symm)
    have hcase : i = Offset.ethType ∨ i = Offset.ethType + 1 := by
      have hlow : UIP_LLH_LEN = 14 := rfl
      simp only [EchoRequest.Rewritten, Offset.ethType] at hkept ⊢
      omega
    obtain rfl | rfl := hcase
    · exact hfirst
    · exact hsecond
  · have hbehind : Offset.ethType ≤ i := Nat.le_of_not_lt fun hlt => hkept (.inl hlt)
    rw [hagree i (Nat.le_of_not_lt hhead) (Nat.lt_succ_self i), (reply_answered hin hsize hreq).kept i hbehind hkept, asked_buf]

theorem replied_returned (heth : SixBytes s.uip) (h : s.Replies f)
    (hfits : UIP_LLH_LEN + (bytes s.request).be16 Offset.len ≤ UIP_BUFSIZE) : EchoRequest.Returned s.request f := by
  obtain ⟨hlen, hkept⟩ := replied_kept hin hsize hreq heth h
  refine ⟨hlen, fun i hi hr => ?_⟩
  have hlt : i < min UIP_BUFSIZE s.request.length := by
    rw [hlen] at hi
    exact Nat.lt_min.mpr ⟨Nat.lt_of_lt_of_le hi hfits, Nat.lt_of_lt_of_le hi hreq.length⟩
  rw [hkept i hi hr, (loaded_request hin hsize).1 i (Nat.zero_le i) hlt]
  rfl

omit hin hsize in
theorem request_memory (b : Buf) :
    EchoRequest (s.mapBuf fun _ => b).uip (s.mapBuf fun _ => b).request := by
  rw [memory_request]
  exact ⟨hreq.ethType, hreq.vhl, hreq.length, hreq.header, hreq.whole, hreq.address, hreq.ipchksum, hreq.proto, hreq.type⟩

theorem loaded_memory (b : Buf) : Buf.Agree s.loaded.uip.uipBuf (s.mapBuf fun _ => b).loaded.uip.uipBuf 0
    (UIP_LLH_LEN + UIP_IPH_LEN + UIP_ICMPH_LEN) := by
  have h₁ := loaded_headers hin hsize hreq
  have h₂ := loaded_headers (s := s.mapBuf fun _ => b) hin hsize (request_memory hreq b)
  rw [memory_request] at h₂
  exact fun i hi hlt => (h₂ i hi hlt).trans (h₁ i hi hlt).symm

theorem loaded_table (b : Buf) : (s.mapBuf fun _ => b).loaded.uip.arpTable = s.loaded.uip.arpTable := by
  have hagree := loaded_memory hin hsize hreq b
  rw [loaded_buf, loaded_buf, memory_net, memory_inPacket, memory_buf] at hagree
  rw [loaded, loaded, fetched_uip, fetched_uip, memory_net, memory_inPacket]
  generalize s.net.readPacket s.inPacket 0 UIP_BUFSIZE = frame at hagree ⊢
  generalize s.net.blockSize s.inPacket = size
  refine memory_table b ?_ ?_
  · exact hagree.be32 (Nat.zero_le _) (by decide)
  · exact load_agree hagree (Nat.zero_le _) (by decide)

/-- The reply is sent whatever the memory holds. -/
theorem replies_memory (heth : SixBytes s.uip) (h : s.Replies f) (b : Buf) : ∃ f', (s.mapBuf fun _ => b).Replies f' := by
  have hreq' := request_memory hreq b
  obtain ⟨hres, hroom, -⟩ := (replies_iff hin hsize hreq heth).mp h
  have hiff := fun f' => replies_iff (s := s.mapBuf fun _ => b) (f := f') hin hsize hreq' heth
  refine ⟨_, (hiff _).mpr ⟨?_, ?_, rfl⟩⟩
  · have haddr := (reply_state hin hsize hreq).2.2.2
    have haddr' := (reply_state (s := s.mapBuf fun _ => b) hin hsize hreq').2.2.2
    have hsame := (memory_addresses b).trans haddr'.1
    have hdest : (s.mapBuf fun _ => b).reply.uip.uipBuf.be32 Offset.destipaddr = s.reply.uip.uipBuf.be32 Offset.destipaddr := by
      rw [(reply_answered (s := s.mapBuf fun _ => b) hin hsize hreq').dest, (reply_answered hin hsize hreq).dest, asked_buf,
        asked_buf, (loaded_memory hin hsize hreq b).be32 (Nat.zero_le _) (by decide)]
    rw [Resolved, hdest, haddr'.2, loaded_table hin hsize hreq, hsame.netmask, hsame.hostaddr, hsame.draddr]
    rwa [Resolved, haddr.2, haddr.1.netmask, haddr.1.hostaddr, haddr.1.draddr] at hres
  · rw [memory_request]
    exact hroom

end

theorem tickInput_fetch (h : s.fetch.inPacket ≠ NOBLOCK) : s.fetch.tickInput = s.tickInput := by
  simp only [tickInput]
  generalize hf : (if s.inPacket = NOBLOCK then (s.setNet s.net.receivePacket.1).setInPacket s.net.receivePacket.2
    else s) = t
  have hfetch : s.fetch = t := hf
  rw [hfetch] at h ⊢
  rw [if_neg h]

theorem receivePacket_sent (e : Enc28J60Network) : e.receivePacket.1.sent = e.sent := by
  unfold receivePacket
  split
  · dsimp only
    split <;> rfl
  · rfl

theorem receivePacket_blocks (e : Enc28J60Network) : e.receivePacket.1.blocks = e.blocks := by
  unfold receivePacket
  split
  · dsimp only
    split <;> rfl
  · rfl

theorem fetch_uip : s.fetch.uip = s.uip := by
  unfold fetch
  split <;> rfl

theorem fetch_sent : s.fetch.net.sent = s.net.sent := by
  unfold fetch
  split
  · exact receivePacket_sent s.net
  · rfl

theorem fetch_memory (b : Buf) : (s.mapBuf fun _ => b).fetch = s.fetch.mapBuf fun _ => b := by
  rw [fetch, fetch, memory_inPacket]
  split <;> rfl

theorem fetch_replies (h : s.fetch.inPacket ≠ NOBLOCK) : s.fetch.Replies f ↔ s.Replies f := by
  rw [Replies, Replies, tickInput_fetch h, fetch_sent]

/-- An echo request is returned, whatever lies in memory, exactly if it fits
into `uip_buf`. -/
theorem echo_returned (hin : s.fetch.inPacket = UIP_RECEIVEBUFFERHANDLE) (hsize : s.fetch.net.receivePkt.size ≤ MAX_FRAMELEN)
    (heth : SixBytes s.uip) (hreq : EchoRequest s.uip s.fetch.request) (hsent : ∃ f, s.Replies f) :
    (∀ b f, (s.mapBuf fun _ => b).Replies f → EchoRequest.Returned s.fetch.request f) ↔
      UIP_LLH_LEN + (bytes s.fetch.request).be16 Offset.len ≤ UIP_BUFSIZE := by
  have hne : s.fetch.inPacket ≠ NOBLOCK := by
    rw [hin]
    decide
  have hmemory : ∀ b f, (s.mapBuf fun _ => b).Replies f ↔ (s.fetch.mapBuf fun _ => b).Replies f := fun b f => by
    rw [← fetch_memory, fetch_replies]
    rwa [fetch_memory]
  rw [← fetch_uip] at heth hreq
  simp only [hmemory]
  obtain ⟨f, hsent⟩ := hsent
  rw [← fetch_replies hne] at hsent
  generalize s.fetch = t at hin hsize heth hreq hsent
  constructor
  · intro hall
    by_contra hlong
    -- the first byte behind uip_buf is not that of the request
    obtain ⟨b, hb⟩ : ∃ b : Buf, ∀ i, b i = t.request.getD i 0 + 1 := ⟨_, fun _ => rfl⟩
    obtain ⟨f', hsent'⟩ := replies_memory hin hsize hreq heth hsent b
    obtain ⟨hlen, hkept⟩ := replied_kept (s := t.mapBuf fun _ => b) hin hsize (request_memory hreq b) heth hsent'
    have hbehind : UIP_BUFSIZE < f'.length := by
      rw [hlen, memory_request]
      exact Nat.lt_of_not_le hlong
    have hfixed : ¬EchoRequest.Rewritten UIP_BUFSIZE := by
      unfold EchoRequest.Rewritten
      decide
    have hforeign := hkept _ hbehind hfixed
    rw [(loaded_request (s := t.mapBuf fun _ => b) hin hsize).2 _ (Nat.le_refl _), memory_buf, hb,
      (hall b f' hsent').kept _ hbehind hfixed] at hforeign
    have hother : ∀ x : Byte, x ≠ x + 1 := by decide
    exact hother _ hforeign
  · intro hfits b f' hsent'
    exact replied_returned (s := t.mapBuf fun _ => b) hin hsize (request_memory hreq b) heth hsent' hfits

/-- An echo request with `n` bytes of data. -/
def ping (n : Nat) (icmpchksum : List Byte) : List Byte :=
  [1, 2, 3, 4, 5, 6, 6, 5, 4, 3, 2, 1, 8, 0] ++
  [0x45, 0, 0, BitVec.ofNat 8 (28 + n), 0, 0, 0, 0, 64, 1, 0x66, BitVec.ofNat 8 (223 - n), 10, 0, 0, 2, 10, 0, 0, 1] ++
  [8, 0] ++ icmpchksum ++ [0, 1, 0, 1] ++ List.replicate n 0x61

instance (u : Uip) (frame : List Byte) : Decidable (EchoRequest u frame) :=
  decidable_of_iff (_ ∧ _ ∧ _ ∧ _ ∧ _ ∧ (_ → _) ∧ _ ∧ _ ∧ _)
    ⟨fun ⟨h₁, h₂, h₃, h₄, h₅, h₆, h₇, h₈, h₉⟩ => ⟨h₁, h₂, h₃, h₄, h₅, h₆, h₇, h₈, h₉⟩,
      fun ⟨h₁, h₂, h₃, h₄, h₅, h₆, h₇, h₈, h₉⟩ => ⟨h₁, h₂, h₃, h₄, h₅, h₆, h₇, h₈, h₉⟩⟩

/-- The echo request that has come in and its reply. -/
def Pinged (s : System) (reply : List Byte) : Prop :=
  s.fetch.inPacket = UIP_RECEIVEBUFFERHANDLE ∧ s.fetch.net.receivePkt.size ≤ MAX_FRAMELEN ∧ SixBytes s.uip ∧
    EchoRequest s.uip s.fetch.request ∧ s.Replies reply

theorem pinged_of {P : List Byte → Bool} (h : (s.tickInput.bind fun s' => s'.net.sent.head?.map fun x => decide
    ((s.fetch.inPacket = UIP_RECEIVEBUFFERHANDLE ∧ s.fetch.net.receivePkt.size ≤ MAX_FRAMELEN ∧ SixBytes s.uip ∧
      EchoRequest s.uip s.fetch.request) ∧
      s'.net.sent = (x.1, x.2) :: s.net.sent ∧ frameType x.1 = UIP_ETHTYPE_IP ∧ P x.1)) = some true) :
    ∃ reply, Pinged s reply ∧ P reply := by
  obtain ⟨s', htick, h⟩ := Option.bind_eq_some_iff.mp h
  obtain ⟨x, -, h⟩ := Option.map_eq_some_iff.mp h
  obtain ⟨⟨hin, hsize, heth, hreq⟩, hsent, htype, hreply⟩ := of_decide_eq_true h
  exact ⟨x.1, ⟨hin, hsize, heth, hreq, s', x.2, htick, hsent, htype⟩, hreply⟩

/-- The configured library, and a frame that arrives. -/
def pinging (frame : List Byte) : System :=
  ((System.init (fun _ => 0) [⟨true, []⟩] [1, 2, 3, 4, 5, 6] 0).configure 0x0a000001 0 0xff000000).arrive (ringOf frame) 1

theorem echo_returned_example : ∃ f, (pinging (ping 18 [0x8b, 0x91])).Replies f ∧
    EchoRequest.Returned (pinging (ping 18 [0x8b, 0x91])).fetch.request f := by
  obtain ⟨f, ⟨hin, hsize, heth, hreq, hsent⟩, hfits⟩ : ∃ f, Pinged (pinging (ping 18 [0x8b, 0x91])) f ∧
      decide (UIP_LLH_LEN + (bytes (pinging (ping 18 [0x8b, 0x91])).fetch.request).be16 Offset.len ≤ UIP_BUFSIZE) :=
    pinged_of (P := fun _ => _) (by decide +kernel)
  exact ⟨f, hsent, (echo_returned hin hsize heth hreq ⟨f, hsent⟩).mpr (of_decide_eq_true hfits) _ f hsent⟩

/-- Of 100 bytes the reply to the last two is what lies behind `uip_buf`. -/
theorem echo_returned_fails : ∃ f, Pinged (pinging (ping 58 [0xef, 0xf5])) f ∧
    ¬EchoRequest.Returned (pinging (ping 58 [0xef, 0xf5])).fetch.request f := by
  obtain ⟨f, hping, hforeign⟩ := pinged_of (s := pinging (ping 58 [0xef, 0xf5])) (P := fun f => decide (98 < f.length ∧
    f.getD 98 0 ≠ (pinging (ping 58 [0xef, 0xf5])).fetch.request.getD 98 0)) (by decide +kernel)
  obtain ⟨hlen, hforeign⟩ := of_decide_eq_true hforeign
  exact ⟨f, hping, fun h => hforeign (h.kept 98 hlen (by unfold EchoRequest.Rewritten; decide))⟩

end System

end UIPEthernet
