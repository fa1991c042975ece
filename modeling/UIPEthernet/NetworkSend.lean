import UIPEthernet.UIPEthernetClass
import UIPEthernet.Headers.Frame
import UIPEthernet.Enc28J60Network.Sending
import UIPEthernet.Enc28J60Network.Sizes

/-!
# network_send

Its two halves: the packet in the block `uip_packet`, which is given back once
it is sent, and the headers in `uip_buf`, which go through a block of their own.
-/

namespace UIPEthernet

namespace Enc28J60Network

open Lib

variable {e : Enc28J60Network} {h : Handle} {c header : List Byte}

/-- The frame of a block whose first bytes are overwritten. -/
def withHeader (header c : List Byte) : List Byte :=
  header ++ (c.drop (UIP_SENDBUFFER_OFFSET + header.length)).take
    (c.length - (UIP_SENDBUFFER_OFFSET + UIP_SENDBUFFER_PADDING) - header.length)

theorem frameOf_header (hlen : header.length + (UIP_SENDBUFFER_OFFSET + UIP_SENDBUFFER_PADDING) ≤ c.length) :
    frameOf (splice c UIP_SENDBUFFER_OFFSET header) = withHeader header c := by
  have ho : UIP_SENDBUFFER_OFFSET = 1 := rfl
  have hsplice : (splice c UIP_SENDBUFFER_OFFSET header).length = c.length := splice_length (by omega)
  rw [frameOf, hsplice, splice, withHeader, List.append_assoc, List.drop_left' (by simp; omega),
    List.take_append, List.take_of_length_le (by omega)]

theorem withHeader_all (hlen : c.length = header.length + (UIP_SENDBUFFER_OFFSET + UIP_SENDBUFFER_PADDING)) :
    withHeader header c = header := by
  rw [withHeader, hlen]
  simp

section
variable (e : Enc28J60Network) (h : Handle) (position : Nat) (buffer : List Byte)

theorem writePacket_ram : ∃ ram, (e.writePacket h position buffer).1 = { e with ram } := ⟨_, rfl⟩

@[simp] theorem writePacket_transmissions :
    (e.writePacket h position buffer).1.transmissions = e.transmissions := by
  obtain ⟨ram, hram⟩ := writePacket_ram e h position buffer
  rw [hram]

@[simp] theorem writePacket_sent : (e.writePacket h position buffer).1.sent = e.sent := by
  obtain ⟨ram, hram⟩ := writePacket_ram e h position buffer
  rw [hram]

@[simp] theorem writePacket_receivePkt :
    (e.writePacket h position buffer).1.receivePkt = e.receivePkt := by
  obtain ⟨ram, hram⟩ := writePacket_ram e h position buffer
  rw [hram]

@[simp] theorem writePacket_outcome : (e.writePacket h position buffer).1.outcome = e.outcome := by
  rw [outcome, outcome, writePacket_transmissions]

end

/-- The headers are written into the block, and it is sent. -/
theorem writeSend_ok (header : List Byte) (hv : e.Valid) (hc : e.view h = some c)
    (hlen : header.length + (UIP_SENDBUFFER_OFFSET + UIP_SENDBUFFER_PADDING) ≤ c.length) :
    ∃ e' d, (e.writePacket h UIP_SENDBUFFER_OFFSET header).1.sendPacket h = (e', e.outcome) ∧
      Changed e e' (Function.update e.view h (some d)) ∧ d.length = c.length ∧
      frameOf d = withHeader header c ∧ e'.sent = (withHeader header c, e.outcome) :: e.sent ∧
      e'.receivePkt = e.receivePkt := by
  have ho : UIP_SENDBUFFER_OFFSET = 1 := rfl
  obtain ⟨-, hch₁⟩ := writePacket_ok hv hc (show UIP_SENDBUFFER_OFFSET ≤ c.length by omega) header
  rw [List.take_of_length_le (by omega)] at hch₁
  let e₁ := (e.writePacket h UIP_SENDBUFFER_OFFSET header).1
  have hview₁ : e₁.view h = some (splice c UIP_SENDBUFFER_OFFSET header) := by
    rw [hch₁.view, Function.update_self]
  have hl₁ : (splice c UIP_SENDBUFFER_OFFSET header).length = c.length := splice_length (by omega)
  obtain ⟨e₂, d, hsent, hs⟩ := sendPacket_ok hch₁.valid hview₁ (by omega)
  have hframe : frameOf (splice c UIP_SENDBUFFER_OFFSET header) = withHeader header c := frameOf_header hlen
  have hch₂ := hch₁.trans hs.changed
  rw [hch₁.view, Function.update_idem] at hch₂
  rw [writePacket_outcome] at hsent
  refine ⟨e₂, d, hsent, hch₂, hs.length.trans hl₁, hs.frame.trans hframe, ?_, ?_⟩
  · rw [hs.sent, hframe, writePacket_outcome, writePacket_sent]
  · rw [hs.same, writePacket_receivePkt]

theorem writeSend_blocks {net : Enc28J60Network} {position : Nat} {ok : Bool}
    (hsent : (e.writePacket h position c).1.sendPacket h = (net, ok)) : net.blocks = e.blocks := by
  have hblocks := sendPacket_blocks (e.writePacket h position c).1 h
  rw [hsent, writePacket_blocks] at hblocks
  exact hblocks

/-- There is a block for a packet of `n` bytes. -/
def Sendable (e : Enc28J60Network) (n : Nat) : Prop :=
  ∃ net h net', e.allocBlock (add16 n (UIP_SENDBUFFER_OFFSET + UIP_SENDBUFFER_PADDING)) = some (net, h) ∧
    h ≠ NOBLOCK ∧ net.freeBlock h = some net'

end Enc28J60Network

namespace System

open Enc28J60Network Lib

variable {s : System} {c : List Byte}

theorem has_clear (x : BitVec 8) :
    has (x &&& ~~~UIPETHERNET_SENDPACKET) UIPETHERNET_SENDPACKET = false := by
  revert x; decide

theorem has_set (x : BitVec 8) : has (x ||| UIPETHERNET_SENDPACKET) UIPETHERNET_SENDPACKET := by
  revert x; decide

/-- The frame of a packet in a block: the headers of `uip_buf`, and the block's
bytes behind the room for them. -/
def packetFrame (s : System) (c : List Byte) : List Byte := withHeader (load s.uip.uipBuf 0 s.uipHdrlen) c

/-- What `network_send` does with a packet in a block. -/
structure PacketSent (s : System) (c : List Byte) (s' : System) (d : List Byte) : Prop where
  changed : Changed s.net s'.net
    (Function.update s.net.view s.uipPacket (if s.net.outcome then none else some d))
  length : d.length = c.length
  frame : frameOf d = packetFrame s c
  sent : s'.net.sent = (packetFrame s c, s.net.outcome) :: s.net.sent
  receivePkt : s'.net.receivePkt = s.net.receivePkt
  same : s' = { s with
    net := s'.net, uipPacket := if s.net.outcome then NOBLOCK else s.uipPacket
    packetstate := s.packetstate &&& ~~~UIPETHERNET_SENDPACKET }

/-- The system behind `sendPacket` of the block `uip_packet`. -/
def packetSent (s : System) (net : Enc28J60Network) : System :=
  (s.setNet net).setPacketstate (s.packetstate &&& ~~~UIPETHERNET_SENDPACKET)

theorem networkSend_eq {net : Enc28J60Network} {ok : Bool}
    (hsend : has s.packetstate UIPETHERNET_SENDPACKET)
    (hsent : (s.net.writePacket s.uipPacket UIP_SENDBUFFER_OFFSET
      (load s.uip.uipBuf 0 s.uipHdrlen)).1.sendPacket s.uipPacket = (net, ok)) :
    s.networkSend = if ok then (net.freeBlock s.uipPacket).bind fun net =>
      some ((s.packetSent net).setUipPacket NOBLOCK, true) else some (s.packetSent net, false) := by
  simp only [networkSend, if_pos hsend, hsent]
  cases ok with
  | false => rfl
  | true => rfl

theorem networkSend_alloc {net net' : Enc28J60Network} {b : Handle} {ok : Bool}
    (hset : ¬has s.packetstate UIPETHERNET_SENDPACKET)
    (halloc : s.net.allocBlock (add16 s.uip.uipLen (UIP_SENDBUFFER_OFFSET + UIP_SENDBUFFER_PADDING)) = some (net, b))
    (hb : b ≠ NOBLOCK)
    (hsent : (net.writePacket b UIP_SENDBUFFER_OFFSET (load s.uip.uipBuf 0 s.uip.uipLen)).1.sendPacket b = (net', ok)) :
    s.networkSend = (net'.freeBlock b).bind fun e =>
      some ((((s.setNet net).setUipPacket b).setNet e).setUipPacket NOBLOCK, ok) := by
  have hnet : ((s.setNet net).setUipPacket b).net = net := rfl
  have huip : ((s.setNet net).setUipPacket b).uip = s.uip := rfl
  simp only [networkSend, if_neg hset, halloc, Option.bind_eq_bind, Option.bind_some, if_neg hb, hnet, huip, hsent,
    Option.pure_def]

theorem networkSend_packet (hv : s.net.Valid) (hsend : has s.packetstate UIPETHERNET_SENDPACKET)
    (hc : s.net.view s.uipPacket = some c)
    (hlen : s.uipHdrlen + (UIP_SENDBUFFER_OFFSET + UIP_SENDBUFFER_PADDING) ≤ c.length) :
    ∃ s' d, s.networkSend = some (s', s.net.outcome) ∧ PacketSent s c s' d := by
  obtain ⟨net, d, hrun, hch, hlen, hframe, hsent, hpkt⟩ := writeSend_ok
    (load s.uip.uipBuf 0 s.uipHdrlen) hv hc (by rwa [load_length])
  have heq := networkSend_eq hsend hrun
  cases hcase : s.net.outcome with
  | false =>
    rw [hcase] at heq hsent
    refine ⟨s.packetSent net, d, heq, ?_, hlen, hframe, ?_, hpkt, ?_⟩
    · rw [hcase]
      exact hch
    · rw [hcase]
      exact hsent
    · rw [hcase]
      rfl
  | true =>
    obtain ⟨net', hfree, hch', hsame⟩ := freeBlock_ok hch.valid s.uipPacket
    rw [hcase, if_pos rfl, hfree, Option.bind_some] at heq
    rw [hch.view, Function.update_idem] at hch'
    rw [hcase] at hsent
    have hsent' : net'.sent = net.sent := by rw [hsame]
    have hpkt' : net'.receivePkt = net.receivePkt := by rw [hsame]
    refine ⟨_, d, heq, ?_, hlen, hframe, ?_, hpkt'.trans hpkt, ?_⟩
    · rw [hcase]
      exact hch.trans hch'
    · rw [hcase]
      exact hsent'.trans hsent
    · rw [hcase]
      rfl

/-- What `network_send` does with the headers in `uip_buf`. -/
structure BufSent (s s' : System) (frames : List (List Byte × Bool)) : Prop where
  changed : Changed s.net s'.net s.net.view
  sent : s'.net.sent = frames ++ s.net.sent
  receivePkt : s'.net.receivePkt = s.net.receivePkt
  same : s' = { s with net := s'.net, uipPacket := NOBLOCK }

theorem networkSend_buf (hv : s.net.Valid) (hsend : ¬has s.packetstate UIPETHERNET_SENDPACKET)
    (hlen : s.uip.uipLen + (UIP_SENDBUFFER_OFFSET + UIP_SENDBUFFER_PADDING) < 65536) :
    ∃ s' ok frames, s.networkSend = some (s', ok) ∧ BufSent s s' frames ∧
      (frames = [] ∨ frames = [(load s.uip.uipBuf 0 s.uip.uipLen, ok)]) := by
  have ho : UIP_SENDBUFFER_OFFSET = 1 := rfl
  let frame := load s.uip.uipBuf 0 s.uip.uipLen
  have hl : frame.length = s.uip.uipLen := load_length
  obtain ⟨net, h, halloc, hres, hnet⟩ := allocBlock_ok hv
    (show 1 ≤ s.uip.uipLen + (UIP_SENDBUFFER_OFFSET + UIP_SENDBUFFER_PADDING) by omega)
  have hpkt : net.receivePkt = s.net.receivePkt := by rw [hnet]
  have hsent : net.sent = s.net.sent := by rw [hnet]
  cases hres with
  | failed _ hch =>
    refine ⟨(s.setNet net).setUipPacket NOBLOCK, false, [], ?_, ⟨hch, hsent, hpkt, rfl⟩, .inl rfl⟩
    simp only [networkSend, if_neg hsend, add16_eq hlen, halloc, Option.bind_eq_bind, Option.bind_some, if_true,
      Option.pure_def]
  | @placed _ c _ hfresh hsize hch =>
    have hview : net.view h = some c := by rw [hch.view, Function.update_self]
    obtain ⟨net₁, d, hrun₁, hch₁, -, -, hsent₁, hpkt₁⟩ := writeSend_ok frame hch.valid hview
      (by omega)
    obtain ⟨net₂, hfree, hch₂, hsame⟩ := freeBlock_ok hch₁.valid h
    have hall : withHeader frame c = frame := withHeader_all (by omega)
    have hsent₂ : net₂.sent = net₁.sent := by rw [hsame]
    have hpkt₂ : net₂.receivePkt = net₁.receivePkt := by rw [hsame]
    -- the block is gone again
    have hch' : Changed s.net net₂ s.net.view := by
      have h' := hch.trans (hch₁.trans hch₂)
      rwa [hch₁.view, hch.view, Function.update_idem, Function.update_idem,
        Function.update_eq_self_iff.mpr hfresh.symm] at h'
    refine ⟨((s.setNet net).setUipPacket h |>.setNet net₂).setUipPacket NOBLOCK, net.outcome,
      [(frame, net.outcome)], ?_, ⟨hch', ?_, hpkt₂.trans (hpkt₁.trans hpkt), rfl⟩, .inr rfl⟩
    · rw [networkSend_alloc hsend (add16_eq hlen ▸ halloc) (view_ne hview).1 hrun₁, hfree, Option.bind_some]
    · show net₂.sent = _
      rw [hsent₂, hsent₁, hall, hsent]
      rfl

-- ---------------------------------------------------------------------------
-- The pool behind network_send
-- ---------------------------------------------------------------------------

/-- The pool behind `network_send`. -/
theorem networkSend_cases {s' : System} {ok : Bool} (h : s.networkSend = some (s', ok)) :
    (has s.packetstate UIPETHERNET_SENDPACKET ∧
      ∃ net, (s.net.writePacket s.uipPacket UIP_SENDBUFFER_OFFSET (load s.uip.uipBuf 0 s.uipHdrlen)).1.sendPacket
        s.uipPacket = (net, ok) ∧ if ok then net.freeBlock s.uipPacket = some s'.net else s'.net = net) ∨
    (¬has s.packetstate UIPETHERNET_SENDPACKET ∧
      ∃ net b, s.net.allocBlock (add16 s.uip.uipLen (UIP_SENDBUFFER_OFFSET + UIP_SENDBUFFER_PADDING)) =
        some (net, b) ∧ if b = NOBLOCK then s'.net = net else
          ∃ net', (net.writePacket b UIP_SENDBUFFER_OFFSET (load s.uip.uipBuf 0 s.uip.uipLen)).1.sendPacket b =
            (net', ok) ∧ net'.freeBlock b = some s'.net) := by
  by_cases hset : has s.packetstate UIPETHERNET_SENDPACKET
  · refine .inl ⟨hset, ?_⟩
    obtain ⟨⟨net, r⟩, hsent⟩ : ∃ x, (s.net.writePacket s.uipPacket UIP_SENDBUFFER_OFFSET
      (load s.uip.uipBuf 0 s.uipHdrlen)).1.sendPacket s.uipPacket = x := ⟨_, rfl⟩
    rw [networkSend_eq hset hsent] at h
    cases r with
    | false =>
      cases h
      exact ⟨net, hsent, rfl⟩
    | true =>
      obtain ⟨net', hfree, h⟩ := Option.bind_eq_some_iff.mp h
      cases h
      exact ⟨net, hsent, hfree⟩
  · refine .inr ⟨hset, ?_⟩
    simp only [networkSend, if_neg hset, Option.bind_eq_bind, Option.pure_def] at h
    obtain ⟨⟨net, b⟩, halloc, h⟩ := Option.bind_eq_some_iff.mp h
    refine ⟨net, b, halloc, ?_⟩
    split at h
    · rename_i hb
      cases h
      rw [if_pos hb]
      rfl
    · rename_i hb
      obtain ⟨net', hfree, h⟩ := Option.bind_eq_some_iff.mp h
      cases h
      rw [if_neg hb]
      exact ⟨_, rfl, hfree⟩

/-- The frame that goes out of `uip_buf`. -/
theorem networkSend_copied {f : List Byte} (hset : ¬has s.packetstate UIPETHERNET_SENDPACKET)
    (hlen : s.uip.uipLen < MEMORY_SIZE) :
    (∃ s' ok r, s.networkSend = some (s', ok) ∧ s'.net.sent = (f, r) :: s.net.sent) ↔
      s.net.Sendable s.uip.uipLen ∧ f = load s.uip.uipBuf 0 s.uip.uipLen := by
  have hm : MEMORY_SIZE = 8192 := rfl
  have ho : UIP_SENDBUFFER_OFFSET + UIP_SENDBUFFER_PADDING = 8 := rfl
  let frame := load s.uip.uipBuf 0 s.uip.uipLen
  have hl : frame.length = s.uip.uipLen := load_length
  have hsize : add16 s.uip.uipLen (UIP_SENDBUFFER_OFFSET + UIP_SENDBUFFER_PADDING) =
      frame.length + (UIP_SENDBUFFER_OFFSET + UIP_SENDBUFFER_PADDING) := by
    rw [hl]
    exact add16_eq (by omega)
  have hfilled : ∀ {net : Enc28J60Network} {b : Handle},
      s.net.allocBlock (add16 s.uip.uipLen (UIP_SENDBUFFER_OFFSET + UIP_SENDBUFFER_PADDING)) = some (net, b) →
      b ≠ NOBLOCK →
      ∃ ok, ((net.writePacket b UIP_SENDBUFFER_OFFSET frame).1.sendPacket b).1.sent = (frame, ok) :: s.net.sent := by
    intro net b halloc hb
    have hnew := (allocBlock_new halloc hb).trans hsize
    rw [← allocBlock_sent halloc]
    exact sendPacket_filled frame hnew (by rw [hnew, hl]; omega) (by rw [hl]; omega)
  have hblocks : ∀ (net : Enc28J60Network) b,
      ((net.writePacket b UIP_SENDBUFFER_OFFSET frame).1.sendPacket b).1.blocks = net.blocks :=
    fun net b => (sendPacket_blocks _ b).trans (writePacket_blocks ..)
  constructor
  · rintro ⟨s', ok, r, h, hsent⟩
    obtain ⟨hset', -⟩ | ⟨-, net, b, halloc, hnet⟩ := networkSend_cases h
    · exact absurd hset' hset
    · split at hnet
      · rw [hnet, allocBlock_sent halloc] at hsent
        exact absurd hsent.symm (List.cons_ne_self _ _)
      · rename_i hb
        obtain ⟨net', hrun, hfree⟩ := hnet
        obtain ⟨r', hframe⟩ := hfilled halloc hb
        have hpool := hblocks net b
        rw [hrun] at hframe hpool
        rw [freeBlock_sent hfree, hframe] at hsent
        obtain ⟨e, he, -⟩ := freeBlock_congr hpool.symm hfree
        exact ⟨⟨net, b, e, halloc, hb, he⟩, (Prod.mk.inj (List.cons.inj hsent).1).1.symm⟩
  · rintro ⟨⟨net, b, net', halloc, hb, hfree⟩, rfl⟩
    obtain ⟨r, hframe⟩ := hfilled halloc hb
    have hpool := hblocks net b
    obtain ⟨⟨net₁, ok⟩, hrun⟩ : ∃ x, (net.writePacket b UIP_SENDBUFFER_OFFSET frame).1.sendPacket b = x := ⟨_, rfl⟩
    rw [hrun] at hframe hpool
    obtain ⟨e, hfree', hsent⟩ := freeBlock_congr hpool hfree
    refine ⟨(((s.setNet net).setUipPacket b).setNet e).setUipPacket NOBLOCK, ok, r, ?_, hsent.trans hframe⟩
    rw [networkSend_alloc hset halloc hb hrun, hfree', Option.bind_some]

/-- The length of the frame that `network_send` transmits. -/
def frameLength (s : System) : Nat :=
  if has s.packetstate UIPETHERNET_SENDPACKET
  then sub16 (s.net.blocks s.uipPacket).size (UIP_SENDBUFFER_OFFSET + UIP_SENDBUFFER_PADDING)
  else s.uip.uipLen % 65536

/-- `network_send` transmits one frame, or none if there is no block for it. -/
theorem networkSend_length {s' : System} {ok : Bool} (h : s.networkSend = some (s', ok)) :
    ∃ frames, s'.net.sent = frames ++ s.net.sent ∧ frames.length ≤ 1 ∧ ∀ f ∈ frames, f.1.length = s.frameLength := by
  rcases networkSend_cases h with ⟨hset, net, hsent, hnet⟩ | ⟨hset, net, b, halloc, hnet⟩
  · obtain ⟨frame, r, hframe, hlen⟩ := sendPacket_length (s.net.writePacket s.uipPacket UIP_SENDBUFFER_OFFSET
      (load s.uip.uipBuf 0 s.uipHdrlen)).1 s.uipPacket
    rw [hsent, writePacket_sent] at hframe
    rw [writePacket_blocks] at hlen
    refine ⟨[(frame, r)], ?_, Nat.le_refl 1, fun f hf => ?_⟩
    · split at hnet
      · exact (freeBlock_sent hnet).trans hframe
      · rw [hnet]
        exact hframe
    · rw [List.mem_singleton.mp hf, frameLength, if_pos hset]
      exact hlen
  · split at hnet
    · exact ⟨[], by rw [hnet, allocBlock_sent halloc]; rfl, Nat.zero_le 1, fun f hf => absurd hf List.not_mem_nil⟩
    · rename_i hb
      obtain ⟨net', hsent, hfree⟩ := hnet
      obtain ⟨frame, r, hframe, hlen⟩ := sendPacket_length (net.writePacket b UIP_SENDBUFFER_OFFSET
        (load s.uip.uipBuf 0 s.uip.uipLen)).1 b
      rw [hsent, writePacket_sent, allocBlock_sent halloc] at hframe
      rw [writePacket_blocks, allocBlock_new halloc hb] at hlen
      refine ⟨[(frame, r)], (freeBlock_sent hfree).trans hframe, Nat.le_refl 1, fun f hf => ?_⟩
      rw [List.mem_singleton.mp hf, frameLength, if_neg hset, ← hlen.symm]
      unfold sub16 add16
      omega

/-- A block stays as long as it is, unless it is the one that is sent. -/
theorem networkSend_size {s' : System} {ok : Bool} {j : Handle} (h : s.networkSend = some (s', ok))
    (hj : (s.net.blocks j).size ≠ 0) (hne : j ≠ NOBLOCK)
    (hkeep : has s.packetstate UIPETHERNET_SENDPACKET → ok = true → j ≠ s.uipPacket) :
    (s'.net.blocks j).size = (s.net.blocks j).size := by
  rcases networkSend_cases h with ⟨hset, net, hsent, hnet⟩ | ⟨hset, net, b, halloc, hnet⟩
  · split at hnet
    · rename_i hok
      rw [Enc28J60Network.freeBlock_size hnet (hkeep hset hok), writeSend_blocks hsent]
    · rw [hnet, writeSend_blocks hsent]
  · obtain ⟨hb, hsize⟩ := allocBlock_size halloc hj hne
    split at hnet
    · rw [hnet, hsize]
    · obtain ⟨net', hsent, hfree⟩ := hnet
      rw [Enc28J60Network.freeBlock_size hfree hb, writeSend_blocks hsent, hsize]

-- ---------------------------------------------------------------------------
-- What sending leaves alone
-- ---------------------------------------------------------------------------

/-- The pool, the scratch globals and the packet to send may change. -/
def OnlySent (s s' : System) : Prop :=
  { s with net := s'.net, uip := s'.uip, uipPacket := s'.uipPacket, packetstate := s'.packetstate } = s'

theorem OnlySent.trans (h : OnlySent s s') (h' : OnlySent s' s'') : OnlySent s s'' := by
  rw [OnlySent] at *
  rw [← h', ← h]

theorem OnlyUip.onlySent (h : OnlyUip s s') : OnlySent s s' := by
  rw [OnlySent, h.net, h.uipPacket, h.packetstate]
  exact h

theorem OnlySent.uipConns (h : OnlySent s s') : s'.uipConns = s.uipConns := by rw [← h]

theorem OnlySent.uipUdpConns (h : OnlySent s s') : s'.uipUdpConns = s.uipUdpConns := by rw [← h]

theorem OnlySent.allData (h : OnlySent s s') : s'.allData = s.allData := by rw [← h]

theorem OnlySent.sockets (h : OnlySent s s') : s'.sockets = s.sockets := by rw [← h]

theorem OnlySent.inPacket (h : OnlySent s s') : s'.inPacket = s.inPacket := by rw [← h]

theorem OnlySent.history (h : OnlySent s s') : s'.history = s.history := by rw [← h]

theorem networkSend_only {ok : Bool} (h : s.networkSend = some (s', ok)) : OnlySent s s' := by
  simp only [networkSend, Option.bind_eq_bind, Option.pure_def] at h
  split at h
  · split at h
    · obtain ⟨net, -, h⟩ := Option.bind_eq_some_iff.mp h
      cases h
      exact rfl
    · cases h
      exact rfl
  · obtain ⟨⟨net, k⟩, -, h⟩ := Option.bind_eq_some_iff.mp h
    split at h
    · cases h
      exact rfl
    · obtain ⟨net', -, h⟩ := Option.bind_eq_some_iff.mp h
      cases h
      exact rfl

theorem sendOut_only (h : s.sendOut = some s') : OnlySent s s' := by
  simp only [sendOut, Option.bind_eq_bind, Option.pure_def] at h
  split at h
  · obtain ⟨⟨s₁, ok⟩, hsend, h⟩ := Option.bind_eq_some_iff.mp h
    cases h
    have harp : OnlySent s (s.mapUip Uip.arpOut) := rfl
    exact harp.trans (networkSend_only hsend)
  · cases h
    exact rfl

-- ---------------------------------------------------------------------------
-- The checksum over a packet in a block
-- ---------------------------------------------------------------------------

/-- The length of the headers that `upper_layer_chksum` takes from `uip_buf`. -/
def upperLayerMemlen (s : System) (proto : Byte) : Nat :=
  if proto = UIP_PROTO_UDP then UIP_UDPH_LEN else ((s.uip.uipBuf Offset.tcpoffset) >>> 4).toNat * 4

theorem upperLayerChksum_ok (proto : Byte) (hv : s.net.Valid)
    (hsend : has s.packetstate UIPETHERNET_SENDPACKET) (hc : s.net.view s.uipPacket = some c)
    (hlen : UIP_IPH_LEN + UIP_LLH_LEN + UIP_SENDBUFFER_OFFSET + s.upperLayerMemlen proto < c.length) :
    ∃ sum, s.upperLayerChksum proto = some sum := by
  have hmemlen : s.upperLayerMemlen proto =
    if proto = UIP_PROTO_UDP then UIP_UDPH_LEN
    else ((s.uip.uipBuf Offset.tcpoffset) >>> 4).toNat * 4 := rfl
  simp only [upperLayerChksum, if_pos hsend, Option.bind_eq_bind, ← hmemlen]
  split
  · rename_i hdata
    obtain ⟨sum, hsum⟩ := chksum_ok hv hc hlen
      (show 1 ≤ sub16 (s.uip.uipBuf.be16 Offset.len) UIP_IPH_LEN - s.upperLayerMemlen proto by omega)
    rw [hsum]
    exact ⟨_, rfl⟩
  · exact ⟨_, rfl⟩

end System

end UIPEthernet
