import UIPEthernet.UIPEthernetClass.Settings
import UIPEthernet.UIPEthernetClass.FrameLength
import UIPEthernet.UIPUdp.Reading

/-!
# The arrival of a datagram

What `tick` does is made of the steps of an object's mailbox, as long as no TCP
connection is open and no packet waits to be sent. So what is proved of the
programs that read over `Ticks` holds of them over the turns of `tick`.
-/

namespace UIPEthernet

open Enc28J60Network Lib

namespace System

open UIPUDP TcpState

variable {s s' s₁ : System} {i : Fin UIP_UDP_CONNS} {k : Nat} {payload : List Byte} {m : Mailbox}

/-- Sockets, connections and the contents of the blocks are left alone. -/
structure Aloof (s s' : System) : Prop where
  sockets : s'.sockets = s.sockets
  conns : s'.uipConns = s.uipConns
  valid : s.net.Valid → s'.net.Valid
  view : s'.net.view = s.net.view

theorem Aloof.trans (h : Aloof s s₁) (h' : Aloof s₁ s') : Aloof s s' :=
  ⟨h'.sockets.trans h.sockets, h'.conns.trans h.conns, h'.valid ∘ h.valid, h'.view.trans h.view⟩

theorem OnlyUip.aloof (h : OnlyUip s s') : Aloof s s' := by
  refine ⟨h.sockets, h.uipConns, fun hv => ?_, ?_⟩
  all_goals rw [h.net]
  exact hv

theorem BufSent.aloof {frames : List (List Byte × Bool)} (h : BufSent s s' frames) : Aloof s s' :=
  ⟨by rw [h.same], by rw [h.same], fun _ => h.changed.valid, h.changed.view⟩

theorem Aloof.ticks (h : Aloof s s') (hv : s.net.Valid) : Ticks k s s' := by
  have hothers : Others [(s.sockets k).appdata.packetIn, (s.sockets k).appdata.packetNext] s.net s'.net := by
    refine ⟨h.valid hv, .allocBlock 0, .handle NOBLOCK, ?_, fun _ _ _ he => by cases he⟩
    rw [h.view]
    exact .exhausted
  have helse : Elsewhere k s s' := ⟨by rw [h.sockets], by rw [h.sockets], hothers⟩
  exact .one ⟨.other helse, trivial⟩ rfl

theorem receivePacket_ram (e : Enc28J60Network) : e.receivePacket.1.ram = e.ram := by
  unfold receivePacket
  split
  · dsimp only
    split <;> rfl
  · rfl

theorem net_aloof {net : Enc28J60Network} {h : Handle} (hblocks : net.blocks = s.net.blocks) (hram : net.ram = s.net.ram) :
    Aloof s ((s.setNet net).setInPacket h) := by
  have hnet : ((s.setNet net).setInPacket h).net = net := rfl
  refine ⟨rfl, rfl, ?_, ?_⟩
  · rw [hnet, Enc28J60Network.Valid, Enc28J60Network.Valid, hblocks]
    exact id
  · funext j
    rw [hnet, Enc28J60Network.view, Enc28J60Network.view, hblocks, hram]

theorem fetch_aloof : Aloof s s.fetch := by
  unfold fetch
  split
  · exact net_aloof (receivePacket_blocks s.net) (receivePacket_ram s.net)
  · exact ⟨rfl, rfl, id, rfl⟩

theorem release_aloof : Aloof s s.release := by
  unfold release
  split
  · exact net_aloof rfl rfl
  · exact ⟨rfl, rfl, id, rfl⟩

theorem fetched_rest (s : System) (size : Nat) (frame : List Byte) (h : Handle) (f : Uip → Uip) :
    (((s.fetched size frame).setUipPacket h).mapUip f).sockets = s.sockets ∧
    (((s.fetched size frame).setUipPacket h).mapUip f).uipConns = s.uipConns ∧
    (((s.fetched size frame).setUipPacket h).mapUip f).inPacket = s.inPacket := ⟨rfl, rfl, rfl⟩

theorem loaded_aloof (s : System) : Aloof s s.loaded := by
  refine ⟨(fetched_rest ..).1, (fetched_rest ..).2.1, fun hv => ?_, ?_⟩
  all_goals rw [loaded_net]
  exact hv

theorem loaded_inPacket (s : System) : s.loaded.inPacket = s.inPacket := (fetched_rest ..).2.2

-- ---------------------------------------------------------------------------
-- The input of a datagram
-- ---------------------------------------------------------------------------

theorem newdata_uip (hflags : s.uip.uipFlags = UIP_NEWDATA) (h : uipudpAppcall s i = some s') : s'.uip = s.uip := by
  unfold uipudpAppcall at h
  split at h
  · cases h
    rfl
  · obtain ⟨s₁, hreceived, h⟩ := Option.bind_eq_some_iff.mp h
    cases h
    have huip : s₁.uip = s.uip := by
      unfold UIPUDP.received at hreceived
      split at hreceived
      · exact (queue_uip hreceived).trans rfl
      · cases hreceived
        rfl
    rw [polled_newdata (huip ▸ hflags), huip]

/-- A datagram goes to the callback, or nowhere, and is not answered. -/
structure Delivered (s s' : System) : Prop where
  len : s'.uip.uipLen = 0
  call : OnlyUip s s' ∨ ∃ s₁ s₂ i, OnlyUip s s₁ ∧ s₁.uip.uipBuf = s.uip.uipBuf ∧ s₁.uip.uipFlags = UIP_NEWDATA ∧
    (List.finRange UIP_UDP_CONNS).find? (fun i => udpMatches s₁.uip.uipBuf (s₁.uipUdpConns i)) = some i ∧
    uipudpAppcall s₁ i = some s₂ ∧ OnlyUip s₂ s'

theorem Delivered.drop (h : OnlyUip s s₁) : Delivered s s₁.drop := ⟨rfl, .inl (h.trans drop_only)⟩

theorem udpSend_none (hslen : s.uip.uipSlen = 0) (h : s.udpSend i = some s') : s' = s.drop := by
  rw [udpSend, if_pos hslen] at h
  exact (Option.some.inj h).symm

theorem udpInput_delivered (hpre : OnlyUip s₁ s) (hbuf : s.uip.uipBuf = s₁.uip.uipBuf) (h : s.udpInput = some s') :
    Delivered s₁ s' := by
  simp only [udpInput, Option.bind_eq_bind, Option.pure_def] at h
  have hpre' := (hpre.trans (setLen_only (sub16 s.uip.uipLen UIP_IPUDPH_LEN))).trans
    (setAppdata_only (UIP_LLH_LEN + UIP_IPUDPH_LEN))
  have hbuf' : ((s.setLen (sub16 s.uip.uipLen UIP_IPUDPH_LEN)).setAppdata (UIP_LLH_LEN + UIP_IPUDPH_LEN)).uip.uipBuf =
      s₁.uip.uipBuf := (s.input_buf _ _).trans hbuf
  generalize (s.setLen (sub16 s.uip.uipLen UIP_IPUDPH_LEN)).setAppdata (UIP_LLH_LEN + UIP_IPUDPH_LEN) = t at h hpre' hbuf'
  split at h <;> obtain ⟨sum, -, h⟩ := Option.bind_eq_some_iff.mp h
  all_goals
    split at h
    · cases h
      exact .drop hpre'
    · split at h
      · cases h
        exact .drop hpre'
      · rename_i i hmatch
        obtain ⟨s₂, hcall, h⟩ := Option.bind_eq_some_iff.mp h
        have huip : s₂.uip = ((t.setFlags UIP_NEWDATA).setSlen 0).uip := newdata_uip rfl hcall
        obtain rfl := udpSend_none (by rw [huip]; rfl) h
        exact ⟨rfl, .inr ⟨(t.setFlags UIP_NEWDATA).setSlen 0, s₂, i, (hpre'.trans (setFlags_only _)).trans (setSlen_only _),
          hbuf', rfl, hmatch, hcall, drop_only⟩⟩

theorem uipInput_delivered (hproto : s.uip.uipBuf Offset.proto = UIP_PROTO_UDP) (h : s.uipInput = some s') : Delivered s s' := by
  rcases uipInput_udp hproto h with ⟨t, hpre, rfl⟩ | ⟨-, hudp⟩
  · exact .drop hpre
  · exact udpInput_delivered ((setAppdata_only _).trans (setLen_only _))
      ((setLen_buf _ _).trans (setAppdata_buf _ _)) hudp

/-- The frame in `uip_buf` is a datagram for the connection of the object. -/
structure ForObject (s : System) (k : Nat) (payload : List Byte) : Prop where
  data : Datagram s payload
  proto : s.uip.uipBuf Offset.proto = UIP_PROTO_UDP
  conn : ∀ i, (List.finRange UIP_UDP_CONNS).find? (fun i => udpMatches s.uip.uipBuf (s.uipUdpConns i)) = some i →
    (s.uipUdpConns i).appstate = some k

theorem ForObject.only (h : ForObject s k payload) (honly : OnlyUip s s₁) (hbuf : s₁.uip.uipBuf = s.uip.uipBuf) :
    ForObject s₁ k payload := by
  refine ⟨⟨?_, ?_, ?_, h.data.nonempty, ?_⟩, ?_, ?_⟩
  · rw [honly.inPacket]
    exact h.data.handle
  · rw [honly.net]
    exact h.data.begin
  · rw [hbuf]
    exact h.data.udplen
  · rw [honly.net]
    exact h.data.bytes
  · rw [hbuf]
    exact h.proto
  · rw [hbuf, honly.uipUdpConns]
    exact h.conn

theorem Delivered.ticks (h : Delivered s s') (hk : UIPUDP.Keeps s k m) (hfor : ForObject s k payload)
    (hone : InOnePiece s payload.length) : Ticks k s s' := by
  rcases h.call with honly | ⟨s₁, s₂, i, hpre, hbuf, hflags, hfind, hcall, hpost⟩
  · exact honly.aloof.ticks hk.valid
  · have hfor₁ := hfor.only hpre hbuf
    have hticks : Ticks k s s₁ := hpre.aloof.ticks hk.valid
    have hone₁ : InOnePiece s₁ payload.length := by
      rw [InOnePiece, hpre.net]
      exact hone
    have harrive : TickStep k s₁ (.arrive payload (room s₁ payload.length)) s₂ :=
      ⟨.arrive (hfor₁.conn i hfind) hflags hfor₁.data hcall, fun _ _ => hone₁⟩
    have hticks₂ : Ticks k s s₂ := hticks.trans (.one harrive rfl)
    obtain ⟨m₂, hk₂, -⟩ := hticks₂.keeps hk
    exact hticks₂.trans (hpost.aloof.ticks hk₂.valid)

-- ---------------------------------------------------------------------------
-- tick
-- ---------------------------------------------------------------------------

/-- Nothing but the arrival of frames keeps `tick` busy: no TCP connection is
open, and no object has a packet that is to be sent. -/
structure Idle (s : System) : Prop where
  conns : ∀ c, (s.uipConns c).tcpstateflags = UIP_CLOSED
  sockets : ∀ j, (s.sockets j).appdata.send = false

theorem Idle.aloof (hi : Idle s) (h : Aloof s s') : Idle s' := by
  refine ⟨?_, ?_⟩
  · rw [h.conns]
    exact hi.conns
  · rw [h.sockets]
    exact hi.sockets

theorem queue_send {size j : Nat} (h : queue s k size = some s') :
    (s'.sockets j).appdata.send = (s.sockets j).appdata.send := by
  have hmap : ∀ net b, (((s.setNet net).mapAppdata k fun data => { data with packetNext := b }).sockets j).appdata.send =
      (s.sockets j).appdata.send := by
    intro net b
    by_cases hj : j = k
    · rw [hj, mapAppdata_appdata, setNet_sockets]
    · rw [mapAppdata_other _ hj, setNet_sockets]
  simp only [queue, Option.bind_eq_bind, Option.pure_def] at h
  obtain ⟨⟨net, b⟩, -, h⟩ := Option.bind_eq_some_iff.mp h
  split at h
  · cases h
    exact hmap net b
  · obtain ⟨net', -, h⟩ := Option.bind_eq_some_iff.mp h
    cases h
    exact hmap net b

theorem Idle.appcall (hi : Idle s) (h : uipudpAppcall s i = some s') : Idle s' := by
  refine ⟨?_, fun j => ?_⟩
  · rw [(udpAppcall_unmoved h).conns]
    exact hi.conns
  · unfold uipudpAppcall at h
    split at h
    · cases h
      exact hi.sockets j
    · obtain ⟨s₁, hreceived, h⟩ := Option.bind_eq_some_iff.mp h
      cases h
      rw [polled_sockets]
      unfold UIPUDP.received at hreceived
      split at hreceived
      · rw [queue_send hreceived]
        exact hi.sockets j
      · cases hreceived
        exact hi.sockets j

theorem Idle.delivered (hi : Idle s) (h : Delivered s s') : Idle s' := by
  rcases h.call with honly | ⟨s₁, s₂, i, hpre, -, -, -, hcall, hpost⟩
  · exact hi.aloof honly.aloof
  · exact ((hi.aloof hpre.aloof).appcall hcall).aloof hpost.aloof

/-- What `tick` finds in the ring is nothing, no IP packet, or a datagram for the
object that does not pass the end of the ring. -/
inductive Incoming (s : System) (k : Nat) : Prop
  | nothing (hin : s.fetch.inPacket = NOBLOCK)
  | other (htype : s.fetch.frameBuf.be16 Offset.ethType ≠ UIP_ETHTYPE_IP)
  | datagram (payload : List Byte) (hsize : 0 < s.fetch.net.receivePkt.size)
      (htype : s.fetch.loaded.uip.uipBuf.be16 Offset.ethType = UIP_ETHTYPE_IP)
      (hfor : ForObject s.fetch.loaded k payload) (hone : InOnePiece s.fetch.loaded payload.length)

theorem sendOut_none (hlen : s.uip.uipLen = 0) (h : s.sendOut = some s') : s' = s := by
  rw [sendOut, if_neg (by rw [hlen]; exact Nat.lt_irrefl 0)] at h
  exact (Option.some.inj h).symm

/-- An ARP packet, or anything else that is no IP packet. -/
theorem tickInput_aloof (hv : s.net.Valid) (htype : s.fetch.frameBuf.be16 Offset.ethType ≠ UIP_ETHTYPE_IP)
    (h : s.tickInput = some s') : Aloof s s' := by
  rcases tickInput_handled h with ⟨-, rfl⟩ | ⟨s₁, -, hhandled, rfl⟩
  · exact fetch_aloof
  · have hset : ∀ n, Aloof s.fetch ((s.fetch.setPacketstate UIPETHERNET_FREEPACKET).setLen n) := fun n => ⟨rfl, rfl, id, rfl⟩
    have hstart := fetch_aloof.trans (hset (s.fetch.net.blockSize s.fetch.inPacket))
    refine Aloof.trans ?_ release_aloof
    cases hhandled with
    | scratch h => exact hstart.trans h.aloof
    | packet s₂ s₃ _ hbuf _ _ hip =>
      rw [hbuf] at hip
      exact absurd hip htype
    | reply s₂ ok hpre hsend hlen =>
      have hstart₂ := hstart.trans hpre.aloof
      have hunset : ¬has s₂.packetstate UIPETHERNET_SENDPACKET := by
        rw [hpre.packetstate]
        exact (by decide : ¬has UIPETHERNET_FREEPACKET UIPETHERNET_SENDPACKET)
      obtain ⟨s₃, ok', frames, hrun, hbuf, -⟩ := networkSend_buf (hstart₂.valid hv) hunset (by rw [hlen]; decide)
      obtain ⟨rfl, -⟩ := Prod.mk.inj (Option.some.inj (hsend.symm.trans hrun))
      exact hstart₂.trans hbuf.aloof

/-- The first half of `tick`. -/
theorem tickInput_ticks (hi : Idle s) (hk : UIPUDP.Keeps s k m) (hin : Incoming s k) (h : s.tickInput = some s') :
    Ticks k s s' ∧ Idle s' := by
  cases hin with
  | nothing hin =>
    rcases tickInput_handled h with ⟨-, rfl⟩ | ⟨s₁, hsome, -⟩
    · exact ⟨fetch_aloof.ticks hk.valid, hi.aloof fetch_aloof⟩
    · exact absurd hin hsome
  | other htype =>
    have haloof := tickInput_aloof hk.valid htype h
    exact ⟨haloof.ticks hk.valid, hi.aloof haloof⟩
  | datagram payload hsize htype hfor hone =>
    have hin : s.fetch.inPacket = UIP_RECEIVEBUFFERHANDLE := (loaded_inPacket _).symm.trans hfor.data.handle
    have hsome : s.fetch.inPacket ≠ NOBLOCK := by
      rw [hin]
      decide
    have hblock : 0 < s.fetch.net.blockSize s.fetch.inPacket := by
      rw [hin]
      exact hsize
    rw [← tickInput_fetch hsome, tickInput_loaded hsome hblock htype] at h
    obtain ⟨s₂, hcalled, rfl⟩ := Option.map_eq_some_iff.mp h
    obtain ⟨s₁, hinput, hsend⟩ := Option.bind_eq_some_iff.mp hcalled
    have hdelivered := uipInput_delivered hfor.proto hinput
    obtain rfl := sendOut_none hdelivered.len hsend
    have hloaded := fetch_aloof.trans (loaded_aloof s.fetch)
    have hload : Ticks k s s.fetch.loaded := hloaded.ticks hk.valid
    obtain ⟨m₁, hk₁, -⟩ := hload.keeps hk
    have hticks : Ticks k s s₂ := hload.trans (hdelivered.ticks hk₁ hfor hone)
    obtain ⟨m₂, hk₂, -⟩ := hticks.keeps hk
    exact ⟨hticks.trans (release_aloof.ticks hk₂.valid), ((hi.aloof hloaded).delivered hdelivered).aloof release_aloof⟩

theorem tickConn_only {now nullTimer : BitVec 32} {periodic : Bool} {c : Fin UIP_CONNS} (hi : Idle s)
    (h : s.tickConn now nullTimer periodic c = some s') : OnlyUip s s' := by
  have hclosed := hi.conns c
  simp only [tickConn, Option.bind_eq_bind, Option.pure_def] at h
  split at h
  · obtain ⟨s₁, htimer, hsend⟩ := Option.bind_eq_some_iff.mp h
    have hpre : OnlyUip s (((s.initAppdata.incIss).setLen 0).setSlen 0) := rfl
    have hstate : ((((s.initAppdata.incIss).setLen 0).setSlen 0).uipConns c).tcpstateflags = UIP_CLOSED := hclosed
    simp only [uipTimer] at htimer
    rw [hstate, if_neg (by decide), if_pos rfl] at htimer
    cases htimer
    obtain rfl := sendOut_none rfl hsend
    exact hpre.trans drop_only
  · split at h
    · obtain ⟨s₁, hpoll, hsend⟩ := Option.bind_eq_some_iff.mp h
      have hstate : (s.initAppdata.uipConns c).tcpstateflags = UIP_CLOSED := hclosed
      simp only [uipPoll] at hpoll
      rw [hstate, if_neg fun h => absurd h.1 (by decide)] at hpoll
      cases hpoll
      obtain rfl := sendOut_none rfl hsend
      exact (setAppdata_only _).trans drop_only
    · cases h
      exact .refl s

theorem tickUdp_only (hi : Idle s) (h : s.tickUdp i = some s') : OnlyUip s s' := by
  have hpoll : ∀ {s₁ : System}, s.uipUdpTimer i = some s₁ → OnlyUip s s₁ ∧ s₁.uip.uipLen = 0 := by
    intro s₁ htimer
    simp only [uipUdpTimer, Option.bind_eq_bind] at htimer
    split at htimer
    · have hpre : OnlyUip s ((((s.setAppdata (UIP_LLH_LEN + UIP_IPUDPH_LEN)).setLen 0).setSlen 0).setFlags UIP_POLL) := rfl
      generalize ht : (((s.setAppdata (UIP_LLH_LEN + UIP_IPUDPH_LEN)).setLen 0).setSlen 0).setFlags UIP_POLL = t at htimer hpre
      obtain ⟨s₂, hcall, hsend⟩ := Option.bind_eq_some_iff.mp htimer
      have hsame : s₂ = t := by
        unfold uipudpAppcall at hcall
        split at hcall
        · exact (Option.some.inj hcall).symm
        · rename_i j _
          have hflags : ¬has t.uip.uipFlags UIP_NEWDATA := by
            rw [← ht]
            exact (by decide : ¬has UIP_POLL UIP_NEWDATA)
          have hunsent : (t.sockets j).appdata.send = false := by
            rw [hpre.sockets]
            exact hi.sockets j
          simp only [UIPUDP.received, if_neg fun h : has t.uip.uipFlags UIP_NEWDATA ∧ _ => hflags h.1, Option.bind_eq_bind,
            Option.bind_some, Option.pure_def, Option.some.injEq] at hcall
          rw [← hcall, polled, if_neg fun h => absurd h.2 (by rw [hunsent]; decide)]
      have hslen : s₂.uip.uipSlen = 0 := by
        rw [hsame, ← ht]
        rfl
      rw [udpSend_none hslen hsend]
      exact ⟨hsame ▸ hpre.trans drop_only, rfl⟩
    · cases htimer
      exact ⟨(setAppdata_only _).trans drop_only, rfl⟩
  simp only [tickUdp, Option.bind_eq_bind, Option.pure_def] at h
  obtain ⟨s₁, htimer, h⟩ := Option.bind_eq_some_iff.mp h
  obtain ⟨honly, hlen⟩ := hpoll htimer
  rw [if_neg (by rw [hlen]; exact Nat.lt_irrefl 0)] at h
  exact Option.some.inj h ▸ honly

/-- A whole `tick` of a system that only takes datagrams is what the programs
that read them expect between their calls. -/
theorem tick_ticks {now : BitVec 32} {nullTimer : Fin UIP_CONNS → BitVec 32} (hi : Idle s) (hk : UIPUDP.Keeps s k m)
    (hin : Incoming s k) (h : s.tick now nullTimer = some s') : Ticks k s s' ∧ Idle s' := by
  simp only [tick, Option.bind_eq_bind, Option.pure_def] at h
  obtain ⟨s₁, hinput, h⟩ := Option.bind_eq_some_iff.mp h
  obtain ⟨s₂, hconns, h⟩ := Option.bind_eq_some_iff.mp h
  obtain ⟨hticks, hi₁⟩ := tickInput_ticks hi hk hin hinput
  obtain ⟨m₁, hk₁, -⟩ := hticks.keeps hk
  have h₂ : Aloof s₁ s₂ := by
    have hrun : Run (fun t c t' => t.tickConn now (nullTimer c) (due now s₁.periodicTimer) c = some t') s₁ _ s₂ :=
      .of_foldlM (g := id) (fun ht => ht) hconns
    exact hrun.invariant (I := Aloof s₁) (fun ht hstep => ht.trans (tickConn_only (hi₁.aloof ht) hstep).aloof) ⟨rfl, rfl, id, rfl⟩
  have h₃ : Aloof s₁ s' := by
    split at h
    · have hrearm : Aloof s₁ { s₂ with periodicTimer := now + UIP_PERIODIC_TIMER } := h₂.trans ⟨rfl, rfl, id, rfl⟩
      have hrun : Run (fun t i t' => t.tickUdp i = some t') { s₂ with periodicTimer := now + UIP_PERIODIC_TIMER } _ s' :=
        .of_foldlM (g := id) (fun ht => ht) h
      exact hrun.invariant (I := Aloof s₁) (fun ht hstep => ht.trans (tickUdp_only (hi₁.aloof ht) hstep).aloof) hrearm
    · cases h
      exact h₂
  exact ⟨hticks.trans (h₃.ticks hk₁.valid), hi₁.aloof h₃⟩

/-- A socket listens on port 7, and a datagram for it is in the ring. -/
def receiver : System :=
  { ((System.init (fun _ => 0) [] [1, 2, 3, 4, 5, 6] 0).configure 0x0a000001 0 0xff000000).arrive (ringOf (datagramFrame 9)) 1 with
    uipUdpConns := fun i => if i = 0 then ⟨0, htons 7, 0, 64, some 0⟩ else ⟨0, 0, 0, 0, none⟩ }

example : ∃ s' : System, receiver.tick 0 (fun _ => 0) = some s' ∧
    (s'.sockets 0).appdata.packetNext ≠ NOBLOCK ∧ Ticks 0 receiver s' := by
  have hcompute : ((receiver.tick 0 fun _ => 0).map fun s' => decide ((s'.sockets 0).appdata.packetNext ≠ NOBLOCK ∧
      0 < receiver.fetch.net.receivePkt.size ∧ receiver.fetch.loaded.uip.uipBuf.be16 Offset.ethType = UIP_ETHTYPE_IP ∧
      receiver.fetch.loaded.uip.uipBuf Offset.proto = UIP_PROTO_UDP ∧
      receiver.fetch.loaded.net.receivePkt.begin + UIP_UDP_PHYH_LEN + 1 ≤ RXSTOP_INIT + 1 ∧
      receiver.fetch.loaded.inPacket = UIP_RECEIVEBUFFERHANDLE ∧ receiver.fetch.loaded.net.receivePkt.begin ≤ RXSTOP_INIT ∧
      receiver.fetch.loaded.uip.uipBuf.be16 Offset.udplen = UIP_UDPH_LEN + 1 ∧
      ringBytes receiver.fetch.loaded.net.ram (receiver.fetch.loaded.net.receivePkt.begin + UIP_UDP_PHYH_LEN) 1 = [9] ∧
      ∀ i, udpMatches receiver.fetch.loaded.uip.uipBuf (receiver.fetch.loaded.uipUdpConns i) →
        (receiver.fetch.loaded.uipUdpConns i).appstate = some 0)) = some true := by
    decide +kernel
  obtain ⟨s', hrun, hcompute⟩ := Option.map_eq_some_iff.mp hcompute
  obtain ⟨hnext, hsize, htype, hproto, hone, hhandle, hbegin, hudplen, hbytes, hconn⟩ := of_decide_eq_true hcompute
  have hvalid : receiver.net.Valid := init_valid (fun _ => 0) []
  have hk : UIPUDP.Keeps receiver 0 Mailbox.empty := ⟨hvalid, .inl ⟨rfl, rfl⟩, .inl ⟨rfl, rfl⟩, fun hne => absurd rfl hne⟩
  have hidle : Idle receiver := ⟨fun _ => rfl, fun _ => rfl⟩
  have hfor : ForObject receiver.fetch.loaded 0 [9] := by
    refine ⟨⟨hhandle, hbegin, hudplen, List.cons_ne_nil _ _, hbytes⟩, hproto, fun i hi => ?_⟩
    have hmatch := List.find?_some hi
    exact hconn i hmatch
  exact ⟨s', hrun, hnext, (tick_ticks hidle hk (.datagram [9] hsize htype hfor hone) hrun).1⟩

-- ---------------------------------------------------------------------------
-- Programs that read
-- ---------------------------------------------------------------------------

/-- The ring is below the pool. -/
theorem arrive_aloof (ring : List Byte) (frames : Nat) (hv : s.net.Valid) : Aloof s (s.arrive ring frames) := by
  refine ⟨rfl, rfl, fun h => h, ?_⟩
  obtain ⟨l, hw⟩ := hv
  funext j
  refine view_congr Iff.rfl fun hlive => load_congr fun n _ => store_outside (.inr ?_)
  have hbegin := hw.le_begin (hw.mem_iff.mpr hlive)
  have hring : (ring.take (RXSTOP_INIT + 1)).length ≤ RXSTOP_INIT + 1 := List.length_take_le _ _
  have hpool : RXSTART_INIT + (RXSTOP_INIT + 1) ≤ MEMPOOL_STARTADDRESS := by decide
  exact (Nat.add_le_add_left hring _).trans (hpool.trans (hbegin.trans (Nat.le_add_right _ _)))

/-- Frames arrive, and `tick` runs on what it finds. -/
def Receives (k : Nat) (s s' : System) : Prop :=
  ∃ ring frames now nullTimer, Incoming (s.arrive ring frames) k ∧ (s.arrive ring frames).tick now nullTimer = some s'

theorem Receives.ticks (hi : Idle s) {rest : List Byte} (hleft : HasLeft k s rest) (h : Receives k s s') :
    Ticks k s s' ∧ Idle s' := by
  obtain ⟨ring, frames, now, nullTimer, hin, h⟩ := h
  obtain ⟨m, hk, -⟩ := hleft
  have haloof := arrive_aloof ring frames hk.valid
  have hticks : Ticks k s (s.arrive ring frames) := haloof.ticks hk.valid
  obtain ⟨m₁, hk₁, -⟩ := hticks.keeps hk
  obtain ⟨hticks₁, hi₁⟩ := tick_ticks (hi.aloof haloof) hk₁ hin h
  exact ⟨hticks.trans hticks₁, hi₁⟩

theorem before_ticks {op : UdpCall} {rest : List Byte} (hi : Idle s) (hleft : HasLeft k s rest)
    (h : UIPUDP.Before (Receives k) s op s') : UIPUDP.Before (Ticks k) s op s' ∧ Idle s' := by
  rw [UIPUDP.Before] at h ⊢
  split at h
  · rename_i hop
    rw [if_pos hop]
    exact h.ticks hi hleft
  · rename_i hop
    rw [if_neg hop]
    exact ⟨h, h ▸ hi⟩

theorem Idle.acts {clock : Clock} {op : UdpCall} {x : op.Answer} (hi : Idle s) (hop : op.reads) (h : Acts clock k s op x s') : Idle s' := by
  have hdrop : ∀ (net : Enc28J60Network) (f : UdpUserdata → UdpUserdata), (∀ data, (f data).send = data.send) →
      Idle ((s.setNet net).mapAppdata k f) := by
    intro net f hf
    refine ⟨hi.conns, fun j => ?_⟩
    by_cases hj : j = k
    · rw [hj, mapAppdata_appdata, hf]
      exact hi.sockets k
    · rw [mapAppdata_other _ hj]
      exact hi.sockets j
  cases op with
  | available => exact h.1 ▸ hi
  | read len =>
    have hread : UIPUDP.read s k len = some (s', x) := h
    simp only [UIPUDP.read, Option.bind_eq_bind, Option.pure_def] at hread
    split at hread
    · cases hread
      exact hi
    · split at hread
      · obtain ⟨net, -, hread⟩ := Option.bind_eq_some_iff.mp hread
        cases hread
        exact hdrop net _ fun _ => rfl
      · cases hread
        exact ⟨hi.conns, hi.sockets⟩
  | flush =>
    have hflush : UIPUDP.flush s k = some s' := h
    simp only [UIPUDP.flush, Option.bind_eq_bind, Option.pure_def] at hflush
    obtain ⟨net, -, hflush⟩ := Option.bind_eq_some_iff.mp hflush
    cases hflush
    exact hdrop net _ fun _ => rfl
  | _ => cases hop

/-- What a program that only reads does over the turns of `tick` is what it does
over `Ticks`. -/
theorem exec_ticks {α : Type} {clock : Clock} {p : UdpProg α} {a : α} {rest : List Byte} (hi : Idle s) (hleft : HasLeft k s rest)
    (honly : p.OnlyReads) (h : Prog.Exec (Calls (Receives k) clock k) p s a s') : Prog.Exec (Calls (Ticks k) clock k) p s a s' := by
  induction h generalizing rest with
  | done => exact .done
  | call hstep _ ih =>
    cases honly with
    | call hop hnext =>
      obtain ⟨s₀, hbefore, hact⟩ := hstep
      obtain ⟨hticks, hi₀⟩ := before_ticks hi hleft hbefore
      obtain ⟨rest₁, -, hleft₁⟩ := hact.onMessage hop (hleft.before hticks)
      exact .call ⟨s₀, hticks, hact⟩ (ih (hi₀.acts hop hact) hleft₁ (hnext _))

end System

end UIPEthernet
