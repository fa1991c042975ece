import UIPEthernet.UIPEthernetClass.FrameLength
import UIPEthernet.UIPEthernetClass.Steps

/-!
# The frames of a run

From `init` on, as long as no step leads the lengths apart.
-/

namespace UIPEthernet

open Enc28J60Network Lib

namespace System

open UIPClient UIPUDP Slot

variable {s s' : System} {data : Option (Fin UIP_CONNS)}

-- ---------------------------------------------------------------------------
-- The calls
-- ---------------------------------------------------------------------------

/-- A call of a `UIPClient` object. -/
theorem own_silent (hs : Settled s) (hown : Own data s s') (hkeeps : System.Keeps ofTcp s s') (hpaired : s'.tables.Paired) :
    Silent s s' := by
  refine .of_conns hown.conns ⟨hs.beside hkeeps.toRetains hpaired (fun _ => id) hown.sockets hown.udpConns ?_, hkeeps.sent⟩
  rw [hown.packetstate]
  exact hs.unset

theorem uipListen_only (port : Nat) : OnlyUip s (s.uipListen port) := by
  unfold uipListen
  split <;> exact rfl

/-- The lengths of what the piece sends are not led apart: a datagram that comes
in has payload, a segment goes out as it is offered, a socket has a port, and a
packet that is sent is not written any more and has payload. -/
def Fitting (s : System) : Piece → Prop
  | .input => s.fetch.inPacket ≠ NOBLOCK → ¬EmptyDatagram s.fetch.loaded
  | .conn now nullTimer periodic c =>
    CopiesIn s now nullTimer periodic c → ∀ u, (s.uipConns c).appstate = some u → Whole s c u
  | .call (.udpBegin _ port) => htons port ≠ 0
  | .call (.udpWrite k buffer) => (s.sockets k).appdata.send = false ∨ buffer = []
  | .call (.endPacket k) => (s.sockets k).appdata.packetOut ≠ NOBLOCK →
    (s.sockets k).appdata.outPos ≠ UIP_UDP_PHYH_LEN + UIP_SENDBUFFER_OFFSET
  | _ => True

theorem step_sends {a : Action} (hs : Settled s) (hfit : Fitting s (.call a)) (hother : ∀ now nullTimer, a ≠ .tick now nullTimer)
    (h : s.step a = some s') : Sends s s' := by
  have haside : a.isTcp = false → s'.uipConns = s.uipConns := fun htcp => (step_aside htcp h).conns
  have hsocket : a.isTcp = false → Settled s' ∧ s'.net.sent = s.net.sent → Sends s s' := fun htcp hboth =>
    (Silent.of_conns (haside htcp) hboth).sends
  cases a with
  | arrive ring frames =>
    cases h
    have hquiet : Silent s (s.arrive ring frames) := silent_of hs ⟨rfl, rfl, rfl⟩ rfl rfl rfl rfl hs.unset
    exact hquiet.sends
  | tick now nullTimer => exact absurd rfl (hother now nullTimer)
  | configure ip gateway subnet =>
    cases h
    have honly : OnlyUip s (s.configure ip gateway subnet) := rfl
    exact (honly.silent hs).sends
  | listen port =>
    cases h
    exact ((uipListen_only _).silent hs).sends
  | connect ip port =>
    obtain ⟨⟨s₁, conn⟩, hconnect, rfl⟩ := Option.map_eq_some_iff.mp h
    exact (uipConnect_silent hs hconnect).sends
  | stop data =>
    have hstop : UIPClient.stop s data = some s' := h
    exact (own_silent hs (stop_own hstop) (stop_keeps hs.owned hstop) (stop_paired hs.paired hstop)).sends
  | write data now buf =>
    obtain ⟨⟨s₁, r⟩, hattempt, rfl⟩ := Option.map_eq_some_iff.mp h
    refine (own_silent hs (attempt_own hattempt) (attempt_keeps hs.owned hattempt) ?_).sends
    rw [attempt_tables hattempt]
    exact hs.paired
  | read data size =>
    obtain ⟨⟨s₁, client, bytes⟩, hread, rfl⟩ := Option.map_eq_some_iff.mp h
    exact (own_silent hs (read_own hread) (read_keeps hs.paired hs.owned hread) (read_paired hs.paired hread)).sends
  | flush data =>
    have hflush : UIPClient.flush s data = some s' := h
    exact (own_silent hs (flush_own hflush) (flush_keeps hs.owned hflush) (flush_paired hs.paired hflush)).sends
  | udpBegin k port =>
    obtain ⟨⟨s₁, success⟩, hbegin, rfl⟩ := Option.map_eq_some_iff.mp h
    exact hsocket rfl (begin_settled hs hfit hbegin)
  | udpStop k => exact hsocket rfl (stop_settled hs h)
  | beginPacket k ip port =>
    obtain ⟨⟨s₁, success⟩, hbegin, rfl⟩ := Option.map_eq_some_iff.mp h
    exact hsocket rfl (beginPacket_settled hs hbegin)
  | udpWrite k buffer =>
    obtain rfl := Option.some.inj h
    exact hsocket rfl (write_settled hs hfit)
  | endPacket k =>
    obtain ⟨⟨s₁, success⟩, hend, rfl⟩ := Option.map_eq_some_iff.mp h
    exact .of_conns (haside rfl) (endPacket_settled hs hfit hend)
  | parsePacket k =>
    obtain ⟨⟨s₁, size⟩, hparse, rfl⟩ := Option.map_eq_some_iff.mp h
    exact hsocket rfl (parsePacket_settled hs hparse)
  | udpRead k len =>
    obtain ⟨⟨s₁, bytes⟩, hread, rfl⟩ := Option.map_eq_some_iff.mp h
    exact hsocket rfl (read_settled hs hread)
  | udpFlush k => exact hsocket rfl (flush_settled hs h)

-- ---------------------------------------------------------------------------
-- Runs
-- ---------------------------------------------------------------------------

theorem PieceStep.sends {p : Piece} (hs : Settled s) (hsmall : ∀ c, Small (s.uipConns c)) (hfit : Fitting s p)
    (h : PieceStep s p s') : Sends s s' := by
  cases h with
  | input h => exact tickInput_settled hs hfit h
  | conn h => exact tickConn_settled hs (hsmall _) hfit h
  | @rearm now =>
    have hquiet : Silent s { s with periodicTimer := now + UIP_PERIODIC_TIMER } :=
      silent_of hs ⟨rfl, rfl, rfl⟩ rfl rfl rfl rfl hs.unset
    exact hquiet.sends
  | udp h => exact .of_conns (tickUdp_aside h).conns (tickUdp_settled hs h)
  | call hother h => exact step_sends hs hfit hother h

theorem init_settled (ram : Nat → Byte) (transmissions : List Transmission) (mac : List Byte) (now : BitVec 32) :
    Settled (System.init ram transmissions mac now) := by
  have hnone : ∀ x, (System.init ram transmissions mac now).own x = NOBLOCK := by
    intro x
    cases x <;> rfl
  have hunset : ¬has (0 : BitVec 8) UIPETHERNET_SENDPACKET := by decide
  refine ⟨Tables.zero_paired, Holds.empty hnone, fun k => .empty rfl rfl, fun k i h => ?_, hunset⟩
  cases h

theorem init_small (ram : Nat → Byte) (transmissions : List Transmission) (mac : List Byte) (now : BitVec 32)
    (c : Fin UIP_CONNS) : Small ((System.init ram transmissions mac now).uipConns c) :=
  ⟨Nat.zero_le _, Nat.zero_le _, Nat.zero_le _⟩

/-- In every run from `init` whose steps lead no lengths apart, a piece sends
frames of `uip_len` bytes only. `network_send`, which a piece calls once at
most, leaves `uip_len` as it is. -/
theorem frames_exact {ram : Nat → Byte} {transmissions : List Transmission} {mac : List Byte} {now : BitVec 32}
    {ps : List Piece} {p : Piece}
    (h : Run (fun t p t' => PieceStep t p t' ∧ Fitting t p) (System.init ram transmissions mac now) ps s)
    (hstep : PieceStep s p s') (hfit : Fitting s p) : Exact s s' := by
  have hrun : Settled s ∧ ∀ c, Small (s.uipConns c) := by
    refine h.invariant (I := fun t => Settled t ∧ ∀ c, Small (t.uipConns c)) ?_
      ⟨init_settled _ _ _ _, init_small _ _ _ _⟩
    rintro t p t' ⟨hs, hsmall⟩ ⟨hstep, hfit⟩
    have hsends := hstep.sends hs hsmall hfit
    exact ⟨hsends.settled, hsends.small hsmall⟩
  exact (hstep.sends hrun.1 hrun.2 hfit).exact

def booted : System := System.init (fun _ => 0) (List.replicate 3 ⟨true, []⟩) [1, 2, 3, 4, 5, 6] 0

/-- A server on port 7, and a connection with a byte of data. -/
def dialog (mss chksum : List Byte) : System :=
  ((booted.configure 0x0a000001 0 0xff000000).uipListen (htons 7)).arrive
    (ringSlot 70 (synFrame mss chksum) ++ ringSlot 140 (peerFrame 7 TCP_ACK 101 1 [0x21, 0x5d] [0x78])) 2

/-- The server writes to the connection. -/
theorem dialog_run {mss chksum data : List Byte} {s₁ s₂ s₃ : System} (h₁ : (dialog mss chksum).tickInput = some s₁)
    (h₂ : s₁.tickInput = some s₂) (hwrite : s₂.step (.write (some 0) 0 data) = some s₃)
    (hproto₁ : (dialog mss chksum).fetch.frameBuf Offset.proto ≠ UIP_PROTO_UDP)
    (hproto₂ : s₁.fetch.frameBuf Offset.proto ≠ UIP_PROTO_UDP) :
    ∃ ps, Run (fun t p t' => PieceStep t p t' ∧ Fitting t p) booted ps s₃ := by
  have hconfigure : PieceStep booted (.call (.configure 0x0a000001 0 0xff000000)) _ := .call (by rintro _ _ ⟨⟩) rfl
  have hlisten : PieceStep (booted.configure 0x0a000001 0 0xff000000) (.call (.listen 7)) _ := .call (by rintro _ _ ⟨⟩) rfl
  have harrive : PieceStep ((booted.configure 0x0a000001 0 0xff000000).uipListen (htons 7))
      (.call (.arrive (ringSlot 70 (synFrame mss chksum) ++ ringSlot 140 (peerFrame 7 TCP_ACK 101 1 [0x21, 0x5d] [0x78])) 2))
      (dialog mss chksum) := .call (by rintro _ _ ⟨⟩) rfl
  have hnone : Run (fun t p t' => PieceStep t p t' ∧ Fitting t p) booted [] booted := .nil
  have hstart := ((hnone.snoc ⟨hconfigure, trivial⟩).snoc ⟨hlisten, trivial⟩).snoc ⟨harrive, trivial⟩
  have hother : ∀ {t : System}, t.fetch.frameBuf Offset.proto ≠ UIP_PROTO_UDP → Fitting t .input := by
    intro t hproto _ hempty
    have hudp := hempty.1.2.1
    rw [loaded_buf] at hudp
    exact hproto hudp
  have hinput := (hstart.snoc ⟨.input h₁, hother hproto₁⟩).snoc ⟨.input h₂, hother hproto₂⟩
  exact ⟨_, hinput.snoc ⟨.call (by rintro _ _ ⟨⟩) hwrite, trivial⟩⟩

theorem frames_exact_example : ∃ (ps : List Piece) (p : Piece) (s s' : System),
    Run (fun t p t' => PieceStep t p t' ∧ Fitting t p) booted ps s ∧ PieceStep s p s' ∧
    s'.net.sent.length = s.net.sent.length + 1 ∧ Exact s s' := by
  have hcompute : ((dialog [2, 0] [0x85, 0x66]).tickInput.bind fun s₁ => s₁.tickInput.bind fun s₂ =>
      (s₂.step (.write (some 0) 0 [7, 8, 9])).bind fun s₃ => (s₃.tickConn 20 0 false 0).map fun s₄ =>
        decide ((dialog [2, 0] [0x85, 0x66]).fetch.frameBuf Offset.proto ≠ UIP_PROTO_UDP ∧
          s₁.fetch.frameBuf Offset.proto ≠ UIP_PROTO_UDP ∧ (s₃.uipConns 0).appstate = some 0 ∧
          Knows s₃.uip (s₃.uipConns 0).ripaddr ∧ (s₃.uipConns 0).len = 0 ∧ sendLength s₃ 0 ≤ (s₃.uipConns 0).mss ∧
          s₄.net.sent.length = s₃.net.sent.length + 1)) = some true := by
    decide +kernel
  obtain ⟨s₁, h₁, hcompute⟩ := Option.bind_eq_some_iff.mp hcompute
  obtain ⟨s₂, h₂, hcompute⟩ := Option.bind_eq_some_iff.mp hcompute
  obtain ⟨s₃, hwrite, hcompute⟩ := Option.bind_eq_some_iff.mp hcompute
  obtain ⟨s₄, hconn, hcompute⟩ := Option.map_eq_some_iff.mp hcompute
  obtain ⟨hproto₁, hproto₂, happ, hknown, hlen, hmss, hcount⟩ := of_decide_eq_true hcompute
  obtain ⟨ps, hrun⟩ := dialog_run h₁ h₂ hwrite hproto₁ hproto₂
  have hfit : Fitting s₃ (.conn 20 0 false 0) := by
    intro _ u hu
    obtain rfl := Option.some.inj (happ.symm.trans hu)
    exact ⟨hknown, fun _ => hmss, fun hne => absurd hlen hne⟩
  exact ⟨ps, _, s₃, s₄, hrun, .conn hconn, hcount, frames_exact hrun (.conn hconn) hfit⟩

/-- The peer takes segments of 64 bytes, and the server writes 65: they all go
out behind a header for 64. -/
theorem cut_segment_leaks : ∃ (ps : List Piece) (p : Piece) (s s' : System),
    Run PieceStep booted ps s ∧ PieceStep s p s' ∧ s'.uip.uipLen = 118 ∧
    (s'.net.sent.head?.map fun f => f.1.length) = some 119 ∧ ¬Exact s s' := by
  have hcompute : ((dialog [0, 64] [0x87, 0x26]).tickInput.bind fun s₁ => s₁.tickInput.bind fun s₂ =>
      (s₂.step (.write (some 0) 0 (List.replicate 65 7))).bind fun s₃ => (s₃.tickConn 20 0 false 0).map fun s₄ =>
        decide ((dialog [0, 64] [0x87, 0x26]).fetch.frameBuf Offset.proto ≠ UIP_PROTO_UDP ∧
          s₁.fetch.frameBuf Offset.proto ≠ UIP_PROTO_UDP ∧ s₄.uip.uipLen = 118 ∧
          (s₄.net.sent.head?.map fun f => f.1.length) = some 119 ∧
          s₄.net.sent.length = s₃.net.sent.length + 1)) = some true := by
    decide +kernel
  obtain ⟨s₁, h₁, hcompute⟩ := Option.bind_eq_some_iff.mp hcompute
  obtain ⟨s₂, h₂, hcompute⟩ := Option.bind_eq_some_iff.mp hcompute
  obtain ⟨s₃, hwrite, hcompute⟩ := Option.bind_eq_some_iff.mp hcompute
  obtain ⟨s₄, hconn, hcompute⟩ := Option.map_eq_some_iff.mp hcompute
  obtain ⟨hproto₁, hproto₂, hlen, hhead, hcount⟩ := of_decide_eq_true hcompute
  obtain ⟨ps, hrun⟩ := dialog_run h₁ h₂ hwrite hproto₁ hproto₂
  refine ⟨ps, _, s₃, s₄, hrun.mono And.left, .conn hconn, hlen, hhead, ?_⟩
  rintro ⟨frames, hsent, hframes⟩
  cases frames with
  | nil => exact absurd hcount (by rw [hsent]; simp)
  | cons f rest =>
    rw [hsent] at hhead
    have hlong : f.1.length = 119 := Option.some.inj hhead
    have hexact := hframes f List.mem_cons_self
    omega

end System

end UIPEthernet
