import UIPEthernet.Lib.Run
import UIPEthernet.NetworkSend
import UIPEthernet.Sketch
import UIPEthernet.Uip.Turn

/-!
# The pieces of a tick

A `tick` is its first half and a turn for each connection. A run of the whole
system is a run of these pieces and of the other actions.
-/

namespace UIPEthernet

open Lib

inductive Piece
  | input
  | conn (now nullTimer : BitVec 32) (periodic : Bool) (c : Fin UIP_CONNS)
  | rearm (now : BitVec 32)
  | udp (i : Fin UIP_UDP_CONNS)
  /-- An action that is not a `tick`. -/
  | call (a : Action)

namespace System

/-- A piece of a `tick`, or another action. -/
inductive PieceStep (s : System) : Piece → System → Prop
  | input (h : s.tickInput = some s') : PieceStep s .input s'
  | conn (h : s.tickConn now nullTimer periodic c = some s') : PieceStep s (.conn now nullTimer periodic c) s'
  | rearm : PieceStep s (.rearm now) { s with periodicTimer := now + UIP_PERIODIC_TIMER }
  | udp (h : s.tickUdp i = some s') : PieceStep s (.udp i) s'
  | call (hother : ∀ now nullTimer, a ≠ .tick now nullTimer) (h : s.step a = some s') : PieceStep s (.call a) s'

/-- What `uip_process` does with a packet: nothing but scratch work and a
reply, a segment for a connection, a SYN for a port, or a datagram. -/
inductive Input (s s' : System) : Prop
  | scratch (h : OnlyUip s s')
  | segment (s₁ : System) (c : Fin UIP_CONNS) (hpre : OnlyUip s s₁) (hbuf : s₁.uip.uipBuf = s.uip.uipBuf)
      (hmatch : tcpMatches s₁.uip.uipBuf (s₁.uipConns c)) (h : s₁.found c = some s')
      (hlen : s₁.uip.uipLen = s₁.uip.uipBuf.be16 Offset.len)
  | listen (s₁ : System) (hpre : OnlyUip s s₁) (h : s₁.foundListen = some s')
  | datagram (s₁ s₂ : System) (i : Fin UIP_UDP_CONNS) (hpre : OnlyUip s s₁) (hbuf : s₁.uip.uipBuf = s.uip.uipBuf)
      (hflags : s₁.uip.uipFlags = UIP_NEWDATA) (hcall : uipudpAppcall s₁ i = some s₂) (hpost : OnlyUip s₂ s')
      (hproto : s₁.uip.uipBuf Offset.proto = UIP_PROTO_UDP)
      (hmatch : (List.finRange UIP_UDP_CONNS).find? (fun i => udpMatches s₁.uip.uipBuf (s₁.uipUdpConns i)) = some i)

/-- The frame that `tick` looks at: the one kept, or the next one. -/
def fetch (s : System) : System :=
  if s.inPacket = NOBLOCK then (s.setNet s.net.receivePacket.1).setInPacket s.net.receivePacket.2 else s

/-- The end of the first half of `tick`. -/
def release (s : System) : System :=
  if has s.packetstate UIPETHERNET_FREEPACKET then (s.setNet s.net.freePacket).setInPacket NOBLOCK else s

/-- `uip_buf` with the frame `in_packet`. -/
def frameBuf (s : System) : Buf := Lib.store s.uip.uipBuf 0 (s.net.readPacket s.inPacket 0 UIP_BUFSIZE)

/-- The frame `in_packet` as `tick` gives it to `uip_process`. -/
def given (s : System) : System :=
  ((s.mapBuf fun b => Lib.store b 0 (s.net.readPacket s.inPacket 0 UIP_BUFSIZE)).setUipPacket s.inPacket).mapUip Uip.arpIpin

/-- What `tick` does with the frame `in_packet`. -/
inductive Handled (s s' : System) : Prop
  | scratch (h : OnlyUip s s')
  | packet (s₁ s₂ : System) (hpre : OnlyUip (s.setUipPacket s.inPacket) s₁) (hbuf : s₁.uip.uipBuf = s.frameBuf)
      (hinput : Input s₁ s₂) (hsend : s₂.sendOut = some s') (htype : s₁.uip.uipBuf.be16 Offset.ethType = UIP_ETHTYPE_IP)
      (hgiven : s₁ = s.given) (hcall : s₁.uipInput = some s₂)
  | reply (s₁ : System) (ok : Bool) (hpre : OnlyUip s s₁) (hsend : s₁.networkSend = some (s', ok))
      (hlen : s₁.uip.uipLen = UIP_ARPHDRSIZE)

variable {s s' s₁ : System}

theorem tick_pieces {now : BitVec 32} {nullTimer : Fin UIP_CONNS → BitVec 32} (h : s.tick now nullTimer = some s') :
    ∃ es, Run PieceStep s es s' := by
  simp only [tick, Option.bind_eq_bind, Option.pure_def] at h
  obtain ⟨s₁, hinput, h⟩ := Option.bind_eq_some_iff.mp h
  obtain ⟨s₂, hconns, h⟩ := Option.bind_eq_some_iff.mp h
  have h₁ : Run PieceStep s [.input] s₁ := .snoc .nil (.input hinput)
  have h₂ := h₁.append (.of_foldlM (fun hs => .conn hs) hconns)
  split at h
  · have h₃ := h₂.snoc (.rearm : PieceStep s₂ (.rearm now) _)
    exact ⟨_, h₃.append (.of_foldlM (fun hs => .udp hs) h)⟩
  · cases h
    exact ⟨_, h₂⟩

-- ---------------------------------------------------------------------------
-- The input of a frame
-- ---------------------------------------------------------------------------

theorem Input.before (hpre : OnlyUip s s₁) (hbuf : s₁.uip.uipBuf = s.uip.uipBuf) (h : Input s₁ s') : Input s s' := by
  cases h with
  | scratch h => exact .scratch (hpre.trans h)
  | segment s₂ c hpre₂ hbuf₂ hmatch h hlen => exact .segment s₂ c (hpre.trans hpre₂) (hbuf₂.trans hbuf) hmatch h hlen
  | listen s₂ hpre₂ h => exact .listen s₂ (hpre.trans hpre₂) h
  | datagram s₂ s₃ i hpre₂ hbuf₂ hflags hcall hpost hproto hmatch =>
    exact .datagram s₂ s₃ i (hpre.trans hpre₂) (hbuf₂.trans hbuf) hflags hcall hpost hproto hmatch

theorem tcpInput_input (hlen : s.uip.uipLen = s.uip.uipBuf.be16 Offset.len) (h : s.tcpInput = some s') : Input s s' := by
  simp only [tcpInput, Option.bind_eq_bind, Option.pure_def] at h
  obtain ⟨sum, -, h⟩ := Option.bind_eq_some_iff.mp h
  split at h
  · cases h
    exact .scratch drop_only
  · split at h
    · rename_i c hfind
      have hmatch : tcpMatches s.uip.uipBuf (s.uipConns c) := by simpa using List.find?_some hfind
      exact .segment s c (.refl s) rfl hmatch h hlen
    · split at h
      · exact .scratch (reset_only h)
      · split at h
        · exact .listen s (.refl s) h
        · exact .scratch (reset_only h)

theorem setAppdata_buf (s : System) (n : Nat) : (s.setAppdata n).uip.uipBuf = s.uip.uipBuf := rfl

theorem mapBuf_buf (s : System) (f : Buf → Buf) : (s.mapBuf f).uip.uipBuf = f s.uip.uipBuf := rfl

theorem udpInput_input (hproto : s.uip.uipBuf Offset.proto = UIP_PROTO_UDP) (h : s.udpInput = some s') : Input s s' := by
  simp only [udpInput, Option.bind_eq_bind, Option.pure_def] at h
  generalize hs₁ : (s.setLen (sub16 s.uip.uipLen UIP_IPUDPH_LEN)).setAppdata (UIP_LLH_LEN + UIP_IPUDPH_LEN) = s₁ at h
  have hpre : OnlyUip s s₁ := by
    rw [← hs₁]
    exact (setLen_only _).trans (setAppdata_only _)
  have hbuf : s₁.uip.uipBuf = s.uip.uipBuf := by
    rw [← hs₁]
    exact (setAppdata_buf _ _).trans (setLen_buf _ _)
  refine Input.before hpre hbuf ?_
  split at h <;> obtain ⟨sum, -, h⟩ := Option.bind_eq_some_iff.mp h
  all_goals
    split at h
    · cases h
      exact .scratch drop_only
    · split at h
      · cases h
        exact .scratch drop_only
      · rename_i i hmatch
        obtain ⟨s₂, hcall, h⟩ := Option.bind_eq_some_iff.mp h
        exact .datagram ((s₁.setFlags UIP_NEWDATA).setSlen 0) s₂ i ((setFlags_only _).trans (setSlen_only _)) rfl rfl hcall
          (udpSend_only h).1 (hbuf ▸ hproto) hmatch

theorem icmpInput_only : OnlyUip s s.icmpInput := by
  unfold icmpInput
  split
  · exact drop_only
  · exact rfl

theorem uipInput_input (h : s.uipInput = some s') : Input s s' := by
  simp only [uipInput] at h
  generalize hs₁ : s.initAppdata = s₁ at h
  have hpre : OnlyUip s s₁ := hs₁ ▸ setAppdata_only _
  refine Input.before hpre (by rw [← hs₁]; rfl) ?_
  split at h
  · cases h
    exact .scratch drop_only
  · split at h
    · cases h
      exact .scratch drop_only
    · generalize hs₂ : s₁.setLen (s₁.uip.uipBuf.be16 Offset.len) = s₂ at h
      have hlen : OnlyUip s₁ s₂ := hs₂ ▸ setLen_only _
      have hbuf : s₂.uip.uipBuf = s₁.uip.uipBuf := by
        rw [← hs₂]
        exact setLen_buf _ _
      have hlen₂ : s₂.uip.uipLen = s₂.uip.uipBuf.be16 Offset.len := by
        rw [hbuf, ← hs₂]
        exact setLen_len _ _
      refine Input.before hlen hbuf ?_
      split at h
      · cases h
        exact .scratch drop_only
      · split at h
        · rename_i hcast
          exact udpInput_input (hbuf ▸ hcast.2.1) h
        · split at h
          · cases h
            exact .scratch drop_only
          · split at h
            · cases h
              exact .scratch drop_only
            · split at h
              · exact tcpInput_input hlen₂ h
              · split at h
                · rename_i hproto
                  exact udpInput_input (hbuf ▸ hproto) h
                · split at h
                  · cases h
                    exact .scratch drop_only
                  · cases h
                    exact .scratch icmpInput_only

theorem arpIpin_buf (u : Uip) : u.arpIpin.uipBuf = u.uipBuf := by
  simp only [Uip.arpIpin]
  split
  · rfl
  · simp only [Uip.arpUpdate]
    split <;> rfl

theorem arpUpdate_len (u : Uip) (ipaddr : BitVec 32) (ethaddr : List Byte) : (u.arpUpdate ipaddr ethaddr).uipLen = u.uipLen := by
  simp only [Uip.arpUpdate]
  split <;> rfl

/-- There is an ARP reply to send, or nothing. -/
theorem arpArpin_len {u : Uip} (h : 0 < u.arpArpin.uipLen) : u.arpArpin.uipLen = UIP_ARPHDRSIZE := by
  simp only [Uip.arpArpin] at h ⊢
  split
  · rename_i hshort
    rw [if_pos hshort] at h
    exact absurd h (Nat.lt_irrefl 0)
  · rename_i hlong
    rw [if_neg hlong] at h
    split
    · rename_i hother
      rw [if_pos hother] at h
      exact absurd h (Nat.lt_irrefl 0)
    · rename_i hown
      rw [if_neg hown] at h
      split
      · rfl
      · rename_i hreply
        rw [if_neg hreply] at h
        refine absurd ?_ (Nat.ne_of_gt h)
        split
        · exact arpUpdate_len _ _ _
        · rfl

theorem mapUip_only (f : Uip → Uip) : OnlyUip s (s.mapUip f) := rfl

/-- `handleFrame` with the frame in `uip_buf`. -/
theorem handleFrame_eq
    (h₁ : (s.mapBuf fun b => Lib.store b 0 (s.net.readPacket s.inPacket 0 UIP_BUFSIZE)) = s₁) :
    s.handleFrame =
      if s₁.uip.uipBuf.be16 Offset.ethType = UIP_ETHTYPE_IP then
        ((s₁.setUipPacket s₁.inPacket).mapUip Uip.arpIpin).uipInput.bind sendOut
      else if s₁.uip.uipBuf.be16 Offset.ethType = UIP_ETHTYPE_ARP then
        if 0 < (s₁.mapUip Uip.arpArpin).uip.uipLen then (s₁.mapUip Uip.arpArpin).networkSend.bind fun p => some p.1
        else some (s₁.mapUip Uip.arpArpin)
      else some s₁ := by
  subst h₁
  rfl

theorem handleFrame_handled (h : s.handleFrame = some s') : Handled s s' := by
  generalize h₁ : (s.mapBuf fun b => Lib.store b 0 (s.net.readPacket s.inPacket 0 UIP_BUFSIZE)) = s₁
  rw [handleFrame_eq h₁] at h
  have hpre : OnlyUip s s₁ := h₁ ▸ mapBuf_only _
  have hpacket : OnlyUip (s.setUipPacket s.inPacket) (s₁.setUipPacket s₁.inPacket) := by
    rw [← h₁]
    rfl
  split at h
  · rename_i htype
    obtain ⟨s₂, hinput, hsend⟩ := Option.bind_eq_some_iff.mp h
    have hsame : ((s₁.setUipPacket s₁.inPacket).mapUip Uip.arpIpin).uip.uipBuf = s₁.uip.uipBuf := arpIpin_buf _
    have hbuf : ((s₁.setUipPacket s₁.inPacket).mapUip Uip.arpIpin).uip.uipBuf = s.frameBuf := by
      rw [hsame, ← h₁]
      exact mapBuf_buf _ _
    have hgiven : (s₁.setUipPacket s₁.inPacket).mapUip Uip.arpIpin = s.given := by
      rw [hpre.inPacket, ← h₁, given]
    exact .packet _ s₂ (hpacket.trans (mapUip_only _)) hbuf (uipInput_input hinput) hsend (hsame ▸ htype) hgiven hinput
  · split at h
    · split at h
      · rename_i hlen
        obtain ⟨⟨s₂, ok⟩, hsend, h⟩ := Option.bind_eq_some_iff.mp h
        cases h
        exact .reply _ ok (hpre.trans (mapUip_only _)) hsend (arpArpin_len hlen)
      · cases h
        exact .scratch (hpre.trans (mapUip_only _))
    · cases h
      exact .scratch hpre

theorem some_release (s : System) :
    (if has s.packetstate UIPETHERNET_FREEPACKET then some ((s.setNet s.net.freePacket).setInPacket NOBLOCK)
      else some s) = some s.release := by
  unfold release
  split <;> rfl

/-- The first half of `tick`. -/
theorem tickInput_handled (h : s.tickInput = some s') :
    (s.fetch.inPacket = NOBLOCK ∧ s' = s.fetch) ∨
    ∃ s₁, s.fetch.inPacket ≠ NOBLOCK ∧
      Handled ((s.fetch.setPacketstate UIPETHERNET_FREEPACKET).setLen (s.fetch.net.blockSize s.fetch.inPacket)) s₁ ∧
      s' = s₁.release := by
  simp only [tickInput, Option.bind_eq_bind, Option.pure_def, some_release] at h
  generalize hf : (if s.inPacket = NOBLOCK then (s.setNet s.net.receivePacket.1).setInPacket s.net.receivePacket.2
    else s) = t at h
  have hfetch : s.fetch = t := hf
  rw [hfetch]
  split at h
  · rename_i hnone
    cases h
    exact .inl ⟨hnone, rfl⟩
  · rename_i hsome
    refine .inr ?_
    split at h
    · obtain ⟨s₁, hframe, h⟩ := Option.bind_eq_some_iff.mp h
      cases h
      exact ⟨s₁, hsome, handleFrame_handled hframe, rfl⟩
    · cases h
      exact ⟨_, hsome, .scratch (.refl _), rfl⟩

end System

end UIPEthernet
