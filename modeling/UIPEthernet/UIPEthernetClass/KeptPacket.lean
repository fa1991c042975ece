import UIPEthernet.UIPClient.Calls
import UIPEthernet.UIPUdp.Calls

/-!
# A kept packet keeps its memory

The callback keeps a frame it has no block for, and `in_packet` stays. The read
pointer must not move until the next `tick` has looked at the frame again; but
every segment that is prepared moves it.
-/

namespace UIPEthernet

open Enc28J60Network Lib

namespace UIPUDP

open UIPEthernet.System

variable {s s' : System} {i : Fin UIP_UDP_CONNS} {k : Nat}

theorem queue_kept {size : Nat} (h : queue s k size = some s') :
    s'.inPacket = s.inPacket ∧ s'.packetstate = s.packetstate := by
  simp only [queue, Option.bind_eq_bind, Option.pure_def] at h
  obtain ⟨⟨net, b⟩, -, h⟩ := Option.bind_eq_some_iff.mp h
  split at h
  · cases h
    exact ⟨rfl, rfl⟩
  · obtain ⟨net', -, h⟩ := Option.bind_eq_some_iff.mp h
    cases h
    exact ⟨rfl, rfl⟩

/-- A datagram that is copied is not kept. -/
theorem received_kept (h : received s i k = some s') : s'.inPacket = s.inPacket ∧ s'.packetstate = s.packetstate := by
  simp only [received] at h
  split at h
  · obtain ⟨hin, hstate⟩ := queue_kept h
    exact ⟨hin, hstate⟩
  · cases h
    exact ⟨rfl, rfl⟩

theorem appcall_released (h : uipudpAppcall s i = some s') : Released s s' := by
  unfold uipudpAppcall at h
  split at h
  · cases h
    exact (Held.refl s).released
  · simp only [Option.bind_eq_bind, Option.pure_def] at h
    obtain ⟨s₁, hreceived, h⟩ := Option.bind_eq_some_iff.mp h
    cases h
    obtain ⟨hin, hstate⟩ := received_kept hreceived
    have h₁ : Released s s₁ := ⟨hin, .inr (by rw [hstate])⟩
    exact h₁.after polled_aside.toHeld

end UIPUDP

namespace System

variable {s s' s₁ : System} {c : Fin UIP_CONNS}

-- ---------------------------------------------------------------------------
-- The first half of tick
-- ---------------------------------------------------------------------------

theorem foundListen_held (h : s.foundListen = some s') : Held s s' := by
  rcases foundListen_opened h with honly | ⟨c, hopened⟩
  · exact honly.held
  · exact (record_held _).trans hopened.touch.held

theorem Input.released (h : Input s s') : Released s s' := by
  cases h with
  | scratch h => exact h.held.released
  | segment s₁ c hpre _ _ h => exact hpre.held.before (found_turn h).released
  | listen s₁ hpre h => exact (hpre.held.trans (foundListen_held h)).released
  | datagram s₁ s₂ i hpre _ _ hcall hpost => exact (hpre.held.before (UIPUDP.appcall_released hcall)).after hpost.held

theorem Handled.released (h : Handled s s') : Released s s' := by
  cases h with
  | scratch h => exact h.held.released
  | packet s₁ s₂ hpre _ hinput hsend =>
    have hset : Held s (s.setUipPacket s.inPacket) := .of_eq rfl rfl rfl
    exact ((hset.trans hpre.held).before hinput.released).after (sendOut_held hsend)
  | reply s₁ ok hpre hsend => exact (hpre.held.trans (networkSend_held hsend)).released

/-- A frame that is kept is the one that was looked at. -/
theorem tickInput_inPacket (h : s.tickInput = some s') (hkept : s'.inPacket ≠ NOBLOCK) :
    s'.inPacket = s.fetch.inPacket := by
  rcases tickInput_handled h with ⟨-, rfl⟩ | ⟨s₁, -, hhandled, rfl⟩
  · rfl
  · unfold release at hkept ⊢
    split
    · rename_i hfree
      rw [if_pos hfree] at hkept
      exact absurd rfl hkept
    · exact hhandled.released.inPacket

/-- A frame that is kept leaves the read pointer where it was. -/
theorem tickInput_kept (h : s.tickInput = some s') (hkept : s'.inPacket ≠ NOBLOCK) :
    s'.net.ERXRDPT = s.fetch.net.ERXRDPT := by
  rcases tickInput_handled h with ⟨hnone, rfl⟩ | ⟨s₁, -, hhandled, rfl⟩
  · rfl
  · unfold release at hkept ⊢
    split
    · rename_i hfree
      rw [if_pos hfree] at hkept
      exact absurd rfl hkept
    · rename_i hfree
      rcases hhandled.released.either with hread | hstate
      · exact hread
      · refine absurd ?_ hfree
        rw [hstate]
        exact (by decide : has UIPETHERNET_FREEPACKET UIPETHERNET_FREEPACKET)

-- ---------------------------------------------------------------------------
-- The other pieces
-- ---------------------------------------------------------------------------

/-- Whether the turn of `tick` for the connection copies bytes into a segment:
it is asked for them, and the callback has some and a block for them. -/
structure CopiesIn (s : System) (now nullTimer : BitVec 32) (periodic : Bool) (c : Fin UIP_CONNS) : Prop where
  turn : periodic = true ∨ due now (s.connTimer nullTimer c) ∧ (s.uipConns c).len = 0
  asks : Asks s c
  copies : ∃ u, (s.uipConns c).appstate = some u ∧ UIPClient.Copies s u

theorem tickConn_held {now nullTimer : BitVec 32} {periodic : Bool} (h : s.tickConn now nullTimer periodic c = some s')
    (hno : ¬CopiesIn s now nullTimer periodic c) : Held s s' := by
  simp only [tickConn, Option.bind_eq_bind, Option.pure_def] at h
  split at h
  · rename_i hperiodic
    obtain ⟨s₁, htimer, hsend⟩ := Option.bind_eq_some_iff.mp h
    have hquiet : Held s s₁ := (uipTimer_data htimer).held fun u happ hasks hcopies =>
      hno ⟨.inl hperiodic, hasks, u, happ, hcopies⟩
    exact hquiet.trans (sendOut_held hsend)
  · split at h
    · rename_i hdue
      obtain ⟨s₁, hpoll, hsend⟩ := Option.bind_eq_some_iff.mp h
      refine Held.trans ?_ (sendOut_held hsend)
      by_cases hlen : (s.uipConns c).len = 0
      · exact (uipPoll_data hpoll).held fun u happ hasks hcopies => hno ⟨.inr ⟨hdue, hlen⟩, hasks, u, happ, hcopies⟩
      · -- a connection with unacknowledged bytes is not polled
        rw [uipPoll, if_neg] at hpoll
        · cases hpoll
          exact .of_eq rfl rfl rfl
        · exact fun h => hlen (by simpa [Conn.outstanding, initAppdata, setAppdata] using h.2)
    · cases h
      exact .refl s

end System

namespace System

variable {s s' : System}

theorem uipConnect_held {ripaddr : BitVec 32} {rport : Nat} {conn : Option (Fin UIP_CONNS)}
    (h : s.uipConnect ripaddr rport = some (s', conn)) : Held s s' := by
  obtain ⟨s₁, honly, hconn⟩ := uipConnect_opened h
  cases conn with
  | none =>
    obtain rfl := hconn
    exact honly.held
  | some c => exact (honly.held.trans (record_held _)).trans hconn.touch.held

/-- A call of the sketch, and a frame that arrives, move nothing. -/
theorem step_held {a : Action} (hother : ∀ now nullTimer, a ≠ .tick now nullTimer) (h : s.step a = some s') :
    Held s s' := by
  by_cases htcp : a.isTcp = false
  · exact (step_aside htcp h).toHeld
  · cases a with
    | tick now nullTimer => exact absurd rfl (hother now nullTimer)
    | connect ip port =>
      obtain ⟨⟨s₁, conn⟩, hconnect, rfl⟩ := Option.map_eq_some_iff.mp h
      exact uipConnect_held hconnect
    | stop data => exact (UIPClient.stop_own h).toHeld
    | write data now buf =>
      obtain ⟨⟨s₁, r⟩, hattempt, rfl⟩ := Option.map_eq_some_iff.mp h
      exact (UIPClient.attempt_own hattempt).toHeld
    | read data size =>
      obtain ⟨⟨s₁, client, bytes⟩, hread, rfl⟩ := Option.map_eq_some_iff.mp h
      exact (UIPClient.read_own hread).toHeld
    | flush data => exact (UIPClient.flush_own h).toHeld
    | _ => exact absurd rfl htcp

-- ---------------------------------------------------------------------------
-- The life of a kept frame
-- ---------------------------------------------------------------------------

/-- A piece behind which `tick` still has its frame. -/
structure KeepStep (s : System) (p : Piece) (s' : System) : Prop where
  step : PieceStep s p s'
  kept : s'.inPacket ≠ NOBLOCK

/-- No segment is prepared. -/
def Sparing (s : System) : Piece → Prop
  | .conn now nullTimer periodic c => ¬CopiesIn s now nullTimer periodic c
  | _ => True

theorem KeepStep.pointer {p : Piece} (h : KeepStep s p s') (hin : s.inPacket ≠ NOBLOCK) (hspare : Sparing s p) :
    s'.inPacket = s.inPacket ∧ s'.net.ERXRDPT = s.net.ERXRDPT := by
  obtain ⟨hstep, hkept⟩ := h
  cases hstep with
  | input h =>
    have hfetch : s.fetch = s := if_neg hin
    rw [← hfetch]
    exact ⟨tickInput_inPacket h hkept, tickInput_kept h hkept⟩
  | conn h =>
    have hheld := tickConn_held h hspare
    exact ⟨hheld.inPacket, hheld.read⟩
  | rearm => exact ⟨rfl, rfl⟩
  | udp h =>
    have hheld := (UIPUDP.tickUdp_aside h).toHeld
    exact ⟨hheld.inPacket, hheld.read⟩
  | call hother h =>
    have hheld := step_held hother h
    exact ⟨hheld.inPacket, hheld.read⟩

/-- From the `receivePacket` that returned the frame until it is dropped, the
read pointer stays where it was then. -/
theorem kept_packet {es : List Piece} (hnew : s.inPacket = NOBLOCK) (hreceive : s.tickInput = some s₁)
    (hkept : s₁.inPacket ≠ NOBLOCK) (h : Run (fun t p t' => KeepStep t p t' ∧ Sparing t p) s₁ es s') :
    s'.inPacket = s.net.receivePacket.2 ∧ s'.net.ERXRDPT = s.net.receivePacket.1.ERXRDPT := by
  have hfetch : s.fetch = (s.setNet s.net.receivePacket.1).setInPacket s.net.receivePacket.2 := if_pos hnew
  have hread := tickInput_kept hreceive hkept
  have hin := tickInput_inPacket hreceive hkept
  have hrun : s'.inPacket ≠ NOBLOCK ∧ s'.inPacket = s₁.inPacket ∧ s'.net.ERXRDPT = s₁.net.ERXRDPT := by
    refine h.invariant (I := fun t => t.inPacket ≠ NOBLOCK ∧ t.inPacket = s₁.inPacket ∧ t.net.ERXRDPT = s₁.net.ERXRDPT)
      ?_ ⟨hkept, rfl, rfl⟩
    rintro t p t' ⟨hne, hinT, hreadT⟩ ⟨hstep, hspare⟩
    obtain ⟨hin', hread'⟩ := hstep.pointer hne hspare
    exact ⟨hstep.kept, hin'.trans hinT, hread'.trans hreadT⟩
  obtain ⟨-, hsame, hpointer⟩ := hrun
  rw [hfetch] at hread hin
  exact ⟨hsame.trans hin, hpointer.trans hread⟩

/-- A segment with one byte of payload, padded. -/
def segmentFrame : List Byte :=
  [1, 2, 3, 4, 5, 6, 6, 5, 4, 3, 2, 1, 8, 0] ++
  [0x45, 0, 0, 41, 0, 0, 0, 0, 64, 6, 0x66, 0xcd, 10, 0, 0, 2, 10, 0, 0, 1] ++
  [7, 0, 7, 0, 0, 0, 0, 0, 0, 0, 0, 0, 0x50, 0x18, 2, 0, 0x82, 0xc9, 0, 0, 9] ++ [0, 0, 0, 0, 0]

/-- A ring with the frame at its start. -/
def ringOf (frame : List Byte) : List Byte :=
  [BitVec.ofNat 8 (frame.length + 10), 0, BitVec.ofNat 8 (frame.length + 4), 0, 0x80, 0] ++ frame ++ [0, 0, 0, 0]

/-- A block of `packets_out`, and four datagrams in the rest of the pool. -/
def fullPool : Option Enc28J60Network :=
  [512, 1408, 1408, 1408, 1407].foldlM (fun net size => (net.allocBlock size).map (·.1))
    (.init (fun _ => 0) [])

/-- Two connections: the segment is for the first one, and the second one has a
byte to send. -/
def keeping (net : Enc28J60Network) : System :=
  let established lport appstate : Conn :=
    ⟨0x0a000002, lport, 7, 0, 0, 0, 512, 512, 0, 0, 0, TcpState.UIP_ESTABLISHED, 0, 0, appstate⟩
  let entry (number : BitVec 8) (h : Handle) outPos : Userdata :=
    ⟨number ||| UIP_CLIENT_CONNECTED, fun _ => NOBLOCK, Function.update (fun _ => NOBLOCK) 0 h, outPos, 0⟩
  let s := System.init (fun _ => 0) [] [1, 2, 3, 4, 5, 6] 1
  { s with
    net
    uip := { s.uip with uipHostaddr := 0x0a000001, uipNetmask := 0xff000000 }
    uipConns := fun c =>
      if c = 0 then established 7 (some 0) else if c = 1 then established 8 (some 1) else s.uipConns c
    allData := fun u => if u = 0 then entry 0 NOBLOCK 0 else if u = 1 then entry 1 1 1 else s.allData u
    uipUdpConns := fun i => ⟨0, i + 1, 0, UIP_TTL, some i⟩
    sockets := fun k =>
      if h : k < UIP_UDP_CONNS then ⟨some ⟨k, h⟩, ⟨0, k + 2, NOBLOCK, NOBLOCK, false⟩⟩ else ⟨none, UIPUDP.start⟩ }

/-- The poll of the connection that has the segment sends nothing. -/
theorem kept_packet_example : ∃ s s₁ s' : System, s.tickInput = some s₁ ∧ s₁.tickConn 0 0 false 0 = some s' ∧
    s'.inPacket = UIP_RECEIVEBUFFERHANDLE ∧ s'.net.ERXRDPT = s.net.receivePacket.1.ERXRDPT := by
  have hcompute : (fullPool.bind fun net => ((keeping net).arrive (ringOf segmentFrame) 1).tickInput.bind fun s₁ =>
      (s₁.tickConn 0 0 false 0).map fun s' => decide (s₁.inPacket ≠ NOBLOCK ∧ s'.inPacket ≠ NOBLOCK ∧
        (s₁.uipConns 0).appstate = some 0 ∧ (s₁.allData 0).packetsOut 0 = NOBLOCK ∧
        ((keeping net).arrive (ringOf segmentFrame) 1).net.receivePacket.2 = UIP_RECEIVEBUFFERHANDLE)) = some true := by
    decide +kernel
  obtain ⟨net, -, hrun⟩ := Option.bind_eq_some_iff.mp hcompute
  obtain ⟨s₁, hinput, hrun⟩ := Option.bind_eq_some_iff.mp hrun
  obtain ⟨s', hconn, hchecked⟩ := Option.map_eq_some_iff.mp hrun
  obtain ⟨hkept, hkept', happ, hout, hreceived⟩ := of_decide_eq_true hchecked
  have hspare : Sparing s₁ (.conn 0 0 false 0) := by
    rintro ⟨-, -, u, hu, hcopies⟩
    obtain rfl := Option.some.inj (happ.symm.trans hu)
    exact hcopies.head hout
  obtain ⟨hin, hread⟩ := kept_packet (s := (keeping net).arrive (ringOf segmentFrame) 1) rfl hinput hkept
    (.snoc .nil ⟨⟨.conn hconn, hkept'⟩, hspare⟩)
  exact ⟨_, s₁, s', hinput, hconn, hin.trans hreceived, hread⟩

/-- One `tick`: the segment of the first connection is kept, and the poll of
the second one releases its memory. -/
theorem poll_releases_kept : ∃ (net : Enc28J60Network) (s' : System), fullPool = some net ∧
    ((keeping net).arrive (ringOf segmentFrame) 1).inPacket = NOBLOCK ∧
    ((keeping net).arrive (ringOf segmentFrame) 1).tick 0 (fun _ => 0) = some s' ∧
    s'.inPacket = ((keeping net).arrive (ringOf segmentFrame) 1).net.receivePacket.2 ∧ s'.inPacket ≠ NOBLOCK ∧
    s'.net.ERXRDPT ≠ ((keeping net).arrive (ringOf segmentFrame) 1).net.receivePacket.1.ERXRDPT := by
  have hcompute : (fullPool.bind fun net => (((keeping net).arrive (ringOf segmentFrame) 1).tick 0 fun _ => 0).map
      fun s' => decide (s'.inPacket = ((keeping net).arrive (ringOf segmentFrame) 1).net.receivePacket.2 ∧
        s'.inPacket ≠ NOBLOCK ∧
        s'.net.ERXRDPT ≠ ((keeping net).arrive (ringOf segmentFrame) 1).net.receivePacket.1.ERXRDPT)) = some true := by
    decide +kernel
  obtain ⟨net, hpool, hrun⟩ := Option.bind_eq_some_iff.mp hcompute
  obtain ⟨s', htick, hchecked⟩ := Option.map_eq_some_iff.mp hrun
  exact ⟨net, s', hpool, rfl, htick, of_decide_eq_true hchecked⟩

end System

end UIPEthernet
