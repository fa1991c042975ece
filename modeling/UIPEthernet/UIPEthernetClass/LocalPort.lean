import UIPEthernet.UIPEthernetClass.Settings
import UIPEthernet.UIPUdp.Ownership

/-!
# The search for a local port

`uip_connect` and `uip_udp_new` count `lastport` up until no connection has the
port. They look at one port more than there are connections at most, since the
ports they look at are distinct.
-/

namespace UIPEthernet

namespace System

variable {s s' : System} {p : Piece} {ps : List Piece}

-- ---------------------------------------------------------------------------
-- The ports it looks at
-- ---------------------------------------------------------------------------

def candidates : Nat → Nat → List Nat
  | 0, _ => []
  | fuel + 1, lastport => nextPort lastport :: candidates fuel (nextPort lastport)

theorem localPort_eq (inUse : Nat → Bool) (fuel lastport : Nat) :
    localPort inUse fuel lastport = (candidates fuel lastport).find? fun port => !inUse (htons port) := by
  induction fuel generalizing lastport with
  | zero => rfl
  | succ fuel ih =>
    rw [localPort, candidates, List.find?_cons]
    cases h : inUse (htons (nextPort lastport)) with
    | true => simpa using ih (nextPort lastport)
    | false => simp

theorem candidates_length (fuel lastport : Nat) : (candidates fuel lastport).length = fuel := by
  induction fuel generalizing lastport with
  | zero => rfl
  | succ fuel ih => rw [candidates, List.length_cons, ih]

theorem nextPort_eq {lastport : Nat} (h : lastport < 32000) :
    nextPort lastport = if lastport + 1 < 32000 then lastport + 1 else 4096 := by
  have hadd : add16 lastport 1 = lastport + 1 := add16_eq (by omega)
  simp only [nextPort, hadd]
  split <;> split <;> omega

theorem nextPort_range {lastport : Nat} (h : 1024 ≤ lastport ∧ lastport < 32000) :
    1024 < nextPort lastport ∧ nextPort lastport < 32000 := by
  rw [nextPort_eq h.2]
  split <;> omega

theorem candidates_range {fuel lastport port : Nat} (h : 1024 ≤ lastport ∧ lastport < 32000)
    (hport : port ∈ candidates fuel lastport) : 1024 < port ∧ port < 32000 := by
  induction fuel generalizing lastport with
  | zero => cases hport
  | succ fuel ih =>
    have hnext := nextPort_range h
    rcases List.mem_cons.mp hport with rfl | hrest
    · exact hnext
    · exact ih ⟨Nat.le_of_lt hnext.1, hnext.2⟩ hrest

/-- A candidate is above `lastport`, or behind the wrap. -/
theorem candidates_near {fuel lastport port : Nat} (h : lastport < 32000) (hport : port ∈ candidates fuel lastport) :
    (lastport < port ∧ port < 32000 ∧ port ≤ lastport + fuel) ∨ (4096 ≤ port ∧ port + 27904 ≤ lastport + fuel) := by
  induction fuel generalizing lastport with
  | zero => cases hport
  | succ fuel ih =>
    rw [candidates, nextPort_eq h] at hport
    split at hport
    · rcases List.mem_cons.mp hport with rfl | hrest
      · omega
      · have hnear := ih (by omega) hrest
        omega
    · rcases List.mem_cons.mp hport with rfl | hrest
      · omega
      · have hnear := ih (by omega) hrest
        omega

theorem candidates_nodup {fuel lastport : Nat} (h : lastport < 32000) (hfuel : fuel ≤ 27904) :
    (candidates fuel lastport).Nodup := by
  induction fuel generalizing lastport with
  | zero => exact List.nodup_nil
  | succ fuel ih =>
    have hnext : nextPort lastport < 32000 := by
      rw [nextPort_eq h]
      split <;> omega
    refine List.nodup_cons.mpr ⟨fun hmem => ?_, ih hnext (by omega)⟩
    have hnear := candidates_near hnext hmem
    omega

-- ---------------------------------------------------------------------------
-- One of them is free
-- ---------------------------------------------------------------------------

theorem htons_injective {v w : Nat} (hv : v < 65536) (hw : w < 65536) (h : htons v = htons w) : v = w := by
  rw [htons, htons] at h
  omega

/-- Of more ports than there are owners one has no owner. -/
theorem exists_free {n : Nat} {l : List Nat} (hl : l.Nodup) (hport : ∀ port ∈ l, port < 65536) (owner : Fin n → Nat)
    (hn : n < l.length) : ∃ port ∈ l, ∀ i, owner i ≠ htons port := by
  by_contra hnone
  push Not at hnone
  have hsub : l.map htons ⊆ (List.finRange n).map owner := by
    intro x hx
    obtain ⟨port, hmem, rfl⟩ := List.mem_map.mp hx
    obtain ⟨i, hi⟩ := hnone port hmem
    exact List.mem_map.mpr ⟨i, List.mem_finRange i, hi⟩
  have hnodup : (l.map htons).Nodup := hl.map_on fun v hv w hw heq => htons_injective (hport v hv) (hport w hw) heq
  have hle := (List.subperm_of_subset hnodup hsub).length_le
  rw [List.length_map, List.length_map, List.length_finRange] at hle
  omega

theorem localPort_found {n fuel lastport : Nat} (inUse : Nat → Bool) (h : 1024 ≤ lastport ∧ lastport < 32000)
    (hfuel : fuel ≤ 27904) (owner : Fin n → Nat) (hn : n < fuel) (howner : ∀ port, inUse port → ∃ i, owner i = port) :
    ∃ port, localPort inUse fuel lastport = some port ∧ 1024 < port ∧ port < 32000 := by
  have hrange : ∀ port ∈ candidates fuel lastport, port < 65536 := fun port hmem => by
    have hlt := (candidates_range h hmem).2
    omega
  obtain ⟨free, hmem, hfree⟩ := exists_free (candidates_nodup h.2 hfuel) hrange owner (by rwa [candidates_length])
  rw [localPort_eq]
  cases hfind : (candidates fuel lastport).find? fun port => !inUse (htons port) with
  | none =>
    have hused := List.find?_eq_none.mp hfind free hmem
    obtain ⟨i, hi⟩ := howner (htons free) (by simpa using hused)
    exact absurd hi (hfree i)
  | some port => exact ⟨port, rfl, candidates_range h (List.mem_of_find?_eq_some hfind)⟩

-- ---------------------------------------------------------------------------
-- Runs
-- ---------------------------------------------------------------------------

theorem localPort_range {inUse : Nat → Bool} {fuel lastport port : Nat} (h : 1024 ≤ lastport ∧ lastport < 32000)
    (hport : localPort inUse fuel lastport = some port) : 1024 ≤ port ∧ port < 32000 := by
  rw [localPort_eq] at hport
  have hrange := candidates_range h (List.mem_of_find?_eq_some hport)
  exact ⟨Nat.le_of_lt hrange.1, hrange.2⟩

theorem PieceStep.lastport_range (h : PieceStep s p s') (hs : 1024 ≤ s.uip.lastport ∧ s.uip.lastport < 32000) :
    1024 ≤ s'.uip.lastport ∧ s'.uip.lastport < 32000 := by
  rcases h.lastport with hsame | ⟨inUse, fuel, hport⟩
  · rwa [hsame]
  · exact localPort_range hs hport

/-- In every state that can be reached the two searches end, with a port that no
connection has. -/
theorem local_port {ram : Nat → Byte} {transmissions : List Transmission} {mac : List Byte} {now : BitVec 32}
    (h : Lib.Run PieceStep (System.init ram transmissions mac now) ps s) :
    (∀ ripaddr rport, ∃ s' conn, s.uipConnect ripaddr rport = some (s', conn) ∧
      1024 < s'.uip.lastport ∧ s'.uip.lastport < 32000 ∧
        ∀ c, (s.uipConns c).tcpstateflags ≠ TcpState.UIP_CLOSED → (s.uipConns c).lport ≠ htons s'.uip.lastport) ∧
    ∀ ripaddr rport, ∃ s' conn, s.uipUdpNew ripaddr rport = some (s', conn) ∧
      1024 < s'.uip.lastport ∧ s'.uip.lastport < 32000 ∧ ∀ i, (s.uipUdpConns i).lport ≠ htons s'.uip.lastport := by
  have hs : 1024 ≤ s.uip.lastport ∧ s.uip.lastport < 32000 :=
    h.invariant (fun hs hstep => hstep.lastport_range hs) ⟨Nat.le_refl 1024, (by decide : 1024 < 32000)⟩
  constructor
  · intro ripaddr rport
    let inUse (port : Nat) : Bool := (List.finRange UIP_CONNS).any fun c =>
      (s.uipConns c).tcpstateflags ≠ TcpState.UIP_CLOSED ∧ (s.uipConns c).lport = port
    obtain ⟨port, hport, hlow, hhigh⟩ := localPort_found inUse hs (by decide : UIP_CONNS + 1 ≤ 27904)
      (fun c => (s.uipConns c).lport) (Nat.lt_succ_self UIP_CONNS) fun port hin => by
        obtain ⟨c, -, hc⟩ := List.any_eq_true.mp hin
        exact ⟨c, (of_decide_eq_true hc).2⟩
    have hunused := UIPUDP.localPort_unused hport
    have hfree : ∀ c, (s.uipConns c).tcpstateflags ≠ TcpState.UIP_CLOSED → (s.uipConns c).lport ≠ htons port := by
      intro c hopen heq
      exact List.any_eq_false.mp hunused c (List.mem_finRange c) (decide_eq_true ⟨hopen, heq⟩)
    have hconnect : ∃ s' conn, s.uipConnect ripaddr rport = some (s', conn) ∧ s'.uip.lastport = port := by
      simp only [uipConnect, Option.bind_eq_bind]
      rw [show localPort (fun port => (List.finRange UIP_CONNS).any fun c => decide
        ((s.uipConns c).tcpstateflags ≠ TcpState.UIP_CLOSED ∧ (s.uipConns c).lport = port)) (UIP_CONNS + 1)
          s.uip.lastport = some port from hport, Option.bind_some]
      split
      · exact ⟨_, _, rfl, rfl⟩
      · exact ⟨_, _, rfl, rfl⟩
    obtain ⟨s', conn, hconnect, hlast⟩ := hconnect
    exact ⟨s', conn, hconnect, hlast ▸ hlow, hlast ▸ hhigh, hlast ▸ hfree⟩
  · intro ripaddr rport
    let inUse (port : Nat) : Bool := (List.finRange UIP_UDP_CONNS).any fun i => (s.uipUdpConns i).lport = port
    obtain ⟨port, hport, hlow, hhigh⟩ := localPort_found inUse hs (by decide : UIP_UDP_CONNS + 1 ≤ 27904)
      (fun i => (s.uipUdpConns i).lport) (Nat.lt_succ_self UIP_UDP_CONNS) fun port hin => by
        obtain ⟨i, -, hi⟩ := List.any_eq_true.mp hin
        exact ⟨i, of_decide_eq_true hi⟩
    have hunused := UIPUDP.localPort_unused hport
    have hfree : ∀ i, (s.uipUdpConns i).lport ≠ htons port := by
      intro i heq
      exact List.any_eq_false.mp hunused i (List.mem_finRange i) (decide_eq_true heq)
    have hnew : ∃ s' conn, s.uipUdpNew ripaddr rport = some (s', conn) ∧ s'.uip.lastport = port := by
      simp only [uipUdpNew, Option.bind_eq_bind]
      rw [show localPort (fun port => (List.finRange UIP_UDP_CONNS).any fun i => decide
        ((s.uipUdpConns i).lport = port)) (UIP_UDP_CONNS + 1) s.uip.lastport = some port from hport, Option.bind_some]
      split
      · exact ⟨_, _, rfl, rfl⟩
      · exact ⟨_, _, rfl, rfl⟩
    obtain ⟨s', conn, hnew, hlast⟩ := hnew
    exact ⟨s', conn, hnew, hlast ▸ hlow, hlast ▸ hhigh, hlast ▸ hfree⟩

/-- The second connection gets another port than the first. -/
theorem local_port_example : ∃ s s' : System, ∃ conn, (s.uipConns 0).tcpstateflags.state = TcpState.UIP_SYN_SENT ∧
    s.uipConnect 0x0a000002 (htons 7) = some (s', conn) ∧ (s.uipConns 0).lport ≠ htons s'.uip.lastport := by
  have hcompute : ((System.init (fun _ => 0) [] [] 0).step (.connect 0x0a000002 7)).map (fun s =>
      decide ((s.uipConns 0).tcpstateflags.state = TcpState.UIP_SYN_SENT)) = some true := by
    decide +kernel
  obtain ⟨s, hconnect, hcompute⟩ := Option.map_eq_some_iff.mp hcompute
  have hsyn := of_decide_eq_true hcompute
  have hrun : Lib.Run PieceStep (System.init (fun _ => 0) [] [] 0) [.call (.connect 0x0a000002 7)] s :=
    .snoc .nil (.call (by rintro _ _ ⟨⟩) hconnect)
  obtain ⟨s', conn, hagain, -, -, hfree⟩ := (local_port hrun).1 0x0a000002 (htons 7)
  refine ⟨s, s', conn, hsyn, hagain, hfree 0 fun hclosed => ?_⟩
  rw [hclosed] at hsyn
  cases hsyn

end System

end UIPEthernet
