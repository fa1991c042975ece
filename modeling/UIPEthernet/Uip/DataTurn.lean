import UIPEthernet.Headers.Fields
import UIPEthernet.Uip.Turn
import UIPEthernet.UIPClient.Offer

/-!
# The turns of the timer that send data

Only a poll and a retransmission take bytes from `packets_out`.
-/

namespace UIPEthernet.System

open TcpState UIPClient Enc28J60Network

/-- What is done before the callback of a poll or a retransmission. -/
structure Ticked (c : Fin UIP_CONNS) (s s₁ : System) : Prop extends Goes c s s₁ where
  atPayload : AtPayload s₁
  len : (s₁.uipConns c).len = (s.uipConns c).len
  mss : (s₁.uipConns c).mss = (s.uipConns c).mss
  ripaddr : (s₁.uipConns c).ripaddr = (s.uipConns c).ripaddr
  routes : s₁.uip.routes = s.uip.routes

/-- A run of `uip_process` for the timer or a poll: without the callback, with
the one for a connection that has timed out, or with one that is asked for
data. -/
inductive DataTurn (c : Fin UIP_CONNS) (s s' : System) : Prop
  | quiet (h : Goes c s s')
  | timedOut (s₁ s₂ : System) (hpre : Stays c s s₁) (hflags : s₁.uip.uipFlags = UIP_TIMEDOUT)
      (hcall : uipclientAppcall s₁ c = some s₂) (hpost : s₂.tcpSendNodata c (TCP_RST ||| TCP_ACK) = some s')
  | poll (s₁ s₂ : System) (hpre : Ticked c s s₁) (hflags : s₁.uip.uipFlags = UIP_POLL)
      (hest : (s.uipConns c).tcpstateflags.state = UIP_ESTABLISHED) (hlen : (s.uipConns c).len = 0)
      (hcall : uipclientAppcall s₁ c = some s₂) (hpost : s₂.appsend c = some s')
  | rexmit (s₁ s₂ : System) (hpre : Ticked c s s₁) (hflags : s₁.uip.uipFlags = UIP_REXMIT)
      (hest : (s.uipConns c).tcpstateflags.state = UIP_ESTABLISHED) (hlen : (s.uipConns c).len ≠ 0)
      (htimer : (s.uipConns c).timer = 0) (hnrtx : (s.uipConns c).nrtx ≠ UIP_MAXRTX)
      (hcall : uipclientAppcall s₁ c = some s₂) (hpost : s₂.apprexmit c = some s')

variable {s s' s₁ s₂ : System} {c u : Fin UIP_CONNS} {out : List Byte}

theorem Ticked.of_only (h : OnlyUip s s₁) (happ : AtPayload s₁) (hroutes : s₁.uip.routes = s.uip.routes) :
    Ticked c s s₁ :=
  ⟨h.goes, happ, by rw [h.uipConns], by rw [h.uipConns], by rw [h.uipConns], hroutes⟩

theorem Ticked.setFlags (h : Ticked c s s₁) (flags : BitVec 8) : Ticked c s (s₁.setFlags flags) :=
  ⟨h.toGoes.trans (setFlags_only flags).goes, h.atPayload, h.len, h.mss, h.ripaddr, h.routes⟩

/-- The timers of the connection. -/
theorem Ticked.timers (h : Ticked c s s₁) {f : Conn → Conn}
    (hf : ∀ conn, ∃ timer nrtx, f conn = { conn with timer, nrtx }) : Ticked c s (s₁.mapConn c f) := by
  obtain ⟨timer, nrtx, hconn⟩ := hf (s₁.uipConns c)
  refine ⟨h.toGoes.trans (mapConn_goes f ?_ ?_ ?_ ?_), h.atPayload, ?_, ?_, ?_, h.routes⟩
  · rw [hconn]
  · rw [hconn]
  · rw [hconn]
  · rw [hconn]
    exact id
  · rw [mapConn_self, hconn]
    exact h.len
  · rw [mapConn_self, hconn]
    exact h.mss
  · rw [mapConn_self, hconn]
    exact h.ripaddr

theorem uipPoll_data (h : s.uipPoll c = some s') : DataTurn c s s' := by
  simp only [uipPoll] at h
  split at h
  · rename_i hest
    obtain ⟨s₂, hcall, hpost⟩ := Option.bind_eq_some_iff.mp h
    have hlen : (s.uipConns c).len = 0 := by simpa [Conn.outstanding, initAppdata, setAppdata] using hest.2
    exact .poll (s.initAppdata.setFlags UIP_POLL) s₂ (.of_only rfl rfl rfl) rfl hest.1 hlen hcall hpost
  · cases h
    exact .quiet (OnlyUip.goes rfl)

theorem retransmit_data (hpre : Ticked c s s₁) (hlen : (s.uipConns c).len ≠ 0) (htimer : (s.uipConns c).timer = 0)
    (hnrtx : (s.uipConns c).nrtx ≠ UIP_MAXRTX)
    (hsame : (s₁.uipConns c).tcpstateflags = (s.uipConns c).tcpstateflags) (h : s₁.retransmit c = some s') :
    DataTurn c s s' := by
  unfold retransmit at h
  split at h
  · exact .quiet (hpre.toGoes.trans (tcpSendSyn_only h).goes)
  · exact .quiet (hpre.toGoes.trans (tcpSendSyn_only h).goes)
  · rename_i hest
    obtain ⟨s₂, hcall, hpost⟩ := Option.bind_eq_some_iff.mp h
    exact .rexmit (s₁.setFlags UIP_REXMIT) s₂ (hpre.setFlags _) rfl (hsame ▸ hest) hlen htimer
      hnrtx hcall hpost
  · exact .quiet (hpre.toGoes.trans (tcpSendNodata_only h).goes)
  · exact .quiet (hpre.toGoes.trans (tcpSendNodata_only h).goes)
  · exact .quiet (hpre.toGoes.trans (tcpSendNodata_only h).goes)
  · cases h
    exact .quiet (hpre.toGoes.trans drop_only.goes)

theorem rexmitTimer_data (hpre : Ticked c s s₁) (hconns : s₁.uipConns = s.uipConns) (hlen : (s.uipConns c).len ≠ 0)
    (h : s₁.rexmitTimer c = some s') : DataTurn c s s' := by
  simp only [rexmitTimer, hconns] at h
  have htick := hpre.timers fun conn => ⟨conn.timer - 1, conn.nrtx, rfl⟩
  split at h
  · rename_i htimer
    split at h
    · obtain ⟨s₂, hcall, hpost⟩ := Option.bind_eq_some_iff.mp h
      exact .timedOut ((setTcpState _ c UIP_CLOSED).setFlags UIP_TIMEDOUT) s₂
        ((htick.toStays.trans (setTcpState_stays _)).trans (setFlags_only _).goes.toStays) rfl hcall hpost
    · rename_i hmax
      refine retransmit_data (htick.timers fun conn => ⟨_, _, rfl⟩) hlen htimer (fun h => hmax (.inl h)) ?_ h
      rw [mapConn_self, mapConn_self, hconns]
  · cases h
    exact .quiet (htick.toGoes.trans drop_only.goes)

theorem uipTimer_data (h : s.uipTimer c = some s') : DataTurn c s s' := by
  simp only [uipTimer] at h
  generalize hs₀ : (s.initAppdata.incIss.setLen 0).setSlen 0 = s₀ at h
  have h₀ : OnlyUip s s₀ := by rw [← hs₀]; rfl
  have hpre : Ticked c s s₀ := .of_only h₀ (by rw [← hs₀]; rfl) (by rw [← hs₀]; rfl)
  have hconns := h₀.uipConns
  split at h
  · rename_i hwait
    have htick := hpre.timers fun conn => ⟨conn.timer + 1, conn.nrtx, rfl⟩
    cases h
    refine .quiet (Goes.trans ?_ drop_only.goes)
    split
    · refine htick.toGoes.trans (mapConn_idle _ ?_ rfl rfl rfl id)
      rw [mapConn_self]
      rcases hwait with hw | hw <;> rw [hw] <;> decide
    · exact htick.toGoes
  · split at h
    · cases h
      exact .quiet (hpre.toGoes.trans drop_only.goes)
    · rw [hconns] at h
      split at h
      · rename_i hout
        exact rexmitTimer_data hpre hconns (by simpa [Conn.outstanding] using hout) h
      · rename_i hout
        split at h
        · rename_i hest
          obtain ⟨s₂, hcall, hpost⟩ := Option.bind_eq_some_iff.mp h
          have hlen : (s.uipConns c).len = 0 := by simpa [Conn.outstanding] using hout
          exact .poll (s₀.setFlags UIP_POLL) s₂ (hpre.setFlags _) rfl hest hlen hcall hpost
        · cases h
          exact .quiet (hpre.toGoes.trans drop_only.goes)

-- ---------------------------------------------------------------------------
-- The callback of a turn
-- ---------------------------------------------------------------------------

theorem appcall_polled (happ : (s.uipConns c).appstate = some u)
    (hflags : s.uip.uipFlags = UIP_POLL ∨ s.uip.uipFlags = UIP_REXMIT) :
    uipclientAppcall s c = polled (restart s c u) c u := by
  have hattach : attach s c = s := if_neg fun h => Option.some_ne_none u (happ.symm.trans h.1)
  rw [← serve_turn hflags]
  simp only [uipclientAppcall, hattach, happ]

/-- The callback leaves the bytes it offers in the packet, or offers none. -/
theorem appcall_offers (happ : (s.uipConns c).appstate = some u)
    (hflags : s.uip.uipFlags = UIP_POLL ∨ s.uip.uipFlags = UIP_REXMIT) (hat : AtPayload s) (ho : Offerable s u out)
    (h : uipclientAppcall s c = some s') :
    s'.uip.uipSlen = 0 ∨ sendLength s u ≠ 0 ∧ ∃ s₁, s' = (s₁.setSlen (sendLength s u)).setLen (sendLength s u) ∧ AtPayload s₁ ∧
      Prepared (cutHead (restart s c u) u) c u (out.take (sendLength s u)) s₁ := by
  rw [appcall_polled happ hflags] at h
  have ho' : Offerable (restart s c u) u out := restart_offerable ho
  have hpolled : has (restart s c u).uip.uipFlags (UIP_POLL ||| UIP_REXMIT) := by
    rcases restart_only_flags (s := s) (c := c) (u := u) with hr | hr <;> rw [hr] <;>
      rcases hflags with hf | hf <;> rw [hf] <;> decide
  by_cases hnone : sendLength s u = 0
  · refine .inl ?_
    have hoffer : offer (restart s c u) c u = some (restart s c u, 0) := if_pos (restart_sendLength.trans hnone)
    rw [polled, if_pos ⟨hpolled, ho'.head_ne⟩, hoffer] at h
    cases h
    exact finish_slen 0
  · obtain ⟨s₁, hrun, hat₁, hp⟩ := polled_ok (c := c) ho' (restart_atPayload hat) hpolled
      (restart_sendLength.symm ▸ hnone)
    rw [restart_sendLength] at hrun hp
    exact .inr ⟨hnone, s₁, Option.some.inj (h.symm.trans hrun), hat₁, hp⟩

/-- A new segment of what the callback has put into the packet. -/
theorem appsend_new (hflags : s.uip.uipFlags = UIP_POLL ∨ s.uip.uipFlags = UIP_POLL ||| UIP_NEWDATA)
    (hslen : 0 < s.uip.uipSlen) (hlen : (s.uipConns c).len = 0) :
    ∃ t : System, s.appsend c = t.apprexmit c ∧ t.uip.uipSlen = min s.uip.uipSlen (s.uipConns c).mss ∧
      (t.uipConns c).len = t.uip.uipSlen ∧ t.net = s.net ∧ t.packetstate = s.packetstate ∧
      t.uipPacket = s.uipPacket ∧ t.uipHdrlen = s.uipHdrlen ∧ (t.uipConns c).ripaddr = (s.uipConns c).ripaddr ∧
      t.uip.routes = s.uip.routes := by
  have hnot : ∀ f ∈ [UIP_ABORT, UIP_CLOSE, UIP_ACKDATA], ¬has s.uip.uipFlags f := by
    rcases hflags with hf | hf <;> rw [hf] <;> decide
  let m := min s.uip.uipSlen (s.uipConns c).mss
  let t := ((s.setSlen m).mapConn c fun conn => { conn with len := m }).mapConn c fun conn => { conn with nrtx := 0 }
  have hseg : s.segment c = (s.setSlen m).mapConn c fun conn => { conn with len := m } := by
    simp only [segment, if_pos hslen]
    rw [if_neg (hnot UIP_ACKDATA (by decide)), if_pos hlen]
  refine ⟨t, ?_, rfl, ?_, rfl, rfl, rfl, rfl, ?_, rfl⟩
  · rw [appsend, if_neg (hnot UIP_ABORT (by decide)), if_neg (hnot UIP_CLOSE (by decide)), hseg]
  · simp only [t]
    rw [mapConn_self, mapConn_self]
    rfl
  · simp only [t]
    rw [mapConn_self, mapConn_self]
    rfl

end UIPEthernet.System
