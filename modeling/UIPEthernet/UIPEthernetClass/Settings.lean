import UIPEthernet.UIPEthernetClass.Pieces
import UIPEthernet.UIPClient.Outcome
import UIPEthernet.UIPUdp.Calls
import UIPEthernet.UIPClient.Calls

/-!
# What the stack keeps to itself

The addresses of this host, its listening ports, the last local port and the
ARP table are changed by few functions: `configure`, `uip_listen`, the search
for a local port, and the two functions of `uip_arp.c` that look at a frame.
Everything else leaves them.
-/

namespace UIPEthernet

structure Settings where
  hostaddr : BitVec 32
  draddr : BitVec 32
  netmask : BitVec 32
  ethaddr : List Byte
  listenports : Fin UIP_LISTENPORTS → Nat
  lastport : Nat
  arpTable : Fin UIP_ARPTAB_SIZE → ArpEntry
  arptime : BitVec 8

def Uip.settings (u : Uip) : Settings where
  hostaddr := u.uipHostaddr
  draddr := u.uipDraddr
  netmask := u.uipNetmask
  ethaddr := u.uipEthaddr
  listenports := u.uipListenports
  lastport := u.lastport
  arpTable := u.arpTable
  arptime := u.arptime

variable {s s' s₁ : System} {c : Fin UIP_CONNS}

namespace System

section
variable (s : System)

@[simp] theorem setLen_settings (n : Nat) : (s.setLen n).uip.settings = s.uip.settings := rfl

@[simp] theorem setSlen_settings (n : Nat) : (s.setSlen n).uip.settings = s.uip.settings := rfl

@[simp] theorem setFlags_settings (flags : BitVec 8) : (s.setFlags flags).uip.settings = s.uip.settings := rfl

@[simp] theorem setAppdata_settings (n : Nat) : (s.setAppdata n).uip.settings = s.uip.settings := rfl

@[simp] theorem mapBuf_settings (f : Buf → Buf) : (s.mapBuf f).uip.settings = s.uip.settings := rfl

@[simp] theorem setUipPacket_settings (h : Handle) : (s.setUipPacket h).uip.settings = s.uip.settings := rfl

@[simp] theorem setPacketstate_settings (f : BitVec 8) : (s.setPacketstate f).uip.settings = s.uip.settings := rfl

@[simp] theorem setHdrlen_settings (n : Nat) : (s.setHdrlen n).uip.settings = s.uip.settings := rfl

@[simp] theorem drop_settings : s.drop.uip.settings = s.uip.settings := rfl

end

end System

-- ---------------------------------------------------------------------------
-- The callbacks
-- ---------------------------------------------------------------------------

namespace UIPClient

variable {u : Fin UIP_CONNS} {sendLen : Nat}

theorem restart_settings : (restart s c u).uip.settings = s.uip.settings := by
  rw [restart]
  split <;> rfl

theorem finish_settings : (finish s sendLen).uip.settings = s.uip.settings := by
  simp only [finish]
  split <;> rfl

theorem closing_settings : (closing s c u).uip.settings = s.uip.settings := by
  rw [closing]
  split
  · split <;> rfl
  · rfl

theorem closed_settings (h : closed s c u = some s') : s'.uip.settings = s.uip.settings := by
  simp only [closed, flushOut, Option.bind_eq_bind, Option.pure_def, Option.bind_eq_some_iff] at h
  obtain ⟨_, ⟨_, _, h'⟩, h⟩ := h
  cases h'
  cases h
  split <;> rfl

theorem polled_settings (h : polled s c u = some s') : s'.uip.settings = s.uip.settings := by
  simp only [polled, Option.bind_eq_bind, Option.pure_def] at h
  split at h
  · obtain ⟨⟨s₁, sendLen⟩, hoffer, h⟩ := Option.bind_eq_some_iff.mp h
    cases h
    exact finish_settings.trans (congrArg Uip.settings (offer_uip hoffer))
  · cases h
    exact finish_settings.trans closing_settings

theorem serve_settings (h : serve s c u = some s') : s'.uip.settings = s.uip.settings := by
  simp only [serve, Option.bind_eq_bind, Option.pure_def] at h
  obtain ⟨s₁, hnew, h⟩ := Option.bind_eq_some_iff.mp h
  have h₁ : (restart s₁ c u).uip.settings = s.uip.settings :=
    restart_settings.trans (congrArg Uip.settings (newdata_uip hnew))
  split at h
  · obtain ⟨s₂, hclosed, h⟩ := Option.bind_eq_some_iff.mp h
    cases h
    exact finish_settings.trans ((closed_settings hclosed).trans h₁)
  · obtain ⟨s₂, hack, h⟩ := Option.bind_eq_some_iff.mp h
    exact (polled_settings h).trans ((congrArg Uip.settings (acked_uip hack)).trans h₁)

theorem appcall_settings (h : uipclientAppcall s c = some s') : s'.uip.settings = s.uip.settings := by
  have hattach : (attach s c).uip.settings = s.uip.settings := congrArg Uip.settings attach_uip
  simp only [uipclientAppcall] at h
  split at h
  · cases h
    exact finish_settings.trans hattach
  · exact (serve_settings h).trans hattach

end UIPClient

namespace UIPUDP

variable {i : Fin UIP_UDP_CONNS} {k : Nat}

theorem queue_uip {size : Nat} (h : queue s k size = some s') : s'.uip = s.uip := by
  simp only [queue, Option.bind_eq_bind, Option.pure_def] at h
  obtain ⟨⟨net, b⟩, -, h⟩ := Option.bind_eq_some_iff.mp h
  split at h
  · cases h
    rfl
  · obtain ⟨net', -, h⟩ := Option.bind_eq_some_iff.mp h
    cases h
    rfl

theorem uipudpAppcall_settings (h : uipudpAppcall s i = some s') : s'.uip.settings = s.uip.settings := by
  simp only [uipudpAppcall, Option.bind_eq_bind, Option.pure_def] at h
  split at h
  · cases h
    rfl
  · rename_i k _
    obtain ⟨s₁, hreceived, h⟩ := Option.bind_eq_some_iff.mp h
    cases h
    have hpolled : (polled s₁ k).uip.settings = s₁.uip.settings := by
      simp only [polled]
      split
      · simp
      · rfl
    refine hpolled.trans ?_
    simp only [received] at hreceived
    split at hreceived
    · exact (congrArg Uip.settings (queue_uip hreceived)).trans rfl
    · cases hreceived
      rfl

end UIPUDP

namespace System

-- ---------------------------------------------------------------------------
-- uip_process
-- ---------------------------------------------------------------------------

theorem tcpSendNoconn_settings (h : s.tcpSendNoconn = some s') : s'.uip.settings = s.uip.settings := by
  simp only [tcpSendNoconn, Option.bind_eq_bind, Option.pure_def] at h
  obtain ⟨sum, -, h⟩ := Option.bind_eq_some_iff.mp h
  cases h
  rfl

theorem tcpSend_settings (h : s.tcpSend c = some s') : s'.uip.settings = s.uip.settings :=
  (tcpSendNoconn_settings h).trans rfl

theorem tcpSendNodata_settings {flags : Byte} (h : s.tcpSendNodata c flags = some s') : s'.uip.settings = s.uip.settings :=
  (tcpSend_settings h).trans rfl

theorem tcpSendSyn_settings {flags : Byte} (h : s.tcpSendSyn c flags = some s') : s'.uip.settings = s.uip.settings :=
  (tcpSend_settings h).trans rfl

theorem reset_settings (h : s.reset = some s') : s'.uip.settings = s.uip.settings := by
  simp only [reset] at h
  split at h
  · cases h
    rfl
  · exact (tcpSendNoconn_settings h).trans rfl

theorem udpSend_settings {i : Fin UIP_UDP_CONNS} (h : s.udpSend i = some s') : s'.uip.settings = s.uip.settings := by
  simp only [udpSend] at h
  split at h
  · cases h
    rfl
  · obtain ⟨sum, -, h⟩ := Option.bind_eq_some_iff.mp h
    cases h
    rfl

theorem apprexmit_settings (h : s.apprexmit c = some s') : s'.uip.settings = s.uip.settings := by
  simp only [apprexmit] at h
  split at h
  · exact (tcpSend_settings h).trans rfl
  · split at h
    · exact (tcpSend_settings h).trans rfl
    · cases h
      rfl

theorem segment_settings : (s.segment c).uip.settings = s.uip.settings := by
  simp only [segment]
  split
  · split <;> split <;> rfl
  · rfl

theorem appsend_settings (h : s.appsend c = some s') : s'.uip.settings = s.uip.settings := by
  simp only [appsend] at h
  split at h
  · exact (tcpSendNodata_settings h).trans rfl
  · split at h
    · exact (tcpSendNodata_settings h).trans rfl
    · exact (apprexmit_settings h).trans segment_settings

theorem appcall_settings {flags : BitVec 8} (h : s.appcall c flags = some s') : s'.uip.settings = s.uip.settings :=
  (UIPClient.appcall_settings h).trans rfl

/-- A callback and the answer to it. -/
theorem asked_settings {flags : BitVec 8} (h : (s.appcall c flags).bind (fun s => s.appsend c) = some s') :
    s'.uip.settings = s.uip.settings := by
  obtain ⟨s₁, hcall, h⟩ := Option.bind_eq_some_iff.mp h
  exact (appsend_settings h).trans (appcall_settings hcall)

theorem retransmit_settings (h : s.retransmit c = some s') : s'.uip.settings = s.uip.settings := by
  unfold retransmit at h
  split at h
  · exact tcpSendSyn_settings h
  · exact tcpSendSyn_settings h
  · obtain ⟨s₁, hcall, h⟩ := Option.bind_eq_some_iff.mp h
    exact (apprexmit_settings h).trans (appcall_settings hcall)
  · exact tcpSendNodata_settings h
  · exact tcpSendNodata_settings h
  · exact tcpSendNodata_settings h
  · cases h
    rfl

theorem rexmitTimer_settings (h : s.rexmitTimer c = some s') : s'.uip.settings = s.uip.settings := by
  simp only [rexmitTimer] at h
  split at h
  · split at h
    · obtain ⟨s₁, hcall, h⟩ := Option.bind_eq_some_iff.mp h
      exact (tcpSendNodata_settings h).trans ((appcall_settings hcall).trans rfl)
    · exact (retransmit_settings h).trans rfl
  · cases h
    rfl

theorem uipTimer_settings (h : s.uipTimer c = some s') : s'.uip.settings = s.uip.settings := by
  simp only [uipTimer] at h
  split at h
  · cases h
    split <;> rfl
  · split at h
    · cases h
      rfl
    · split at h
      · exact (rexmitTimer_settings h).trans rfl
      · split at h
        · exact (asked_settings h).trans rfl
        · cases h
          rfl

theorem uipPoll_settings (h : s.uipPoll c = some s') : s'.uip.settings = s.uip.settings := by
  simp only [uipPoll] at h
  split at h
  · exact (asked_settings h).trans rfl
  · cases h
    rfl

theorem uipUdpTimer_settings {i : Fin UIP_UDP_CONNS} (h : s.uipUdpTimer i = some s') : s'.uip.settings = s.uip.settings := by
  simp only [uipUdpTimer] at h
  split at h
  · obtain ⟨s₁, hcall, h⟩ := Option.bind_eq_some_iff.mp h
    exact (udpSend_settings h).trans ((UIPUDP.uipudpAppcall_settings hcall).trans rfl)
  · cases h
    rfl

theorem udpInput_settings (h : s.udpInput = some s') : s'.uip.settings = s.uip.settings := by
  simp only [udpInput, Option.bind_eq_bind, Option.pure_def] at h
  have hpre := ((s.setLen (sub16 s.uip.uipLen UIP_IPUDPH_LEN)).setAppdata_settings (UIP_LLH_LEN + UIP_IPUDPH_LEN)).trans
    (s.setLen_settings (sub16 s.uip.uipLen UIP_IPUDPH_LEN))
  generalize (s.setLen (sub16 s.uip.uipLen UIP_IPUDPH_LEN)).setAppdata (UIP_LLH_LEN + UIP_IPUDPH_LEN) = s₀ at h hpre
  refine Eq.trans ?_ hpre
  split at h <;> obtain ⟨sum, -, h⟩ := Option.bind_eq_some_iff.mp h
  all_goals
    split at h
    · cases h
      exact drop_settings _
    · split at h
      · cases h
        exact drop_settings _
      · obtain ⟨s₁, hcall, h⟩ := Option.bind_eq_some_iff.mp h
        exact (udpSend_settings h).trans ((UIPUDP.uipudpAppcall_settings hcall).trans (by simp))

theorem icmpInput_settings : s.icmpInput.uip.settings = s.uip.settings := by
  simp only [icmpInput]
  split <;> rfl

theorem parseMss_settings (h : s.parseMss c = some s') : s'.uip.settings = s.uip.settings := by
  simp only [parseMss, Option.bind_eq_bind, Option.pure_def] at h
  split at h
  · obtain ⟨mss, -, h⟩ := Option.bind_eq_some_iff.mp h
    cases mss <;> cases h <;> rfl
  · cases h
    rfl

theorem foundListen_settings (h : s.foundListen = some s') : s'.uip.settings = s.uip.settings := by
  simp only [foundListen] at h
  split at h
  · cases h
    rfl
  · obtain ⟨s₁, hmss, h⟩ := Option.bind_eq_some_iff.mp h
    exact (tcpSendSyn_settings h).trans ((parseMss_settings hmss).trans rfl)

theorem synRcvdInput_settings (h : s.synRcvdInput c = some s') : s'.uip.settings = s.uip.settings := by
  simp only [synRcvdInput] at h
  split at h
  · refine (asked_settings h).trans ?_
    split <;> rfl
  · cases h
    rfl

theorem synSentInput_settings (h : s.synSentInput c = some s') : s'.uip.settings = s.uip.settings := by
  simp only [synSentInput] at h
  split at h
  · obtain ⟨s₁, hmss, h⟩ := Option.bind_eq_some_iff.mp h
    exact (asked_settings h).trans (Eq.trans (by simp) (parseMss_settings hmss))
  · obtain ⟨s₁, hcall, h⟩ := Option.bind_eq_some_iff.mp h
    exact (reset_settings h).trans (Eq.trans (by simp [setTcpState]) (appcall_settings hcall))

theorem finInput_settings (h : s.finInput c = some s') : s'.uip.settings = s.uip.settings := by
  simp only [finInput] at h
  split at h
  · cases h
    rfl
  · obtain ⟨s₁, hcall, h⟩ := Option.bind_eq_some_iff.mp h
    exact (tcpSendNodata_settings h).trans ((appcall_settings hcall).trans rfl)

theorem establishedInput_settings (h : s.establishedInput c = some s') : s'.uip.settings = s.uip.settings := by
  simp only [establishedInput] at h
  split at h
  · exact finInput_settings h
  · have hdata : (s.skipUrgent.acceptData c).uip.settings = s.uip.settings := by
      have hskip : s.skipUrgent.uip.settings = s.uip.settings := by
        simp only [skipUrgent]
        split <;> rfl
      refine Eq.trans ?_ hskip
      rw [acceptData]
      split <;> rfl
    split at h
    · exact (asked_settings h).trans hdata
    · cases h
      exact hdata

theorem finWaitFin_settings (h : s.finWaitFin c = some s') : s'.uip.settings = s.uip.settings := by
  obtain ⟨s₁, hcall, h⟩ := Option.bind_eq_some_iff.mp h
  exact (tcpSendNodata_settings h).trans ((appcall_settings hcall).trans rfl)

theorem countData_settings : (if 0 < s.uip.uipLen then s.addRcvNxt c s.uip.uipLen else s).uip.settings = s.uip.settings := by
  split <;> rfl

theorem finWait1Input_settings (h : s.finWait1Input c = some s') : s'.uip.settings = s.uip.settings := by
  simp only [finWait1Input] at h
  have hdata := countData_settings (s := s) (c := c)
  generalize (if 0 < s.uip.uipLen then s.addRcvNxt c s.uip.uipLen else s) = s₁ at h hdata
  refine Eq.trans ?_ hdata
  split at h
  · exact (finWaitFin_settings h).trans rfl
  · split at h
    · cases h
      rfl
    · split at h
      · exact tcpSendNodata_settings h
      · cases h
        rfl

theorem finWait2Input_settings (h : s.finWait2Input c = some s') : s'.uip.settings = s.uip.settings := by
  simp only [finWait2Input] at h
  have hdata := countData_settings (s := s) (c := c)
  generalize (if 0 < s.uip.uipLen then s.addRcvNxt c s.uip.uipLen else s) = s₁ at h hdata
  refine Eq.trans ?_ hdata
  split at h
  · exact (finWaitFin_settings h).trans rfl
  · split at h
    · exact tcpSendNodata_settings h
    · cases h
      rfl

theorem stateInput_settings (h : s.stateInput c = some s') : s'.uip.settings = s.uip.settings := by
  simp only [stateInput] at h
  split at h
  · cases h
    rfl
  · exact synRcvdInput_settings h
  · exact synSentInput_settings h
  · exact establishedInput_settings h
  · split at h
    · obtain ⟨s₁, hcall, h⟩ := Option.bind_eq_some_iff.mp h
      cases h
      exact (appcall_settings hcall).trans rfl
    · cases h
      rfl
  · exact finWait1Input_settings h
  · exact finWait2Input_settings h
  · exact tcpSendNodata_settings h
  · cases h
    split <;> rfl

theorem ackInput_settings : (s.ackInput c).uip.settings = s.uip.settings := by
  rw [ackInput]
  split <;> rfl

theorem found_settings (h : s.found c = some s') : s'.uip.settings = s.uip.settings := by
  simp only [found] at h
  split at h
  · obtain ⟨s₁, hcall, h⟩ := Option.bind_eq_some_iff.mp h
    cases h
    exact (appcall_settings hcall).trans rfl
  · have h₀ := ((s.setFlags 0).setLen_settings s.segmentLen).trans (s.setFlags_settings 0)
    split at h
    · exact (tcpSendNodata_settings h).trans h₀
    · exact (stateInput_settings h).trans (ackInput_settings.trans h₀)

theorem tcpInput_settings (h : s.tcpInput = some s') : s'.uip.settings = s.uip.settings := by
  simp only [tcpInput, Option.bind_eq_bind, Option.pure_def] at h
  obtain ⟨sum, -, h⟩ := Option.bind_eq_some_iff.mp h
  split at h
  · cases h
    rfl
  · split at h
    · exact found_settings h
    · split at h
      · exact reset_settings h
      · split at h
        · exact foundListen_settings h
        · exact reset_settings h

theorem uipInput_settings (h : s.uipInput = some s') : s'.uip.settings = s.uip.settings := by
  simp only [uipInput] at h
  have h₁ : s.initAppdata.uip.settings = s.uip.settings := setAppdata_settings _ _
  generalize s.initAppdata = s₁ at h h₁
  refine Eq.trans ?_ h₁
  split at h
  · cases h
    exact drop_settings _
  · split at h
    · cases h
      exact drop_settings _
    · have h₂ := s₁.setLen_settings (s₁.uip.uipBuf.be16 Offset.len)
      generalize s₁.setLen (s₁.uip.uipBuf.be16 Offset.len) = s₂ at h h₂
      refine Eq.trans ?_ h₂
      split at h
      · cases h
        rfl
      · split at h
        · exact udpInput_settings h
        · split at h
          · cases h
            rfl
          · split at h
            · cases h
              rfl
            · split at h
              · exact tcpInput_settings h
              · split at h
                · exact udpInput_settings h
                · split at h
                  · cases h
                    rfl
                  · cases h
                    exact icmpInput_settings

-- ---------------------------------------------------------------------------
-- Sending
-- ---------------------------------------------------------------------------

theorem networkSend_uip {ok : Bool} (h : s.networkSend = some (s', ok)) : s'.uip = s.uip := by
  simp only [networkSend, Option.bind_eq_bind, Option.pure_def] at h
  split at h
  · split at h
    · obtain ⟨net, -, h⟩ := Option.bind_eq_some_iff.mp h
      cases h
      rfl
    · cases h
      rfl
  · obtain ⟨⟨net, b⟩, -, h⟩ := Option.bind_eq_some_iff.mp h
    split at h
    · cases h
      rfl
    · obtain ⟨net', -, h⟩ := Option.bind_eq_some_iff.mp h
      cases h
      rfl

theorem arpOut_settings (u : Uip) : u.arpOut.settings = u.settings := by
  simp only [Uip.arpOut]
  split
  · rfl
  · split <;> rfl

theorem sendOut_settings (h : s.sendOut = some s') : s'.uip.settings = s.uip.settings := by
  simp only [sendOut, Option.bind_eq_bind, Option.pure_def] at h
  split at h
  · obtain ⟨⟨s₁, ok⟩, hsend, h⟩ := Option.bind_eq_some_iff.mp h
    cases h
    rw [networkSend_uip hsend]
    exact arpOut_settings _
  · cases h
    rfl

theorem udpSendOut_settings {k : Nat} (h : UIPUDP.send s k = some s') : s'.uip.settings = s.uip.settings := by
  simp only [UIPUDP.send, Option.bind_eq_bind, Option.pure_def] at h
  split at h
  · obtain ⟨⟨s₁, ok⟩, hsend, h⟩ := Option.bind_eq_some_iff.mp h
    cases h
    rw [networkSend_uip hsend]
    exact arpOut_settings _
  · obtain ⟨⟨s₁, ok⟩, hsend, h⟩ := Option.bind_eq_some_iff.mp h
    refine Eq.trans ?_ ((congrArg Uip.settings (networkSend_uip hsend)).trans (arpOut_settings _))
    split at h <;> cases h <;> rfl

theorem tickConn_settings {now nullTimer : BitVec 32} {periodic : Bool} (h : s.tickConn now nullTimer periodic c = some s') :
    s'.uip.settings = s.uip.settings := by
  simp only [tickConn, Option.bind_eq_bind, Option.pure_def] at h
  split at h
  · obtain ⟨s₁, htimer, h⟩ := Option.bind_eq_some_iff.mp h
    exact (sendOut_settings h).trans (uipTimer_settings htimer)
  · split at h
    · obtain ⟨s₁, hpoll, h⟩ := Option.bind_eq_some_iff.mp h
      exact (sendOut_settings h).trans (uipPoll_settings hpoll)
    · cases h
      rfl

theorem tickUdp_settings {i : Fin UIP_UDP_CONNS} (h : s.tickUdp i = some s') : s'.uip.settings = s.uip.settings := by
  simp only [tickUdp, Option.bind_eq_bind, Option.pure_def] at h
  obtain ⟨s₁, htimer, h⟩ := Option.bind_eq_some_iff.mp h
  refine Eq.trans ?_ (uipUdpTimer_settings htimer)
  split at h
  · split at h
    · cases h
      rfl
    · exact udpSendOut_settings h
  · cases h
    rfl

end System

-- ---------------------------------------------------------------------------
-- The frame that tick looks at
-- ---------------------------------------------------------------------------

/-- What the frame in `b`, of the length `len`, says about a neighbour. -/
def Buf.announces (b : Buf) (u : Uip) (len : Nat) : Option (BitVec 32 × List Byte) :=
  if b.be16 Offset.ethType = UIP_ETHTYPE_IP then
    if b.be32 Offset.srcipaddr &&& u.uipNetmask ≠ u.uipHostaddr &&& u.uipNetmask then none
    else some (b.be32 Offset.srcipaddr, b.ethaddr Offset.ethSrc)
  else if b.be16 Offset.ethType = UIP_ETHTYPE_ARP then
    if len < UIP_ARPHDRSIZE ∨ b.be32 Offset.dipaddr ≠ u.uipHostaddr then none
    else if b.be16 Offset.opcode = Uip.ARP_REQUEST ∨ b.be16 Offset.opcode = Uip.ARP_REPLY then
      some (b.be32 Offset.sipaddr, b.ethaddr Offset.shwaddr)
    else none
  else none

namespace Uip

variable {u v : Uip}

def told (u : Uip) : Option (BitVec 32 × List Byte) → Uip
  | none => u
  | some (ipaddr, ethaddr) => u.arpUpdate ipaddr ethaddr

theorem arpUpdate_settings (u : Uip) (ipaddr : BitVec 32) (ethaddr : List Byte) :
    (u.arpUpdate ipaddr ethaddr).settings = { u.settings with arpTable := (u.arpUpdate ipaddr ethaddr).arpTable } := by
  simp only [arpUpdate]
  split <;> rfl

theorem arpUpdate_congr (h : u.settings = v.settings) (ipaddr : BitVec 32) (ethaddr : List Byte) :
    (u.arpUpdate ipaddr ethaddr).settings = (v.arpUpdate ipaddr ethaddr).settings := by
  have htable : u.arpTable = v.arpTable := congrArg Settings.arpTable h
  have htime : u.arptime = v.arptime := congrArg Settings.arptime h
  have hold : u.arpOldest = v.arpOldest := by simp only [arpOldest, htable, htime]
  have hstored : (u.arpUpdate ipaddr ethaddr).arpTable = (v.arpUpdate ipaddr ethaddr).arpTable := by
    simp only [arpUpdate, htable, htime, hold]
    split <;> rfl
  rw [arpUpdate_settings, arpUpdate_settings, h, hstored]

theorem withLen_settings (u : Uip) (n : Nat) : ({ u with uipLen := n } : Uip).settings = u.settings := rfl

theorem announces_congr (h : u.settings = v.settings) (b : Buf) (len : Nat) : b.announces u len = b.announces v len := by
  have hhost : u.uipHostaddr = v.uipHostaddr := congrArg Settings.hostaddr h
  have hmask : u.uipNetmask = v.uipNetmask := congrArg Settings.netmask h
  rw [Buf.announces, Buf.announces, hhost, hmask]

theorem told_congr (h : u.settings = v.settings) (a : Option (BitVec 32 × List Byte)) :
    (u.told a).settings = (v.told a).settings := by
  cases a with
  | none => exact h
  | some a => exact arpUpdate_congr h a.1 a.2

theorem arpIpin_settings (htype : u.uipBuf.be16 Offset.ethType = UIP_ETHTYPE_IP) (len : Nat) :
    u.arpIpin.settings = (u.told (u.uipBuf.announces u len)).settings := by
  simp only [arpIpin, Buf.announces, if_pos htype]
  have hlen := u.withLen_settings (sub16 u.uipLen UIP_LLH_LEN)
  split
  · exact hlen
  · exact arpUpdate_congr hlen _ _

theorem arpArpin_settings (htype : u.uipBuf.be16 Offset.ethType = UIP_ETHTYPE_ARP) :
    u.arpArpin.settings = (u.told (u.uipBuf.announces u u.uipLen)).settings := by
  have hip : u.uipBuf.be16 Offset.ethType ≠ UIP_ETHTYPE_IP := by
    rw [htype]
    decide
  rw [Buf.announces, if_neg hip, if_pos htype]
  simp only [arpArpin]
  by_cases hshort : u.uipLen < UIP_ARPHDRSIZE
  · rw [if_pos hshort, if_pos (.inl hshort)]
    rfl
  · rw [if_neg hshort]
    by_cases hother : u.uipBuf.be32 Offset.dipaddr ≠ u.uipHostaddr
    · rw [if_pos hother, if_pos (.inr hother)]
      rfl
    · have hown : ¬(u.uipLen < UIP_ARPHDRSIZE ∨ u.uipBuf.be32 Offset.dipaddr ≠ u.uipHostaddr) := not_or.mpr ⟨hshort, hother⟩
      rw [if_neg hother, if_neg hown]
      by_cases hrequest : u.uipBuf.be16 Offset.opcode = ARP_REQUEST
      · rw [if_pos hrequest, if_pos (.inl hrequest)]
        exact Eq.trans rfl (arpUpdate_congr (u.withLen_settings 0) _ _)
      · rw [if_neg hrequest]
        by_cases hreply : u.uipBuf.be16 Offset.opcode = ARP_REPLY
        · rw [if_pos hreply, if_pos (.inr hreply)]
          exact arpUpdate_congr (u.withLen_settings 0) _ _
        · rw [if_neg hreply, if_neg (not_or.mpr ⟨hrequest, hreply⟩)]
          rfl

end Uip

namespace System

/-- What `tick` hears about a neighbour. -/
def heard (s : System) : Option (BitVec 32 × List Byte) :=
  if s.fetch.inPacket = NOBLOCK ∨ s.fetch.net.blockSize s.fetch.inPacket = 0 then none
  else s.fetch.frameBuf.announces s.uip (s.fetch.net.blockSize s.fetch.inPacket)

theorem mapBuf_uipLen (s : System) (f : Buf → Buf) : (s.mapBuf f).uip.uipLen = s.uip.uipLen := rfl

theorem handleFrame_settings (h : s.handleFrame = some s') :
    s'.uip.settings = (s.uip.told (s.frameBuf.announces s.uip s.uip.uipLen)).settings := by
  generalize h₁ : (s.mapBuf fun b => Lib.store b 0 (s.net.readPacket s.inPacket 0 UIP_BUFSIZE)) = s₁
  rw [handleFrame_eq h₁] at h
  have hsame : s₁.uip.settings = s.uip.settings := h₁ ▸ mapBuf_settings _ _
  have hbuf : s₁.uip.uipBuf = s.frameBuf := h₁ ▸ mapBuf_buf _ _
  have hlen : s₁.uip.uipLen = s.uip.uipLen := h₁ ▸ mapBuf_uipLen _ _
  have hannounces : s.frameBuf.announces s.uip s.uip.uipLen = s₁.uip.uipBuf.announces s₁.uip s₁.uip.uipLen := by
    rw [hbuf, hlen, Uip.announces_congr hsame]
  rw [hannounces, ← Uip.told_congr hsame]
  split at h
  · rename_i htype
    obtain ⟨s₂, hinput, hsend⟩ := Option.bind_eq_some_iff.mp h
    exact (sendOut_settings hsend).trans ((uipInput_settings hinput).trans (Uip.arpIpin_settings htype _))
  · rename_i hip
    split at h
    · rename_i htype
      refine Eq.trans ?_ (Uip.arpArpin_settings htype)
      split at h
      · obtain ⟨⟨s₂, ok⟩, hsend, h⟩ := Option.bind_eq_some_iff.mp h
        cases h
        exact congrArg Uip.settings (networkSend_uip hsend)
      · cases h
        rfl
    · rename_i htype
      cases h
      rw [Buf.announces, if_neg hip, if_neg htype]
      rfl

theorem tickInput_settings (h : s.tickInput = some s') : s'.uip.settings = (s.uip.told s.heard).settings := by
  simp only [tickInput, Option.bind_eq_bind, Option.pure_def, some_release] at h
  have hfetch : (if s.inPacket = NOBLOCK then (s.setNet s.net.receivePacket.1).setInPacket s.net.receivePacket.2 else s) = s.fetch := rfl
  rw [hfetch] at h
  have huip : s.fetch.uip = s.uip := by
    rw [fetch]
    split <;> rfl
  have hrelease : ∀ t : System, t.release.uip = t.uip := by
    intro t
    rw [release]
    split <;> rfl
  rw [heard]
  split at h
  · rename_i hnone
    cases h
    rw [if_pos (.inl hnone), huip]
    rfl
  · rename_i hsome
    split at h
    · rename_i hlen
      obtain ⟨s₁, hframe, h⟩ := Option.bind_eq_some_iff.mp h
      cases h
      generalize hs₂ : (s.fetch.setPacketstate UIPETHERNET_FREEPACKET).setLen (s.fetch.net.blockSize s.fetch.inPacket) = s₂ at hframe hlen
      have hbuf : s₂.frameBuf = s.fetch.frameBuf := by rw [← hs₂]; rfl
      have hlen₂ : s₂.uip.uipLen = s.fetch.net.blockSize s.fetch.inPacket := by
        rw [← hs₂]
        exact setLen_len _ _
      have hset : s₂.uip.settings = s.uip.settings := by
        rw [← hs₂, setLen_settings, setPacketstate_settings, huip]
      have hannounces : s₂.frameBuf.announces s₂.uip s₂.uip.uipLen =
          s.fetch.frameBuf.announces s.uip (s.fetch.net.blockSize s.fetch.inPacket) := by
        rw [hbuf, hlen₂, Uip.announces_congr hset]
      rw [hrelease, handleFrame_settings hframe, hannounces, Uip.told_congr hset, if_neg]
      rintro (hnone | hzero)
      · exact hsome hnone
      · rw [hlen₂, hzero] at hlen
        exact absurd hlen (Nat.lt_irrefl 0)
    · rename_i hlen
      cases h
      have hzero : s.fetch.net.blockSize s.fetch.inPacket = 0 := by
        rw [setLen_len] at hlen
        exact Nat.eq_zero_of_not_pos hlen
      rw [if_pos (.inr hzero), hrelease, setLen_settings, setPacketstate_settings, huip]
      rfl

-- ---------------------------------------------------------------------------
-- The calls
-- ---------------------------------------------------------------------------

/-- A search for a local port, which is none that `inUse` has. -/
def PortSearched (s : System) (lastport : Nat) : Prop :=
  ∃ (inUse : Nat → Bool) (fuel : Nat), localPort inUse fuel s.uip.lastport = some lastport

theorem uipConnect_settings {ripaddr : BitVec 32} {rport : Nat} {conn : Option (Fin UIP_CONNS)}
    (h : s.uipConnect ripaddr rport = some (s', conn)) :
    ∃ lastport, s.PortSearched lastport ∧ s'.uip.settings = { s.uip.settings with lastport } := by
  simp only [uipConnect, Option.bind_eq_bind, Option.bind_eq_some_iff] at h
  obtain ⟨lastport, hport, h⟩ := h
  refine ⟨lastport, ⟨_, _, hport⟩, ?_⟩
  split at h <;> cases h <;> rfl

theorem newConn_settings {k : Nat} {ripaddr : Option (BitVec 32)} {rport : Nat}
    (h : UIPUDP.newConn s k ripaddr rport = some s') :
    ∃ lastport, s.PortSearched lastport ∧ s'.uip.settings = { s.uip.settings with lastport } := by
  simp only [UIPUDP.newConn, uipUdpNew, Option.bind_eq_bind, Option.pure_def] at h
  obtain ⟨⟨s₁, conn⟩, hnew, h⟩ := Option.bind_eq_some_iff.mp h
  obtain ⟨lastport, hport, hnew⟩ := Option.bind_eq_some_iff.mp hnew
  cases h
  refine ⟨lastport, ⟨_, _, hport⟩, ?_⟩
  split at hnew <;> cases hnew <;> rfl

/-- What a step may do to the settings, beside the ARP table. -/
inductive Adjusts (s s' : System) : Prop
  | same (h : s'.uip.settings = s.uip.settings)
  | port (lastport : Nat) (hport : s.PortSearched lastport) (h : s'.uip.settings = { s.uip.settings with lastport })
  | listen (listenports : Fin UIP_LISTENPORTS → Nat) (h : s'.uip.settings = { s.uip.settings with listenports })
  | configure (hostaddr draddr netmask : BitVec 32) (h : s'.uip.settings = { s.uip.settings with hostaddr, draddr, netmask })

theorem Adjusts.of_uip (h : s'.uip = s.uip) : Adjusts s s' := .same (congrArg Uip.settings h)

theorem Adjusts.before (h : Adjusts s s₁) (hpost : s'.uip.settings = s₁.uip.settings) : Adjusts s s' := by
  cases h with
  | same h => exact .same (hpost.trans h)
  | port lastport hport h => exact .port lastport hport (hpost.trans h)
  | listen listenports h => exact .listen listenports (hpost.trans h)
  | configure hostaddr draddr netmask h => exact .configure hostaddr draddr netmask (hpost.trans h)

theorem begin_adjusts {k port : Nat} {ok : Bool} (h : UIPUDP.begin s k port = some (s', ok)) : Adjusts s s' := by
  simp only [UIPUDP.begin, Option.bind_eq_bind, Option.pure_def] at h
  split at h
  · obtain ⟨s₁, hnew, h⟩ := Option.bind_eq_some_iff.mp h
    obtain ⟨lastport, hport, hset⟩ := newConn_settings hnew
    refine (Adjusts.port lastport hport hset).before ?_
    split at h <;> cases h <;> rfl
  · obtain ⟨s₁, hsame, h⟩ := Option.bind_eq_some_iff.mp h
    cases hsame
    refine .same ?_
    split at h <;> cases h <;> rfl

theorem setRemote_adjusts {k : Nat} {ip : BitVec 32} {port : Nat} (h : UIPUDP.setRemote s k ip port = some s') : Adjusts s s' := by
  simp only [UIPUDP.setRemote] at h
  split at h
  · simp only [UIPUDP.connectTo, Option.bind_eq_bind, Option.pure_def] at h
    split at h
    · cases h
      exact .same rfl
    · obtain ⟨s₁, hnew, h⟩ := Option.bind_eq_some_iff.mp h
      obtain ⟨lastport, hport, hset⟩ := newConn_settings hnew
      refine (Adjusts.port lastport hport hset).before ?_
      split at h <;> cases h <;> rfl
  · cases h
    exact .same rfl

theorem beginPacket_adjusts {k : Nat} {ip : BitVec 32} {port : Nat} {ok : Bool}
    (h : UIPUDP.beginPacket s k ip port = some (s', ok)) : Adjusts s s' := by
  simp only [UIPUDP.beginPacket, Option.bind_eq_bind, Option.pure_def] at h
  obtain ⟨s₁, hremote, h⟩ := Option.bind_eq_some_iff.mp h
  refine (setRemote_adjusts hremote).before ?_
  split at h
  · obtain ⟨⟨net, b⟩, -, h⟩ := Option.bind_eq_some_iff.mp h
    cases h
    rfl
  · cases h
    rfl

theorem endPacket_settings {k : Nat} {ok : Bool} (h : UIPUDP.endPacket s k = some (s', ok)) :
    s'.uip.settings = s.uip.settings := by
  simp only [UIPUDP.endPacket, Option.bind_eq_bind, Option.pure_def] at h
  split at h
  · cases h
    rfl
  · split at h
    · cases h
      rfl
    · obtain ⟨s₁, htimer, h⟩ := Option.bind_eq_some_iff.mp h
      have h₁ : s₁.uip.settings = s.uip.settings := (uipUdpTimer_settings htimer).trans rfl
      split at h
      · obtain ⟨s₂, hsend, h⟩ := Option.bind_eq_some_iff.mp h
        cases h
        exact (udpSendOut_settings hsend).trans h₁
      · cases h
        exact h₁

theorem parsePacket_uip {k size : Nat} (h : UIPUDP.parsePacket s k = some (s', size)) : s'.uip = s.uip := by
  simp only [UIPUDP.parsePacket, Option.bind_eq_bind, Option.pure_def] at h
  obtain ⟨net, -, h⟩ := Option.bind_eq_some_iff.mp h
  cases h
  rfl

theorem udpRead_uip {k len : Nat} {bytes : List Byte} (h : UIPUDP.read s k len = some (s', bytes)) : s'.uip = s.uip := by
  simp only [UIPUDP.read, Option.bind_eq_bind, Option.pure_def] at h
  split at h
  · cases h
    rfl
  · split at h
    · obtain ⟨net, -, h⟩ := Option.bind_eq_some_iff.mp h
      cases h
      rfl
    · cases h
      rfl

theorem udpFlush_uip {k : Nat} (h : UIPUDP.flush s k = some s') : s'.uip = s.uip := by
  simp only [UIPUDP.flush, Option.bind_eq_bind, Option.pure_def] at h
  obtain ⟨net, -, h⟩ := Option.bind_eq_some_iff.mp h
  cases h
  rfl

theorem udpStop_uip {k : Nat} (h : UIPUDP.stop s k = some s') : s'.uip = s.uip := by
  simp only [UIPUDP.stop, Option.bind_eq_bind, Option.pure_def] at h
  split at h
  · cases h
    rfl
  · obtain ⟨net₁, -, h⟩ := Option.bind_eq_some_iff.mp h
    obtain ⟨net₂, -, h⟩ := Option.bind_eq_some_iff.mp h
    obtain ⟨net₃, -, h⟩ := Option.bind_eq_some_iff.mp h
    cases h
    rfl

theorem own_uip {data : Option (Fin UIP_CONNS)} (h : UIPClient.Own data s s') : s'.uip = s.uip :=
  (congrArg System.uip h.only).symm

theorem step_adjusts {a : Action} (hother : ∀ now nullTimer, a ≠ .tick now nullTimer) (h : s.step a = some s') : Adjusts s s' := by
  cases a with
  | arrive ring frames =>
    cases h
    exact .same rfl
  | tick now nullTimer => exact absurd rfl (hother now nullTimer)
  | configure ip gateway subnet =>
    cases h
    exact .configure ip gateway subnet rfl
  | listen port =>
    cases h
    rw [uipListen]
    split
    · exact .same rfl
    · exact .listen _ rfl
  | connect ip port =>
    obtain ⟨⟨s₁, conn⟩, hconnect, rfl⟩ := Option.map_eq_some_iff.mp h
    obtain ⟨lastport, hport, hset⟩ := uipConnect_settings hconnect
    exact .port lastport hport hset
  | stop data =>
    have hstop : UIPClient.stop s data = some s' := h
    exact .of_uip (own_uip (UIPClient.stop_own hstop))
  | write data now buf =>
    obtain ⟨⟨s₁, r⟩, hattempt, rfl⟩ := Option.map_eq_some_iff.mp h
    exact .of_uip (own_uip (UIPClient.attempt_own hattempt))
  | read data size =>
    obtain ⟨⟨s₁, client, bytes⟩, hread, rfl⟩ := Option.map_eq_some_iff.mp h
    exact .of_uip (own_uip (UIPClient.read_own hread))
  | flush data =>
    have hflush : UIPClient.flush s data = some s' := h
    exact .of_uip (own_uip (UIPClient.flush_own hflush))
  | udpBegin k port =>
    obtain ⟨⟨s₁, ok⟩, hbegin, rfl⟩ := Option.map_eq_some_iff.mp h
    exact begin_adjusts hbegin
  | udpStop k =>
    have hstop : UIPUDP.stop s k = some s' := h
    exact .of_uip (udpStop_uip hstop)
  | beginPacket k ip port =>
    obtain ⟨⟨s₁, ok⟩, hbegin, rfl⟩ := Option.map_eq_some_iff.mp h
    exact beginPacket_adjusts hbegin
  | udpWrite k buffer =>
    cases h
    refine .of_uip ?_
    simp only [UIPUDP.write]
    split <;> rfl
  | endPacket k =>
    obtain ⟨⟨s₁, ok⟩, hend, rfl⟩ := Option.map_eq_some_iff.mp h
    exact .same (endPacket_settings hend)
  | parsePacket k =>
    obtain ⟨⟨s₁, size⟩, hparse, rfl⟩ := Option.map_eq_some_iff.mp h
    exact .of_uip (parsePacket_uip hparse)
  | udpRead k len =>
    obtain ⟨⟨s₁, bytes⟩, hread, rfl⟩ := Option.map_eq_some_iff.mp h
    exact .of_uip (udpRead_uip hread)
  | udpFlush k =>
    have hflush : UIPUDP.flush s k = some s' := h
    exact .of_uip (udpFlush_uip hflush)

-- ---------------------------------------------------------------------------
-- The pieces
-- ---------------------------------------------------------------------------

/-- What a piece says about a neighbour. -/
def hears (s : System) : Piece → Option (BitVec 32 × List Byte)
  | .input => s.heard
  | _ => none

variable {p : Piece}

/-- Only a frame changes the ARP table, and nothing moves its clock. -/
theorem PieceStep.neighbours (h : PieceStep s p s') :
    s'.uip.arpTable = (s.uip.told (s.hears p)).arpTable ∧ s'.uip.arptime = s.uip.arptime := by
  have hsame : s'.uip.settings = s.uip.settings →
      s'.uip.arpTable = s.uip.arpTable ∧ s'.uip.arptime = s.uip.arptime := fun h =>
    ⟨congrArg Settings.arpTable h, congrArg Settings.arptime h⟩
  cases h with
  | input h =>
    have hset := tickInput_settings h
    refine ⟨congrArg Settings.arpTable hset, (congrArg Settings.arptime hset).trans ?_⟩
    cases s.heard with
    | none => rfl
    | some a =>
      obtain ⟨ipaddr, ethaddr⟩ := a
      exact congrArg Settings.arptime (Uip.arpUpdate_settings s.uip ipaddr ethaddr)
  | conn h => exact hsame (tickConn_settings h)
  | rearm => exact ⟨rfl, rfl⟩
  | udp h => exact hsame (tickUdp_settings h)
  | call hother h =>
    cases step_adjusts hother h with
    | same h => exact hsame h
    | port _ _ h | listen _ h | configure _ _ _ h => exact ⟨congrArg Settings.arpTable h, congrArg Settings.arptime h⟩

theorem PieceStep.lastport (h : PieceStep s p s') : s'.uip.lastport = s.uip.lastport ∨ s.PortSearched s'.uip.lastport := by
  cases h with
  | input h =>
    have hset := tickInput_settings h
    refine .inl ((congrArg Settings.lastport hset).trans ?_)
    cases s.heard with
    | none => rfl
    | some a =>
      obtain ⟨ipaddr, ethaddr⟩ := a
      exact congrArg Settings.lastport (Uip.arpUpdate_settings s.uip ipaddr ethaddr)
  | conn h => exact .inl (congrArg Settings.lastport (tickConn_settings h))
  | rearm => exact .inl rfl
  | udp h => exact .inl (congrArg Settings.lastport (tickUdp_settings h))
  | call hother h =>
    cases step_adjusts hother h with
    | same h | listen _ h | configure _ _ _ h => exact .inl (congrArg Settings.lastport h)
    | port lastport hport h =>
      have hlast : s'.uip.lastport = lastport := congrArg Settings.lastport h
      exact .inr (hlast ▸ hport)

end System

end UIPEthernet
