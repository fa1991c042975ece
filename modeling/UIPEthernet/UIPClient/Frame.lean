import UIPEthernet.UIPClient.Tables

/-!
# What the callback leaves alone

`uipclient_appcall` changes the stopped bit and the entry of its connection,
that entry, and the pool. Only the part that prepares a segment touches
`uip_packet` and its flag.
-/

namespace UIPEthernet.UIPClient

open UIPEthernet.System Tables

/-- The connection keeps all but its stopped bit and its entry, and everything
else on that side stays. -/
structure Confined (c : Fin UIP_CONNS) (s s' : System) : Prop where
  others : ∀ i ≠ c, s'.uipConns i = s.uipConns i
  conn : s'.uipConns c =
    { s.uipConns c with
      tcpstateflags := ⟨(s.uipConns c).tcpstateflags.state, (s'.uipConns c).tcpstateflags.stopped⟩
      appstate := (s'.uipConns c).appstate }
  udpConns : s'.uipUdpConns = s.uipUdpConns
  sockets : s'.sockets = s.sockets
  inPacket : s'.inPacket = s.inPacket

/-- Nor is a packet set up. -/
structure Calm (c : Fin UIP_CONNS) (s s' : System) : Prop extends Confined c s s' where
  send : has s'.packetstate UIPETHERNET_SENDPACKET = has s.packetstate UIPETHERNET_SENDPACKET
  uipPacket : s'.uipPacket = s.uipPacket

variable {s s' s₁ s₂ : System} {c u : Fin UIP_CONNS}

theorem Confined.refl (c : Fin UIP_CONNS) (s : System) : Confined c s s :=
  ⟨fun _ _ => rfl, rfl, rfl, rfl, rfl⟩

theorem Calm.refl (c : Fin UIP_CONNS) (s : System) : Calm c s s := ⟨.refl c s, rfl, rfl⟩

theorem Confined.trans (h₁ : Confined c s s₁) (h₂ : Confined c s₁ s₂) : Confined c s s₂ := by
  refine ⟨fun i hi => (h₂.others i hi).trans (h₁.others i hi), ?_, h₂.udpConns.trans h₁.udpConns,
    h₂.sockets.trans h₁.sockets, h₂.inPacket.trans h₁.inPacket⟩
  rw [h₂.conn, h₁.conn]

theorem Calm.trans (h₁ : Calm c s s₁) (h₂ : Calm c s₁ s₂) : Calm c s s₂ :=
  ⟨h₁.toConfined.trans h₂.toConfined, h₂.send.trans h₁.send, h₂.uipPacket.trans h₁.uipPacket⟩

/-- Nothing on that side changes. -/
theorem Calm.of_eq (hconns : s'.uipConns = s.uipConns) (hudp : s'.uipUdpConns = s.uipUdpConns)
    (hsockets : s'.sockets = s.sockets) (hin : s'.inPacket = s.inPacket)
    (hsend : s'.packetstate = s.packetstate) (hpacket : s'.uipPacket = s.uipPacket) : Calm c s s' := by
  refine ⟨⟨fun i _ => by rw [hconns], by rw [hconns], hudp, hsockets, hin⟩, by rw [hsend], hpacket⟩

theorem setNet_calm (net : Enc28J60Network) : Calm c s (s.setNet net) := .of_eq rfl rfl rfl rfl rfl rfl

theorem setData_calm (u : Fin UIP_CONNS) (d : Userdata) : Calm c s (s.setData u d) :=
  .of_eq rfl rfl rfl rfl rfl rfl

theorem record_calm (e : Event) : Calm c s (s.record e) := .of_eq rfl rfl rfl rfl rfl rfl

theorem setFlags_calm (flags : BitVec 8) : Calm c s (s.setFlags flags) := .of_eq rfl rfl rfl rfl rfl rfl

theorem mapConn_calm (f : Conn → Conn) (h : f (s.uipConns c) =
    { s.uipConns c with
      tcpstateflags := ⟨(s.uipConns c).tcpstateflags.state, (f (s.uipConns c)).tcpstateflags.stopped⟩
      appstate := (f (s.uipConns c)).appstate }) : Calm c s (s.mapConn c f) := by
  refine ⟨⟨fun i hi => Function.update_of_ne hi _ _, ?_, rfl, rfl, rfl⟩, rfl, rfl⟩
  rw [mapConn_self]
  exact h

theorem setAppstate_calm (o : Option (Fin UIP_CONNS)) : Calm c s (s.setAppstate c o) := mapConn_calm _ rfl

theorem uipStop_calm : Calm c s (s.uipStop c) := mapConn_calm _ rfl

theorem uipRestart_calm : Calm c s (s.uipRestart c) := (setFlags_calm _).trans (mapConn_calm _ rfl)

theorem finish_calm (sendLen : Nat) : Calm c s (finish s sendLen) := by
  simp only [finish]
  split <;> exact .of_eq rfl rfl rfl rfl rfl rfl

theorem finish_slen (sendLen : Nat) : (finish s sendLen).uip.uipSlen = sendLen := by
  simp only [finish]
  split <;> rfl

-- ---------------------------------------------------------------------------
-- The parts of the callback
-- ---------------------------------------------------------------------------

theorem eatOut_calm (h : eatOut s u = some s') : Calm c s s' := by
  simp only [eatOut, Option.bind_eq_bind, Option.bind_eq_some_iff, Option.pure_def, Option.some.injEq,
    Prod.exists] at h
  obtain ⟨net, block, -, rfl⟩ := h
  exact (setNet_calm _).trans (setData_calm _ _)

theorem flushOut_calm (h : flushOut s u = some s') : Calm c s s' := by
  simp only [flushOut, Option.bind_eq_bind, Option.bind_eq_some_iff, Option.pure_def, Option.some.injEq,
    Prod.exists] at h
  obtain ⟨net, block, -, rfl⟩ := h
  exact (setNet_calm _).trans (setData_calm _ _)

theorem attach_calm : Calm c s (attach s c) := by
  simp only [attach]
  split
  · simp only [allocateData]
    split
    · exact .refl c s
    · rename_i hall
      split at hall
      · cases hall
      · cases hall
        exact ((setData_calm _ _).trans (setAppstate_calm _)).trans (record_calm _)
  · exact .refl c s

theorem storeData_calm {slots : List (Fin UIP_SOCKET_NUMPACKETS)} {stored : Bool}
    (h : storeData c u slots s = some (s', stored)) : Calm c s s' := by
  induction slots generalizing s with
  | nil =>
    cases h
    exact .refl c _
  | cons i rest ih =>
    rw [storeData] at h
    split at h
    · simp only [Option.bind_eq_bind, Option.bind_eq_some_iff, Prod.exists] at h
      obtain ⟨net, k, -, h⟩ := h
      have hset : Calm c s ((s.setNet net).setPacketsIn u (Function.update (s.allData u).packetsIn i k)) :=
        (setNet_calm _).trans (setData_calm _ _)
      split at h
      · exact hset.trans (ih h)
      · simp only [Option.bind_eq_some_iff, Option.pure_def, Option.some.injEq, Prod.mk.injEq] at h
        obtain ⟨net', -, rfl, -⟩ := h
        refine hset.trans ?_
        split
        · exact ((setNet_calm _).trans (record_calm _)).trans uipStop_calm
        · exact (setNet_calm _).trans (record_calm _)
    · exact ih h

theorem has_keepPacket (x : BitVec 8) :
    has (x &&& ~~~UIPETHERNET_FREEPACKET) UIPETHERNET_SENDPACKET = has x UIPETHERNET_SENDPACKET := by
  revert x; decide

theorem newdata_calm (h : newdata s c u = some s') : Calm c s s' := by
  rw [newdata] at h
  split at h
  · simp only [Option.bind_eq_bind, Option.bind_eq_some_iff, Prod.exists] at h
    obtain ⟨s₁, stored, hstore, h⟩ := h
    split at h
    · cases h
      exact storeData_calm hstore
    · cases h
      have hkeep : Calm c s₁ (s₁.setPacketstate (s₁.packetstate &&& ~~~UIPETHERNET_FREEPACKET)) :=
        ⟨⟨fun _ _ => rfl, rfl, rfl, rfl, rfl⟩, has_keepPacket _, rfl⟩
      exact ((storeData_calm hstore).trans hkeep).trans uipStop_calm
  · cases h
    exact .refl c s

theorem restart_calm : Calm c s (restart s c u) := by
  rw [restart]
  split
  · exact (setData_calm _ _).trans uipRestart_calm
  · exact .refl c s

theorem closed_calm (h : closed s c u = some s') : Calm c s s' := by
  simp only [closed, Option.bind_eq_bind, Option.bind_eq_some_iff, Option.pure_def, Option.some.injEq] at h
  obtain ⟨s₁, hflush, rfl⟩ := h
  refine ((flushOut_calm hflush).trans ?_).trans (setAppstate_calm none)
  split
  · exact (setData_calm _ _).trans (setData_calm _ _)
  · exact setData_calm _ _

theorem acked_calm (h : acked s u = some s') : Calm c s s' := by
  rw [acked] at h
  split at h
  · exact eatOut_calm h
  · cases h
    exact .refl c s

theorem closing_calm : Calm c s (closing s c u) := by
  rw [closing]
  split
  · split
    · exact ((setData_calm _ _).trans (setAppstate_calm none)).trans (setFlags_calm _)
    · exact uipStop_calm
  · exact .refl c s

theorem cutHead_calm : Calm c s (cutHead s u) := by
  simp only [cutHead]
  split
  · exact setNet_calm _
  · exact .refl c s

theorem prepare_confined {sendLen : Nat} (h : prepare s c u sendLen = some s') : Confined c s s' := by
  simp only [prepare, Option.bind_eq_bind, Option.pure_def] at h
  obtain ⟨⟨net, k⟩, -, h⟩ := Option.bind_eq_some_iff.mp h
  split at h
  · cases h
    exact ⟨fun _ _ => rfl, rfl, rfl, rfl, rfl⟩
  · obtain ⟨net', -, h⟩ := Option.bind_eq_some_iff.mp h
    cases h
    exact ⟨fun _ _ => rfl, rfl, rfl, rfl, rfl⟩

theorem offer_confined {sendLen : Nat} (h : offer s c u = some (s', sendLen)) : Confined c s s' := by
  simp only [offer, Option.bind_eq_bind, Option.pure_def] at h
  split at h
  · cases h
    exact .refl c s
  · obtain ⟨s₁, hprep, h⟩ := Option.bind_eq_some_iff.mp h
    cases h
    exact (cutHead_calm (c := c)).toConfined.trans (prepare_confined hprep)

theorem polled_confined (h : polled s c u = some s') : Confined c s s' := by
  simp only [polled, Option.bind_eq_bind, Option.pure_def] at h
  split at h
  · obtain ⟨⟨s₁, sendLen⟩, hoffer, h⟩ := Option.bind_eq_some_iff.mp h
    cases h
    exact (offer_confined hoffer).trans (finish_calm _).toConfined
  · cases h
    exact (closing_calm.trans (finish_calm _)).toConfined

theorem serve_confined (h : serve s c u = some s') : Confined c s s' := by
  simp only [serve, Option.bind_eq_bind, Option.pure_def] at h
  obtain ⟨s₁, hnew, h⟩ := Option.bind_eq_some_iff.mp h
  have h₁ : Confined c s (restart s₁ c u) := ((newdata_calm hnew).trans restart_calm).toConfined
  split at h
  · obtain ⟨s₂, hclosed, h⟩ := Option.bind_eq_some_iff.mp h
    cases h
    exact h₁.trans ((closed_calm hclosed).trans (finish_calm _)).toConfined
  · obtain ⟨s₂, hack, h⟩ := Option.bind_eq_some_iff.mp h
    exact h₁.trans ((acked_calm hack).toConfined.trans (polled_confined h))

theorem appcall_confined (h : uipclientAppcall s c = some s') : Confined c s s' := by
  simp only [uipclientAppcall] at h
  split at h
  · cases h
    exact (attach_calm.trans (finish_calm _)).toConfined
  · exact (attach_calm (c := c)).toConfined.trans (serve_confined h)

-- ---------------------------------------------------------------------------
-- Without a poll or a retransmission no packet is set up
-- ---------------------------------------------------------------------------

theorem attach_uip : (attach s c).uip = s.uip := by
  simp only [attach]
  split
  · simp only [allocateData]
    split
    · rfl
    · rename_i hall
      split at hall
      · cases hall
      · cases hall
        rfl
  · rfl

theorem eatOut_uip (h : eatOut s u = some s') : s'.uip = s.uip := by
  simp only [eatOut, Option.bind_eq_bind, Option.bind_eq_some_iff, Option.pure_def, Option.some.injEq,
    Prod.exists] at h
  obtain ⟨net, block, -, rfl⟩ := h
  rfl

theorem storeData_uip {slots : List (Fin UIP_SOCKET_NUMPACKETS)} {stored : Bool}
    (h : storeData c u slots s = some (s', stored)) : s'.uip = s.uip := by
  induction slots generalizing s with
  | nil =>
    cases h
    rfl
  | cons i rest ih =>
    rw [storeData] at h
    split at h
    · simp only [Option.bind_eq_bind, Option.bind_eq_some_iff, Prod.exists] at h
      obtain ⟨net, k, -, h⟩ := h
      split at h
      · exact Eq.trans (ih h) rfl
      · simp only [Option.bind_eq_some_iff, Option.pure_def, Option.some.injEq, Prod.mk.injEq] at h
        obtain ⟨net', -, rfl, -⟩ := h
        split <;> rfl
    · exact ih h

theorem newdata_uip (h : newdata s c u = some s') : s'.uip = s.uip := by
  rw [newdata] at h
  split at h
  · simp only [Option.bind_eq_bind, Option.bind_eq_some_iff, Prod.exists] at h
    obtain ⟨s₁, stored, hstore, h⟩ := h
    have huip := storeData_uip hstore
    split at h <;> cases h <;> exact huip
  · cases h
    rfl

/-- `restart` raises `uip_newdata` only. -/
theorem restart_flags {other : BitVec 8} (h : UIP_NEWDATA &&& other = 0) :
    has (restart s c u).uip.uipFlags other = has s.uip.uipFlags other := by
  rw [restart]
  split
  · exact has_setFlag _ h
  · rfl

theorem acked_uip (h : acked s u = some s') : s'.uip = s.uip := by
  rw [acked] at h
  split at h
  · exact eatOut_uip h
  · cases h
    rfl

theorem polled_calm (hflags : ¬has s.uip.uipFlags (UIP_POLL ||| UIP_REXMIT)) (h : polled s c u = some s') :
    Calm c s s' ∧ s'.uip.uipSlen = 0 := by
  rw [polled, if_neg fun hp => hflags hp.1] at h
  cases h
  exact ⟨closing_calm.trans (finish_calm _), finish_slen _⟩

theorem serve_calm (hflags : ¬has s.uip.uipFlags (UIP_POLL ||| UIP_REXMIT)) (h : serve s c u = some s') :
    Calm c s s' ∧ s'.uip.uipSlen = 0 := by
  simp only [serve, Option.bind_eq_bind, Option.pure_def] at h
  obtain ⟨s₁, hnew, h⟩ := Option.bind_eq_some_iff.mp h
  have h₁ : Calm c s (restart s₁ c u) := (newdata_calm hnew).trans restart_calm
  split at h
  · obtain ⟨s₂, hclosed, h⟩ := Option.bind_eq_some_iff.mp h
    cases h
    exact ⟨h₁.trans ((closed_calm hclosed).trans (finish_calm _)), finish_slen _⟩
  · obtain ⟨s₂, hack, h⟩ := Option.bind_eq_some_iff.mp h
    have hflags₂ : ¬has s₂.uip.uipFlags (UIP_POLL ||| UIP_REXMIT) := by
      rw [acked_uip hack, restart_flags (by decide), newdata_uip hnew]
      exact hflags
    obtain ⟨h₂, hslen⟩ := polled_calm hflags₂ h
    exact ⟨h₁.trans ((acked_calm hack).trans h₂), hslen⟩

theorem appcall_calm (hflags : ¬has s.uip.uipFlags (UIP_POLL ||| UIP_REXMIT))
    (h : uipclientAppcall s c = some s') : Calm c s s' ∧ s'.uip.uipSlen = 0 := by
  simp only [uipclientAppcall] at h
  split at h
  · cases h
    exact ⟨attach_calm.trans (finish_calm _), finish_slen _⟩
  · obtain ⟨h₁, hslen⟩ := serve_calm (by rw [attach_uip]; exact hflags) h
    exact ⟨attach_calm.trans h₁, hslen⟩

end UIPEthernet.UIPClient
