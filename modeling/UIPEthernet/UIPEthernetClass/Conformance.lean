import UIPEthernet.Uip.Conformance
import UIPEthernet.UIPEthernetClass.Steps
import UIPEthernet.UIPUdp.Ownership

/-!
# Every connection of a run moves along the automaton

A piece of a run is a segment, a turn of a timer, or a call. Each moves the
connections along `Tcb.Step`, for causes that the piece has. A new connection
takes a slot that is closed, and addresses that no other connection has.
-/

namespace UIPEthernet

open TcpState Lib

/-- The length of the payload of the segment in `b`. -/
def Buf.segmentLen (b : Buf) : Nat :=
  sub16 (sub16 (b.be16 Offset.len) ((b Offset.tcpoffset >>> 4).toNat * 4)) UIP_IPH_LEN

namespace System

variable {s s' s₁ s₂ : System} {c : Fin UIP_CONNS} {b : Buf}

-- ---------------------------------------------------------------------------
-- New connections
-- ---------------------------------------------------------------------------

/-- A connection is set up in the slot, for the given addresses. -/
structure Setup (c : Fin UIP_CONNS) (lport rport : Nat) (ripaddr : BitVec 32) (s s' : System) : Prop where
  others : ∀ i ≠ c, s'.uipConns i = s.uipConns i
  step : Tcb.Step (s.uipConns c).tcb .opened (s'.uipConns c).tcb
  lport : (s'.uipConns c).lport = lport
  rport : (s'.uipConns c).rport = rport
  ripaddr : (s'.uipConns c).ripaddr = ripaddr

theorem unusedConn_reusable (h : s.unusedConn = some c) : (s.uipConns c).tcb.Reusable := by
  rcases unusedConn_flags h with hflags | hflags
  · exact ⟨.inl (flags_iff.mp hflags).1, (flags_iff.mp hflags).2⟩
  · exact ⟨.inr (flags_iff.mp hflags).1, (flags_iff.mp hflags).2⟩

theorem Setup.around {lport rport : Nat} {ripaddr : BitVec 32} (hpre : s₁.uipConns = s.uipConns) (hpost : s'.uipConns = s₂.uipConns)
    (h : Setup c lport rport ripaddr s₁ s₂) : Setup c lport rport ripaddr s s' := by
  refine ⟨?_, ?_, ?_, ?_, ?_⟩ <;> rw [hpost]
  · rw [← hpre]
    exact h.others
  · rw [← hpre]
    exact h.step
  · exact h.lport
  · exact h.rport
  · exact h.ripaddr

theorem foundListen_setup (h : s.foundListen = some s') : s'.uipConns = s.uipConns ∨
    ∃ c, Setup c (s.uip.uipBuf.u16 Offset.destport) (s.uip.uipBuf.u16 Offset.srcport) (s.uip.uipBuf.be32 Offset.srcipaddr) s s' := by
  simp only [foundListen] at h
  split at h
  · cases h
    exact .inl rfl
  · rename_i c hslot
    obtain ⟨s₁, hmss, hsend⟩ := Option.bind_eq_some_iff.mp h
    rw [mapConn_record] at hmss
    have hconns := (tcpSendSyn_only hsend).uipConns
    have htcb := parseMss_tcb hmss
    rw [mapConn_tcb] at htcb
    refine .inr ⟨c, fun i hi => ?_, ?_, ?_, ?_, ?_⟩ <;> rw [hconns]
    · rw [(parseMss_goes hmss).others i hi]
      exact Function.update_of_ne hi _ _
    · rw [htcb]
      exact .opened _ _ _ _ _ _ _ (unusedConn_reusable hslot) (.inr rfl)
    · exact congrArg Tcb.lport htcb
    · exact congrArg Tcb.rport htcb
    · exact congrArg Tcb.ripaddr htcb

theorem record_uipConns (e : Event) : (s.record e).uipConns = s.uipConns := rfl

/-- The port of a new connection is that of no other. -/
theorem uipConnect_setup {ripaddr : BitVec 32} {rport : Nat} {conn : Option (Fin UIP_CONNS)}
    (h : s.uipConnect ripaddr rport = some (s', conn)) : match conn with
      | none => s'.uipConns = s.uipConns
      | some c => ∃ lport, (∀ i, (s.uipConns i).tcb.Open → (s.uipConns i).lport ≠ lport) ∧ Setup c lport rport ripaddr s s' := by
  simp only [uipConnect, Option.bind_eq_bind, Option.bind_eq_some_iff] at h
  obtain ⟨lastport, hport, h⟩ := h
  have hunused := UIPUDP.localPort_unused hport
  generalize hs₁ : ({ s with uip := { s.uip with lastport } } : System) = s₁ at h
  have hconns : s₁.uipConns = s.uipConns := by rw [← hs₁]
  split at h
  · cases h
    exact hconns
  · rename_i c hslot
    cases h
    have hreusable : (s.uipConns c).tcb.Reusable := hconns ▸ unusedConn_reusable hslot
    refine ⟨htons lastport, fun i hopen heq => ?_, .around hconns (rfl : _ = System.uipConns _) ⟨fun i hi => Function.update_of_ne hi _ _, ?_, ?_, ?_, ?_⟩⟩
    · refine List.any_eq_false.mp hunused i (List.mem_finRange i) (decide_eq_true ⟨fun hclosed => ?_, heq⟩)
      exact hopen (flags_iff.mp hclosed)
    · rw [mapConn_record, mapConn_tcb, record_uipConns, hconns]
      exact .opened _ _ _ _ _ _ _ hreusable (.inl rfl)
    · rw [mapConn_record, mapConn_self]
    · rw [mapConn_record, mapConn_self]
    · rw [mapConn_record, mapConn_self]

-- ---------------------------------------------------------------------------
-- The first half of tick
-- ---------------------------------------------------------------------------

/-- What becomes of a packet in `b`, for the connections: nothing, it is a
segment for one of them, or a SYN for none of them. -/
inductive Taken (b : Buf) (s s' : System) : Prop
  | idle (hconns : s'.uipConns = s.uipConns)
  | segment (s₁ s₂ : System) (c : Fin UIP_CONNS) (hpre : s₁.uipConns = s.uipConns) (hbuf : s₁.uip.uipBuf = b)
      (hlen : s₁.uip.uipLen = b.be16 Offset.len) (hmatch : tcpMatches b (s.uipConns c)) (h : s₁.found c = some s₂)
      (hpost : s'.uipConns = s₂.uipConns)
  | syn (c : Fin UIP_CONNS) (hnone : ∀ i, ¬tcpMatches b (s.uipConns i)) (hsyn : b Offset.tcpflags &&& TCP_CTL = TCP_SYN)
      (h : Setup c (b.u16 Offset.destport) (b.u16 Offset.srcport) (b.be32 Offset.srcipaddr) s s')

theorem Taken.around (hpre : s₁.uipConns = s.uipConns) (hpost : s'.uipConns = s₂.uipConns) (h : Taken b s₁ s₂) : Taken b s s' := by
  cases h with
  | idle hconns => exact .idle (hpost.trans (hconns.trans hpre))
  | segment s₃ s₄ c hpre₃ hbuf hlen hmatch h hpost₄ =>
    exact .segment s₃ s₄ c (hpre₃.trans hpre) hbuf hlen (hpre ▸ hmatch) h (hpost.trans hpost₄)
  | syn c hnone hsyn h => exact .syn c (hpre ▸ hnone) hsyn (h.around hpre hpost)

theorem tcpInput_taken (hlen : s.uip.uipLen = s.uip.uipBuf.be16 Offset.len) (h : s.tcpInput = some s') : Taken s.uip.uipBuf s s' := by
  simp only [tcpInput, Option.bind_eq_bind, Option.pure_def] at h
  obtain ⟨sum, -, h⟩ := Option.bind_eq_some_iff.mp h
  split at h
  · cases h
    exact .idle rfl
  · split at h
    · rename_i c hfind
      exact .segment s s' c rfl rfl hlen (by simpa using List.find?_some hfind) h rfl
    · rename_i hfind
      split at h
      · exact .idle (reset_only h).uipConns
      · rename_i hsyn
        split at h
        · rcases foundListen_setup h with hconns | ⟨c, hsetup⟩
          · exact .idle hconns
          · refine .syn c (fun i hmatch => ?_) (not_not.mp hsyn) hsetup
            exact List.find?_eq_none.mp hfind i (List.mem_finRange i) hmatch
        · exact .idle (reset_only h).uipConns

theorem udpInput_conns (h : s.udpInput = some s') : s'.uipConns = s.uipConns := by
  simp only [udpInput, Option.bind_eq_bind, Option.pure_def] at h
  generalize hs₁ : (s.setLen (sub16 s.uip.uipLen UIP_IPUDPH_LEN)).setAppdata (UIP_LLH_LEN + UIP_IPUDPH_LEN) = s₁ at h
  have hconns : s₁.uipConns = s.uipConns := by
    rw [← hs₁]
    exact ((setLen_only _).trans (setAppdata_only _)).uipConns
  rw [← hconns]
  split at h <;> obtain ⟨sum, -, h⟩ := Option.bind_eq_some_iff.mp h
  all_goals
    split at h
    · cases h
      exact drop_only.uipConns
    · split at h
      · cases h
        exact drop_only.uipConns
      · obtain ⟨s₂, hcall, h⟩ := Option.bind_eq_some_iff.mp h
        rw [(udpSend_only h).1.uipConns, (udpAppcall_unmoved hcall).conns, ((setFlags_only _).trans (setSlen_only _)).uipConns]

theorem uipInput_taken (h : s.uipInput = some s') : Taken s.uip.uipBuf s s' := by
  simp only [uipInput] at h
  generalize hs₁ : s.initAppdata = s₁ at h
  have h₁ : OnlyUip s s₁ := hs₁ ▸ setAppdata_only _
  have hbuf₁ : s₁.uip.uipBuf = s.uip.uipBuf := by rw [← hs₁]; rfl
  rw [← hbuf₁]
  refine Taken.around h₁.uipConns (rfl : s'.uipConns = s'.uipConns) ?_
  split at h
  · cases h
    exact .idle drop_only.uipConns
  · split at h
    · cases h
      exact .idle drop_only.uipConns
    · generalize hs₂ : s₁.setLen (s₁.uip.uipBuf.be16 Offset.len) = s₂ at h
      have h₂ : OnlyUip s₁ s₂ := hs₂ ▸ setLen_only _
      have hbuf₂ : s₂.uip.uipBuf = s₁.uip.uipBuf := by
        rw [← hs₂]
        exact setLen_buf _ _
      have hlen₂ : s₂.uip.uipLen = s₂.uip.uipBuf.be16 Offset.len := by
        rw [hbuf₂, ← hs₂]
        exact setLen_len _ _
      rw [← hbuf₂]
      refine Taken.around h₂.uipConns (rfl : s'.uipConns = s'.uipConns) ?_
      split at h
      · cases h
        exact .idle drop_only.uipConns
      · split at h
        · exact .idle (udpInput_conns h)
        · split at h
          · cases h
            exact .idle drop_only.uipConns
          · split at h
            · cases h
              exact .idle drop_only.uipConns
            · split at h
              · exact tcpInput_taken hlen₂ h
              · split at h
                · exact .idle (udpInput_conns h)
                · split at h
                  · cases h
                    exact .idle drop_only.uipConns
                  · cases h
                    exact .idle icmpInput_only.uipConns

theorem ipin_conns (s : System) : ((s.setUipPacket s.inPacket).mapUip Uip.arpIpin).uipConns = s.uipConns := rfl

theorem handleFrame_taken (h : s.handleFrame = some s') : Taken s.frameBuf s s' := by
  generalize h₁ : (s.mapBuf fun b => Lib.store b 0 (s.net.readPacket s.inPacket 0 UIP_BUFSIZE)) = s₁
  rw [handleFrame_eq h₁] at h
  have hpre : OnlyUip s s₁ := h₁ ▸ mapBuf_only _
  split at h
  · obtain ⟨s₂, hinput, hsend⟩ := Option.bind_eq_some_iff.mp h
    have hsame : ((s₁.setUipPacket s₁.inPacket).mapUip Uip.arpIpin).uip.uipBuf = s₁.uip.uipBuf := arpIpin_buf _
    have hbuf : ((s₁.setUipPacket s₁.inPacket).mapUip Uip.arpIpin).uip.uipBuf = s.frameBuf := by
      rw [hsame, ← h₁]
      exact mapBuf_buf _ _
    have hconns : ((s₁.setUipPacket s₁.inPacket).mapUip Uip.arpIpin).uipConns = s.uipConns := (ipin_conns s₁).trans hpre.uipConns
    generalize (s₁.setUipPacket s₁.inPacket).mapUip Uip.arpIpin = s₃ at hinput hbuf hconns
    rw [← hbuf]
    exact (uipInput_taken hinput).around hconns (sendOut_only hsend).uipConns
  · split at h
    · have hconns : (s₁.mapUip Uip.arpArpin).uipConns = s.uipConns := (mapUip_only _).uipConns.trans hpre.uipConns
      split at h
      · obtain ⟨⟨s₂, ok⟩, hsend, h⟩ := Option.bind_eq_some_iff.mp h
        cases h
        exact .idle ((networkSend_only hsend).uipConns.trans hconns)
      · cases h
        exact .idle hconns
    · cases h
      exact .idle hpre.uipConns

theorem tickInput_taken (h : s.tickInput = some s') : Taken s.fetch.frameBuf s s' := by
  simp only [tickInput, Option.bind_eq_bind, Option.pure_def, some_release] at h
  have hfetch : (if s.inPacket = NOBLOCK then (s.setNet s.net.receivePacket.1).setInPacket s.net.receivePacket.2 else s) = s.fetch := rfl
  rw [hfetch] at h
  split at h
  · cases h
    exact .idle fetch_unmoved.conns
  · split at h
    · obtain ⟨s₁, hframe, h⟩ := Option.bind_eq_some_iff.mp h
      cases h
      generalize hs₂ : (s.fetch.setPacketstate UIPETHERNET_FREEPACKET).setLen (s.fetch.net.blockSize s.fetch.inPacket) = s₂ at hframe
      have hbuf : s₂.frameBuf = s.fetch.frameBuf := by rw [← hs₂]; rfl
      have hconns : s₂.uipConns = s.uipConns := by rw [← hs₂]; exact fetch_unmoved.conns
      exact hbuf ▸ (handleFrame_taken hframe).around hconns release_unmoved.conns
    · cases h
      exact .idle (release_unmoved.conns.trans fetch_unmoved.conns)

-- ---------------------------------------------------------------------------
-- The pieces
-- ---------------------------------------------------------------------------

theorem tcpMatches_open (h : tcpMatches b (s.uipConns c)) : (s.uipConns c).tcb.Open := by
  simp only [tcpMatches, decide_eq_true_eq] at h
  exact mt flags_iff.mpr h.1

theorem Turn.others {n : Nat} (h : Turn c n s s') (i : Fin UIP_CONNS) (hi : i ≠ c) : s'.uipConns i = s.uipConns i := by
  cases h with
  | quiet h => exact h.others i hi
  | served s₁ s₂ hpre hcall hpost =>
    rw [hpost.others i hi, (UIPClient.appcall_confined hcall).others i hi, hpre.others i hi]

theorem DataTurn.others (h : DataTurn c s s') (i : Fin UIP_CONNS) (hi : i ≠ c) : s'.uipConns i = s.uipConns i := by
  cases h with
  | quiet h => exact h.others i hi
  | timedOut s₁ s₂ hpre _ hcall hpost =>
    rw [(tcpSendNodata_only hpost).uipConns, (UIPClient.appcall_confined hcall).others i hi, hpre.others i hi]
  | poll s₁ s₂ hpre _ _ _ hcall hpost =>
    rw [(appsend_stays hpost).others i hi, (UIPClient.appcall_confined hcall).others i hi, hpre.others i hi]
  | rexmit s₁ s₂ hpre _ _ _ _ _ hcall hpost =>
    rw [(apprexmit_only hpost).uipConns, (UIPClient.appcall_confined hcall).others i hi, hpre.others i hi]

/-- The frame that `tick` looks at is a segment for the connection. -/
def Delivers (s : System) (c : Fin UIP_CONNS) : Prop := tcpMatches s.fetch.frameBuf (s.uipConns c)

/-- The causes that a piece has for the connection. -/
def Justified (s : System) (c : Fin UIP_CONNS) : Piece → Cause → Prop
  | .input, .opened => s.fetch.frameBuf Offset.tcpflags &&& TCP_CTL = TCP_SYN ∧ ∀ i, ¬s.Delivers i
  | .input, e => s.Delivers c ∧ e.Heard s.fetch.frameBuf s.fetch.frameBuf.segmentLen
  | .conn _ _ periodic i, e => i = c ∧ if periodic then e.Timed else e.Answer
  | .call (.connect _ _), e => e = .opened
  | _, _ => False

theorem Justified.heard {e : Cause} (hmatch : s.Delivers c) (h : e.Heard s.fetch.frameBuf s.fetch.frameBuf.segmentLen) :
    Justified s c .input e := by
  cases e <;> first | exact ⟨hmatch, h⟩ | exact h.elim

theorem of_uipConns {P : Cause → Prop} (h : s'.uipConns = s.uipConns) : Follows c P s s' := .of_eq (by rw [h])

theorem tickConn_follows {now nullTimer : BitVec 32} {periodic : Bool} {i : Fin UIP_CONNS}
    (h : s.tickConn now nullTimer periodic i = some s') (c : Fin UIP_CONNS) :
    Follows c (Justified s c (.conn now nullTimer periodic i)) s s' := by
  have hturn : ∀ {t}, DataTurn i s t → t.sendOut = some s' → Follows i (fun e => if periodic then e.Timed else e.Answer) s t →
      Follows c (Justified s c (.conn now nullTimer periodic i)) s s' := by
    intro t hdata hsend hfollows
    refine Follows.trans ?_ (of_uipConns (sendOut_only hsend).uipConns)
    by_cases hi : c = i
    · subst hi
      exact Steps.mono (fun e he => ⟨rfl, he⟩) hfollows
    · exact .of_eq (by rw [hdata.others c hi])
  simp only [tickConn, Option.bind_eq_bind, Option.pure_def] at h
  split at h
  · rename_i hperiodic
    obtain ⟨s₁, htimer, hsend⟩ := Option.bind_eq_some_iff.mp h
    exact hturn (uipTimer_data htimer) hsend (Steps.mono (fun e he => (if_pos hperiodic).mpr he) (uipTimer_follows htimer))
  · rename_i hperiodic
    split at h
    · obtain ⟨s₁, hpoll, hsend⟩ := Option.bind_eq_some_iff.mp h
      exact hturn (uipPoll_data hpoll) hsend (Steps.mono (fun e he => (if_neg hperiodic).mpr he) (uipPoll_follows hpoll))
    · cases h
      exact Steps.refl _

theorem tickInput_follows (h : s.tickInput = some s') (c : Fin UIP_CONNS) : Follows c (Justified s c .input) s s' := by
  cases tickInput_taken h with
  | idle hconns => exact of_uipConns hconns
  | segment s₁ s₂ i hpre hbuf hlen hmatch h hpost =>
    suffices hfollows : Follows c (Justified s c .input) s₁ s₂ from
      ((of_uipConns hpre).trans hfollows).trans (of_uipConns hpost)
    by_cases hi : c = i
    · subst hi
      have hopen : (s₁.uipConns c).tcb.Open := hpre ▸ tcpMatches_open hmatch
      have hn : s₁.segmentLen = s.fetch.frameBuf.segmentLen := by rw [segmentLen, hbuf, hlen]; rfl
      have hfound := found_follows hopen h
      rw [hbuf, hn] at hfound
      exact Steps.mono (fun e he => Justified.heard hmatch he) hfound
    · exact .of_eq (by rw [(found_turn h).others c hi])
  | syn i hnone hsyn h =>
    by_cases hi : c = i
    · subst hi
      have hjustified : Justified s c .input .opened := ⟨hsyn, hnone⟩
      exact .one h.step hjustified
    · exact .of_eq (by rw [h.others c hi])

/-- Every piece moves every connection along the automaton. -/
theorem PieceStep.follows {p : Piece} (h : PieceStep s p s') (c : Fin UIP_CONNS) : Follows c (Justified s c p) s s' := by
  cases h with
  | input h => exact tickInput_follows h c
  | conn h => exact tickConn_follows h c
  | rearm => exact Steps.refl _
  | udp h => exact of_uipConns (UIPUDP.tickUdp_aside h).conns
  | @call a s hnotick h =>
    by_cases htcp : a.isTcp = false
    · exact of_uipConns (step_aside htcp h).conns
    · cases a with
      | tick now nullTimer => exact absurd rfl (hnotick now nullTimer)
      | connect ip port =>
        obtain ⟨⟨s₁, conn⟩, hconnect, rfl⟩ := Option.map_eq_some_iff.mp h
        have hsetup := uipConnect_setup hconnect
        cases conn with
        | none => exact of_uipConns hsetup
        | some i =>
          obtain ⟨lport, -, hsetup⟩ := hsetup
          by_cases hi : c = i
          · subst hi
            have hjustified : Justified s c (.call (.connect ip port)) .opened := rfl
            exact .one hsetup.step hjustified
          · exact .of_eq (by rw [hsetup.others c hi])
      | stop data =>
        have hstop : UIPClient.stop s data = some s' := h
        exact of_uipConns (UIPClient.stop_own hstop).conns
      | write data now buf =>
        obtain ⟨⟨s₁, r⟩, hattempt, rfl⟩ := Option.map_eq_some_iff.mp h
        exact of_uipConns (UIPClient.attempt_own hattempt).conns
      | read data size =>
        obtain ⟨⟨s₁, client, bytes⟩, hread, rfl⟩ := Option.map_eq_some_iff.mp h
        exact of_uipConns (UIPClient.read_own hread).conns
      | flush data =>
        have hflush : UIPClient.flush s data = some s' := h
        exact of_uipConns (UIPClient.flush_own hflush).conns
      | _ => exact absurd rfl htcp

-- ---------------------------------------------------------------------------
-- Runs
-- ---------------------------------------------------------------------------

/-- A piece, the frame that `tick` looks at, and why each connection moves. -/
structure Account where
  piece : Piece
  frame : Buf
  causes : Fin UIP_CONNS → List Cause

structure Explained (s : System) (x : Account) (s' : System) : Prop where
  step : PieceStep s x.piece s'
  frame : x.frame = s.fetch.frameBuf
  moves : ∀ c, Run Tcb.Step (s.uipConns c).tcb (x.causes c) (s'.uipConns c).tcb
  justified : ∀ c, ∀ e ∈ x.causes c, Justified s c x.piece e

/-- Why the connection has moved in a run. -/
def causesOf (c : Fin UIP_CONNS) (es : List Account) : List Cause := es.flatMap fun x => x.causes c

variable {es : List Account} {ps : List Piece}

theorem PieceStep.explained {p : Piece} (h : PieceStep s p s') : ∃ x, x.piece = p ∧ Explained s x s' := by
  choose causes hmoves hjustified using h.follows
  generalize hframe : s.fetch.frameBuf = b
  exact ⟨⟨p, b, causes⟩, rfl, h, hframe.symm, hmoves, hjustified⟩

theorem explained_moves (h : Run Explained s es s') (c : Fin UIP_CONNS) :
    Run Tcb.Step (s.uipConns c).tcb (causesOf c es) (s'.uipConns c).tcb := by
  induction h with
  | nil => exact .nil
  | snoc _ hx ih =>
    rw [causesOf, List.flatMap_append]
    exact ih.append (by simpa using hx.moves c)

/-- `uip.c` keeps to TCP: in every run, every connection moves along the automaton
for causes that the pieces have. -/
theorem conforms (h : Run PieceStep s ps s') : ∃ es, es.map Account.piece = ps ∧ Run Explained s es s' ∧
    ∀ c, Run Tcb.Step (s.uipConns c).tcb (causesOf c es) (s'.uipConns c).tcb := by
  have hexplained : ∃ es, es.map Account.piece = ps ∧ Run Explained s es s' := by
    induction h with
    | nil => exact ⟨[], rfl, .nil⟩
    | snoc _ hstep ih =>
      obtain ⟨es, hes, hrun⟩ := ih
      obtain ⟨x, hpiece, hx⟩ := hstep.explained
      exact ⟨es ++ [x], by rw [List.map_append, hes, ← hpiece]; rfl, hrun.snoc hx⟩
  obtain ⟨es, hes, hrun⟩ := hexplained
  exact ⟨es, hes, hrun, explained_moves hrun⟩

/-- A server on port 7 whose peer opens a connection and sends two bytes. -/
def visited : System :=
  (((System.init (fun _ => 0) [] [1, 2, 3, 4, 5, 6] 0).configure 0x0a000001 0 0xff000000).uipListen (htons 7)).arrive
    (ringSlot 70 (peerFrame 7 TCP_SYN 100 0 [0x99, 0x6e] []) ++ ringSlot 140 (peerFrame 7 TCP_ACK 101 1 [0x90, 0x5d] [9]) ++
      ringSlot 210 (peerFrame 7 TCP_ACK 102 1 [0x90, 0x5c] [9])) 3

theorem conforms_example : ∃ s' es, es.map Account.piece = [.input] ∧ Run Explained visited es s' ∧
    (s'.uipConns 0).tcpstateflags.state = UIP_SYN_RCVD ∧
    ∀ c, Run Tcb.Step (visited.uipConns c).tcb (causesOf c es) (s'.uipConns c).tcb := by
  have hcompute : (visited.tickInput.map fun s' => decide ((s'.uipConns 0).tcpstateflags.state = UIP_SYN_RCVD)) = some true := by
    decide +kernel
  obtain ⟨s', hinput, hcompute⟩ := Option.map_eq_some_iff.mp hcompute
  obtain ⟨es, hes, hrun, hmoves⟩ := conforms (.snoc .nil (.input hinput))
  exact ⟨s', es, hes, hrun, of_decide_eq_true hcompute, hmoves⟩

/-- A piece of the run, in the state in which it was taken. -/
theorem explained_mem {x : Account} (h : Run Explained s es s') (hx : x ∈ es) : ∃ t t', Explained t x t' := by
  induction h with
  | nil => exact absurd hx List.not_mem_nil
  | snoc _ hstep ih =>
    rcases List.mem_append.mp hx with hold | hnew
    · exact ih hold
    · rw [List.mem_singleton.mp hnew]
      exact ⟨_, _, hstep⟩

/-- A segment that is taken is the one expected next, and all of its payload is
taken, if it has no urgent data. -/
theorem Explained.accepted {x : Account} {q : BitVec 32} {n : Nat} (h : Explained s x s') (he : .accept q n ∈ x.causes c)
    (hurg : ¬has (x.frame Offset.tcpflags) TCP_URG) :
    x.piece = .input ∧ x.frame.be32 Offset.seqno = q ∧ n = x.frame.segmentLen ∧ 0 < n := by
  have hj := h.justified c _ he
  rw [h.frame] at hurg ⊢
  cases hp : x.piece <;> rw [hp] at hj
  case input =>
    obtain ⟨-, hpos, ⟨hseqno, hn⟩ | ⟨⟨hurg', -⟩, -⟩⟩ := hj
    · exact ⟨rfl, hseqno, hn, hpos⟩
    · exact absurd hurg' hurg
  case conn now nullTimer periodic i =>
    obtain ⟨-, hj⟩ := hj
    split at hj <;> exact hj.elim
  case call a =>
    cases a with
    | connect ip port =>
      have hopened : Cause.accept q n = .opened := hj
      cases hopened
    | _ => exact hj.elim
  all_goals exact hj.elim

/-- What a connection takes from its peer, in any run, whatever the network does to
the frames: payload and FINs that follow each other in the sequence space, each
from the segment that begins with the octet expected next. -/
theorem received_in_order (h : Run Explained s es s') (hstart : ∀ e ∈ causesOf c es, e.starts = false)
    (hurg : ∀ x ∈ es, ¬has (x.frame Offset.tcpflags) TCP_URG) (stream : BitVec 32 → β) :
    (((causesOf c es).filterMap Cause.received).flatMap fun p => octets stream p.1 p.2) =
        octets stream (s.uipConns c).rcvNxt (((causesOf c es).filterMap Cause.received).map (·.2)).sum ∧
      (s'.uipConns c).rcvNxt =
        (s.uipConns c).rcvNxt + BitVec.ofNat 32 (((causesOf c es).filterMap Cause.received).map (·.2)).sum ∧
      ∀ x ∈ es, ∀ q n, .accept q n ∈ x.causes c →
        x.piece = .input ∧ x.frame.be32 Offset.seqno = q ∧ n = x.frame.segmentLen ∧ 0 < n := by
  obtain ⟨hoctets, hnext⟩ := (Tcb.received (explained_moves h c) hstart).octets stream
  refine ⟨hoctets, hnext, fun x hx q n he => ?_⟩
  obtain ⟨t, t', hexplained⟩ := explained_mem h hx
  exact hexplained.accepted he (hurg x hx)

/-- A segment without a SYN sets no `rcv_nxt` anew. -/
theorem Explained.continues {x : Account} (h : Explained s x s') (hpiece : x.piece = .input) (hmatch : s.Delivers c)
    (hflags : s.fetch.frameBuf Offset.tcpflags = TCP_ACK) : ∀ e ∈ x.causes c, e.starts = false := by
  intro e he
  have hj := h.justified c e he
  rw [hpiece] at hj
  cases e with
  | opened => exact absurd hmatch (hj.2 c)
  | synack q =>
    obtain ⟨-, hsyn, -⟩ := hj
    rw [hflags] at hsyn
    exact absurd hsyn (by decide)
  | _ => rfl

theorem visited_runs : ∃ s₂ s₃ x, Explained s₂ x s₃ ∧ x.piece = .input ∧ x.frame Offset.tcpflags = TCP_ACK ∧
    (∀ e ∈ x.causes 0, e.starts = false) ∧ (s₂.uipConns 0).len = 0 ∧
    (s₂.uipConns 0).tcpstateflags.state = UIP_ESTABLISHED ∧ (s₃.uipConns 0).tcpstateflags.state = UIP_ESTABLISHED ∧
    (s₃.uipConns 0).rcvNxt = (s₂.uipConns 0).rcvNxt + 1 := by
  have hcompute : (visited.tickInput.bind fun s₁ => s₁.tickInput.bind fun s₂ => s₂.tickInput.map fun s₃ =>
      decide (tcpMatches s₂.fetch.frameBuf (s₂.uipConns 0) ∧ s₂.fetch.frameBuf Offset.tcpflags = TCP_ACK ∧
        (s₂.uipConns 0).len = 0 ∧ (s₂.uipConns 0).tcpstateflags.state = UIP_ESTABLISHED ∧
        (s₃.uipConns 0).tcpstateflags.state = UIP_ESTABLISHED ∧
        (s₃.uipConns 0).rcvNxt = (s₂.uipConns 0).rcvNxt + 1)) = some true := by
    decide +kernel
  generalize visited = s₀ at hcompute
  obtain ⟨s₁, h₁, hcompute⟩ := Option.bind_eq_some_iff.mp hcompute
  obtain ⟨s₂, h₂, hcompute⟩ := Option.bind_eq_some_iff.mp hcompute
  obtain ⟨s₃, h₃, hcompute⟩ := Option.map_eq_some_iff.mp hcompute
  obtain ⟨hmatch, hflags, hlen, hstate, hstate', hnext⟩ := of_decide_eq_true hcompute
  obtain ⟨x, hpiece, hx⟩ := PieceStep.explained (.input h₃)
  exact ⟨s₂, s₃, x, hx, hpiece, hx.frame ▸ hflags, hx.continues hpiece hmatch hflags, hlen, hstate, hstate', hnext⟩

theorem received_in_order_example : ∃ (s s' : System) (x : Account), x.piece = .input ∧
    (s'.uipConns 0).rcvNxt = (s.uipConns 0).rcvNxt + 1 ∧
    (s'.uipConns 0).rcvNxt =
      (s.uipConns 0).rcvNxt + BitVec.ofNat 32 (((causesOf 0 [x]).filterMap Cause.received).map (·.2)).sum := by
  obtain ⟨s, s', x, hx, hpiece, hflags, hstart, -, -, -, hnext⟩ := visited_runs
  have hcauses : causesOf 0 [x] = x.causes 0 := List.flatMap_singleton _ _
  have hreceived := received_in_order (.snoc .nil hx) (hcauses.symm ▸ hstart)
    (fun y hy => by rw [List.mem_singleton.mp hy, hflags]; decide) id
  exact ⟨s, s', x, hpiece, hnext, hreceived.2.1⟩

/-- While a connection is established it has at most one segment outstanding, and
what has been acknowledged is what has been sent before. -/
theorem stop_and_wait (h : Run Explained s es s') (hopened : .opened ∉ causesOf c es) (hlen : (s.uipConns c).len = 0)
    (hstate : (s.uipConns c).tcpstateflags.state = UIP_ESTABLISHED) (hstate' : (s'.uipConns c).tcpstateflags.state = UIP_ESTABLISHED) :
    Contiguous (s.uipConns c).sndNxt ((causesOf c es).filterMap Cause.acked) (s'.uipConns c).sndNxt ∧
      (s'.uipConns c).tcb.Alternates ((causesOf c es).filterMap Cause.sent) ((causesOf c es).filterMap Cause.acked) := by
  have hmoves := explained_moves h c
  exact ⟨Tcb.acked hmoves fun e he heq => hopened (heq ▸ he), Tcb.alternates hmoves hopened hlen hstate hstate'⟩

/-- A connection comes from nothing in a frame or a `connect` only. -/
theorem Explained.unopened {x : Account} (h : Explained s x s') (hpiece : ∀ ip port, x.piece ≠ .call (.connect ip port))
    (hmatch : x.piece = .input → s.Delivers c) : .opened ∉ x.causes c := by
  intro he
  have hj := h.justified c _ he
  cases hp : x.piece <;> rw [hp] at hj
  case input => exact hj.2 c (hmatch hp)
  case conn now nullTimer periodic i =>
    obtain ⟨-, hj⟩ := hj
    split at hj <;> exact hj.elim
  case call a =>
    cases a with
    | connect ip port => exact hpiece ip port hp
    | _ => exact hj.elim
  all_goals exact hj.elim

/-- A peer that acknowledges the first byte it gets. -/
def acknowledging : System :=
  (((System.init (fun _ => 0) [] [1, 2, 3, 4, 5, 6] 0).configure 0x0a000001 0 0xff000000).uipListen (htons 7)).arrive
    (ringSlot 70 (synFrame [2, 0] [0x85, 0x66]) ++ ringSlot 140 (peerFrame 7 TCP_ACK 101 1 [0x99, 0x5e] []) ++
      ringSlot 210 (peerFrame 7 TCP_ACK 101 2 [0x99, 0x5d] [])) 3

/-- The sketch writes a byte, the turn of the timer sends it, and the peer
acknowledges it. -/
theorem stop_and_wait_example : ∃ (s s' : System) (es : List Account), Run Explained s es s' ∧
    es.map Account.piece = [.call (.write (some 0) 0 [7]), .conn 0 0 true 0, .input] ∧
    (s'.uipConns 0).sndNxt = (s.uipConns 0).sndNxt + 1 ∧
    Contiguous (s.uipConns 0).sndNxt ((causesOf 0 es).filterMap Cause.acked) (s'.uipConns 0).sndNxt ∧
    (s'.uipConns 0).tcb.Alternates ((causesOf 0 es).filterMap Cause.sent) ((causesOf 0 es).filterMap Cause.acked) := by
  have hcompute : (acknowledging.tickInput.bind fun s₁ => s₁.tickInput.bind fun s₂ =>
      (s₂.step (.write (some 0) 0 [7])).bind fun s₃ => (s₃.tickConn 0 0 true 0).bind fun s₄ => s₄.tickInput.map fun s₅ =>
        decide (tcpMatches s₄.fetch.frameBuf (s₄.uipConns 0) ∧ (s₂.uipConns 0).len = 0 ∧ (s₂.uipConns 0).tcpstateflags.state = UIP_ESTABLISHED ∧
          (s₅.uipConns 0).tcpstateflags.state = UIP_ESTABLISHED ∧
          (s₅.uipConns 0).sndNxt = (s₂.uipConns 0).sndNxt + 1)) = some true := by
    decide +kernel
  generalize acknowledging = s₀ at hcompute
  obtain ⟨s₁, -, hcompute⟩ := Option.bind_eq_some_iff.mp hcompute
  obtain ⟨s₂, -, hcompute⟩ := Option.bind_eq_some_iff.mp hcompute
  obtain ⟨s₃, hwrite, hcompute⟩ := Option.bind_eq_some_iff.mp hcompute
  obtain ⟨s₄, hconn, hcompute⟩ := Option.bind_eq_some_iff.mp hcompute
  obtain ⟨s₅, hinput, hcompute⟩ := Option.map_eq_some_iff.mp hcompute
  obtain ⟨hmatch, hlen, hstate, hstate', hnext⟩ := of_decide_eq_true hcompute
  obtain ⟨x, hx, hwritten⟩ := PieceStep.explained (.call (by rintro _ _ ⟨⟩) hwrite)
  obtain ⟨y, hy, hpolled⟩ := PieceStep.explained (.conn hconn)
  obtain ⟨z, hz, hacked⟩ := PieceStep.explained (.input hinput)
  have hrun : Run Explained s₂ [x, y, z] s₅ := .snoc (.snoc (.snoc .nil hwritten) hpolled) hacked
  have hopened : .opened ∉ causesOf 0 [x, y, z] := by
    intro he
    obtain ⟨w, hw, hcause⟩ := List.mem_flatMap.mp he
    rcases List.mem_cons.mp hw with rfl | hw
    · exact hwritten.unopened (by simp [hx]) (by simp [hx]) hcause
    rcases List.mem_cons.mp hw with rfl | hw
    · exact hpolled.unopened (by simp [hy]) (by simp [hy]) hcause
    · obtain rfl := List.mem_singleton.mp hw
      exact hacked.unopened (by simp [hz]) (fun _ => hmatch) hcause
  obtain ⟨hcontiguous, halternates⟩ := stop_and_wait hrun hopened hlen hstate hstate'
  exact ⟨s₂, s₅, _, hrun, by simp [hx, hy, hz], hnext, hcontiguous, halternates⟩

-- ---------------------------------------------------------------------------
-- The handshake
-- ---------------------------------------------------------------------------

/-- A new connection is all that happens to its slot in a piece. -/
theorem Explained.opened {x : Account} (h : Explained s x s') (hx : .opened ∈ x.causes c) :
    (s'.uipConns c).tcb.SynOut (s'.uipConns c).sndNxt := by
  refine Tcb.opened_run (h.moves c) (fun e he => ?_) (List.ne_nil_of_mem hx)
  have hopened := h.justified c _ hx
  have hj := h.justified c e he
  cases hp : x.piece <;> rw [hp] at hopened hj
  case input =>
    cases e with
    | opened => rfl
    | _ => exact absurd hj.1 (hopened.2 c)
  case conn now nullTimer periodic i =>
    obtain ⟨-, hopened⟩ := hopened
    split at hopened <;> exact hopened.elim
  case call a =>
    cases a with
    | connect ip port => exact hj
    | _ => exact hj.elim
  all_goals exact hj.elim

/-- The connection has been set up in the run, and since then a segment has
acknowledged its SYN. -/
def Acknowledged (c : Fin UIP_CONNS) (s : System) (es : List Account) : Prop :=
  ∃ es₁ x₀ es₂ t, es = es₁ ++ x₀ :: es₂ ∧ Run Explained s (es₁ ++ [x₀]) t ∧ .opened ∈ x₀.causes c ∧
    (∀ x ∈ es₂, .opened ∉ x.causes c) ∧ ∃ x ∈ es₂, .ack (t.uipConns c).sndNxt 1 ∈ x.causes c ∧ x.piece = .input ∧
      has (x.frame Offset.tcpflags) TCP_ACK ∧ x.frame.be32 Offset.ackno = (t.uipConns c).sndNxt + 1

theorem Explained.acknowledges {x : Account} {q : BitVec 32} (h : Explained s x s') (he : .ack q 1 ∈ x.causes c) :
    x.piece = .input ∧ has (x.frame Offset.tcpflags) TCP_ACK ∧ x.frame.be32 Offset.ackno = q + 1 := by
  have hj := h.justified c _ he
  rw [h.frame]
  cases hp : x.piece <;> rw [hp] at hj
  case input => exact ⟨rfl, hj.2⟩
  case conn now nullTimer periodic i =>
    obtain ⟨-, hj⟩ := hj
    split at hj <;> exact hj.elim
  case call a =>
    cases a with
    | connect ip port =>
      have hopened : Cause.ack q 1 = .opened := hj
      cases hopened
    | _ => exact hj.elim
  all_goals exact hj.elim

/-- A connection comes past the handshake only if its SYN has been acknowledged. -/
theorem handshake (h : Run Explained s es s') (h0 : (s.uipConns c).tcpstateflags.state = UIP_CLOSED)
    (hstate : (s'.uipConns c).tcpstateflags.state ∉ [UIP_CLOSED, UIP_SYN_SENT, UIP_SYN_RCVD]) : Acknowledged c s es := by
  have hcome : (s'.uipConns c).tcb.state = UIP_CLOSED ∨ Acknowledged c s es ∨
      ∃ es₁ x₀ es₂ t, es = es₁ ++ x₀ :: es₂ ∧ Run Explained s (es₁ ++ [x₀]) t ∧ .opened ∈ x₀.causes c ∧
        (∀ x ∈ es₂, .opened ∉ x.causes c) ∧ (s'.uipConns c).tcb.SynOut (t.uipConns c).sndNxt := by
    clear hstate
    induction h with
    | nil => exact .inl h0
    | @snoc es u x v hrun hstep ih =>
      by_cases hopened : .opened ∈ x.causes c
      · refine .inr (.inr ⟨es, x, [], v, rfl, hrun.snoc hstep, hopened, ?_, hstep.opened hopened⟩)
        exact fun y hy => absurd hy List.not_mem_nil
      · rcases ih with hclosed | ⟨es₁, x₀, es₂, t, rfl, hsetup, hx₀, hlater, y, hy, hack⟩ | ⟨es₁, x₀, es₂, t, rfl, hsetup, hx₀, hlater, hsyn⟩
        · exact .inl (Tcb.stays_closed (hstep.moves c) hopened hclosed)
        all_goals
          have hlater' : ∀ y ∈ es₂ ++ [x], .opened ∉ y.causes c := fun y hy =>
            (List.mem_append.mp hy).elim (hlater y) fun hy => List.mem_singleton.mp hy ▸ hopened
          have hsplit : es₁ ++ x₀ :: es₂ ++ [x] = es₁ ++ x₀ :: (es₂ ++ [x]) := by simp
        · exact .inr (.inl ⟨es₁, x₀, _, t, hsplit, hsetup, hx₀, hlater', y, List.mem_append_left _ hy, hack⟩)
        · rcases hsyn.run (hstep.moves c) hopened with hclosed | hsyn' | hack
          · exact .inl hclosed
          · exact .inr (.inr ⟨es₁, x₀, _, t, hsplit, hsetup, hx₀, hlater', hsyn'⟩)
          · exact .inr (.inl ⟨es₁, x₀, _, t, hsplit, hsetup, hx₀, hlater', x, List.mem_append_right _ (List.mem_singleton_self x),
              hack, hstep.acknowledges hack⟩)
  have hopen : (s'.uipConns c).tcb.state ∉ [UIP_CLOSED, UIP_SYN_SENT, UIP_SYN_RCVD] := hstate
  rcases hcome with hclosed | hack | ⟨_, _, _, _, -, -, -, -, hsyn⟩
  · simp [hclosed] at hopen
  · exact hack
  · rcases hsyn.state with hsyn | hsyn <;> simp [hsyn] at hopen

theorem handshake_example : ∃ s' es, Run Explained visited es s' ∧ (s'.uipConns 0).tcpstateflags.state = UIP_ESTABLISHED ∧
    Acknowledged 0 visited es := by
  have hcompute : (visited.tickInput.bind fun s₁ => s₁.tickInput.map fun s' =>
      decide ((s'.uipConns 0).tcpstateflags.state = UIP_ESTABLISHED)) = some true := by
    decide +kernel
  have h0 : (visited.uipConns 0).tcpstateflags.state = UIP_CLOSED := rfl
  generalize visited = s₀ at hcompute h0
  obtain ⟨s₁, h₁, hcompute⟩ := Option.bind_eq_some_iff.mp hcompute
  obtain ⟨s₂, h₂, hcompute⟩ := Option.map_eq_some_iff.mp hcompute
  obtain ⟨x₁, -, hx₁⟩ := PieceStep.explained (.input h₁)
  obtain ⟨x₂, -, hx₂⟩ := PieceStep.explained (.input h₂)
  have hstate := of_decide_eq_true hcompute
  have hrun : Run Explained s₀ [x₁, x₂] s₂ := .snoc (.snoc .nil hx₁) hx₂
  exact ⟨s₂, _, hrun, hstate, handshake hrun h0 (by rw [hstate]; decide)⟩

-- ---------------------------------------------------------------------------
-- Addresses
-- ---------------------------------------------------------------------------

/-- No two connections have the same addresses and ports. -/
def Distinct (s : System) : Prop :=
  ∀ c d, (s.uipConns c).tcb.Open → (s.uipConns d).tcb.Open → (s.uipConns c).lport = (s.uipConns d).lport →
    (s.uipConns c).rport = (s.uipConns d).rport → (s.uipConns c).ripaddr = (s.uipConns d).ripaddr → c = d

/-- What a move that is no new connection leaves. -/
theorem Follows.old {P : Cause → Prop} (h : Follows c P s s') (hP : ∀ e, P e → e ≠ .opened) :
    ((s'.uipConns c).tcb.Open → (s.uipConns c).tcb.Open) ∧ (s'.uipConns c).lport = (s.uipConns c).lport ∧
      (s'.uipConns c).rport = (s.uipConns c).rport ∧ (s'.uipConns c).ripaddr = (s.uipConns c).ripaddr := by
  obtain ⟨es, hrun, hes⟩ := h
  have hkept : ∀ {t t' : Tcb} {es : List Cause}, Run Tcb.Step t es t' → (∀ e ∈ es, e ≠ .opened) →
      (t'.Open → t.Open) ∧ t'.lport = t.lport ∧ t'.rport = t.rport ∧ t'.ripaddr = t.ripaddr := by
    intro t t' es hrun hes
    induction hrun with
    | nil => exact ⟨id, rfl, rfl, rfl⟩
    | @snoc es t₁ e t₂ _ hstep ih =>
      obtain ⟨hopen, hlport, hrport, hripaddr⟩ := ih fun e he => hes e (List.mem_append_left _ he)
      have he := hes e (List.mem_append_right _ (List.mem_singleton_self e))
      obtain ⟨hlport', hrport', hripaddr'⟩ := hstep.tuple he
      exact ⟨fun h => hopen ((hstep.closed h).resolve_right he), hlport'.trans hlport, hrport'.trans hrport, hripaddr'.trans hripaddr⟩
  exact hkept hrun fun e he => hP e (hes e he)

/-- A piece gives no connection new addresses, or a slot addresses that no
connection has. -/
inductive Addressed (s s' : System) : Prop
  | kept (h : ∀ c, ((s'.uipConns c).tcb.Open → (s.uipConns c).tcb.Open) ∧ (s'.uipConns c).lport = (s.uipConns c).lport ∧
      (s'.uipConns c).rport = (s.uipConns c).rport ∧ (s'.uipConns c).ripaddr = (s.uipConns c).ripaddr)
  | setup (c : Fin UIP_CONNS) (lport rport : Nat) (ripaddr : BitVec 32) (h : Setup c lport rport ripaddr s s')
      (hfresh : ∀ i, (s.uipConns i).tcb.Open → (s.uipConns i).lport = lport → (s.uipConns i).rport = rport →
        (s.uipConns i).ripaddr ≠ ripaddr)

theorem Addressed.distinct (h : Addressed s s') (hs : s.Distinct) : s'.Distinct := by
  intro c d hc hd hlport hrport hripaddr
  cases h with
  | kept h =>
    obtain ⟨hopenc, hlc, hrc, hic⟩ := h c
    obtain ⟨hopend, hld, hrd, hid⟩ := h d
    exact hs c d (hopenc hc) (hopend hd) (hlc ▸ hld ▸ hlport) (hrc ▸ hrd ▸ hrport) (hic ▸ hid ▸ hripaddr)
  | setup i lport rport ripaddr h hfresh =>
    have hother : ∀ {j}, j ≠ i → (s'.uipConns j).tcb.Open → (s'.uipConns i).lport = (s'.uipConns j).lport →
        (s'.uipConns i).rport = (s'.uipConns j).rport → (s'.uipConns i).ripaddr ≠ (s'.uipConns j).ripaddr := by
      intro j hj
      rw [h.others j hj, h.lport, h.rport, h.ripaddr]
      exact fun hopen hl hr heq => hfresh j hopen hl.symm hr.symm heq.symm
    by_cases hci : c = i
    · by_cases hdi : d = i
      · exact hci.trans hdi.symm
      · subst hci
        exact absurd hripaddr (hother hdi hd hlport hrport)
    · by_cases hdi : d = i
      · subst hdi
        exact absurd hripaddr.symm (hother hci hc hlport.symm hrport.symm)
      · rw [h.others c hci] at hc hlport hrport hripaddr
        rw [h.others d hdi] at hd hlport hrport hripaddr
        exact hs c d hc hd hlport hrport hripaddr

theorem tcpMatches_iff : tcpMatches b (s.uipConns c) ↔ (s.uipConns c).tcb.Open ∧ b.u16 Offset.destport = (s.uipConns c).lport ∧
    b.u16 Offset.srcport = (s.uipConns c).rport ∧ b.be32 Offset.srcipaddr = (s.uipConns c).ripaddr := by
  simp only [tcpMatches, decide_eq_true_eq]
  exact and_congr_left' (not_congr flags_iff)

theorem Justified.old {p : Piece} (hp : p ≠ .input) (hconnect : ∀ ip port, p ≠ .call (.connect ip port)) {e : Cause}
    (h : Justified s c p e) : e ≠ .opened := by
  cases p with
  | input => exact absurd rfl hp
  | conn now nullTimer periodic i =>
    obtain ⟨-, h⟩ := h
    rintro rfl
    split at h <;> exact h
  | call a =>
    cases a with
    | connect ip port => exact absurd rfl (hconnect ip port)
    | _ => exact h.elim
  | _ => exact h.elim

theorem PieceStep.addressed {p : Piece} (h : PieceStep s p s') : Addressed s s' := by
  by_cases hp : p = .input
  · subst hp
    cases h with
    | input h =>
      cases tickInput_taken h with
      | idle hconns => exact .kept fun c => by rw [hconns]; exact ⟨id, rfl, rfl, rfl⟩
      | segment s₁ s₂ i hpre hbuf hlen hmatch h hpost =>
        refine .kept fun c => ?_
        rw [hpost, ← hpre]
        by_cases hi : c = i
        · subst hi
          have hopen : (s₁.uipConns c).tcb.Open := hpre ▸ tcpMatches_open hmatch
          refine (found_follows hopen h).old fun e he => ?_
          rintro rfl
          exact he
        · rw [(found_turn h).others c hi]
          exact ⟨id, rfl, rfl, rfl⟩
      | syn c hnone hsyn h =>
        refine .setup c _ _ _ h fun i hopen hlport hrport hripaddr => ?_
        exact hnone i (tcpMatches_iff.mpr ⟨hopen, hlport.symm, hrport.symm, hripaddr.symm⟩)
  · by_cases hconnect : ∃ ip port, p = .call (.connect ip port)
    · obtain ⟨ip, port, rfl⟩ := hconnect
      cases h with
      | call _ h =>
        obtain ⟨⟨s₁, conn⟩, hconnect, rfl⟩ := Option.map_eq_some_iff.mp h
        have hsetup := uipConnect_setup hconnect
        cases conn with
        | none => exact .kept fun c => by rw [hsetup]; exact ⟨id, rfl, rfl, rfl⟩
        | some i =>
          obtain ⟨lport, hport, hsetup⟩ := hsetup
          exact .setup i lport _ _ hsetup fun j hopen hlport => absurd hlport (hport j hopen)
    · refine .kept fun c => (h.follows c).old fun e he => he.old hp fun ip port heq => hconnect ⟨ip, port, heq⟩

/-- In every state that can be reached, a segment belongs to one connection at
most: no two have the same addresses and ports. -/
theorem one_connection {ram : Nat → Byte} {transmissions : List Transmission} {mac : List Byte} {now : BitVec 32}
    (h : Run PieceStep (System.init ram transmissions mac now) ps s) :
    s.Distinct ∧ ∀ b c d, tcpMatches b (s.uipConns c) → tcpMatches b (s.uipConns d) → c = d := by
  have hs : s.Distinct := h.invariant (fun hs hstep => hstep.addressed.distinct hs) fun c _ hopen => absurd ⟨rfl, rfl⟩ hopen
  refine ⟨hs, fun b c d hc hd => ?_⟩
  obtain ⟨hopenc, hlc, hrc, hic⟩ := tcpMatches_iff.mp hc
  obtain ⟨hopend, hld, hrd, hid⟩ := tcpMatches_iff.mp hd
  exact hs c d hopenc hopend (hlc.symm.trans hld) (hrc.symm.trans hrd) (hic.symm.trans hid)

/-- Two connections to the same port of the same host. -/
theorem one_connection_example : ∃ s : System, (s.uipConns 0).tcb.Open ∧ (s.uipConns 1).tcb.Open ∧
    (s.uipConns 0).rport = (s.uipConns 1).rport ∧ s.Distinct := by
  have hcompute : (((System.init (fun _ => 0) [] [] 0).step (.connect 0x0a000002 7)).bind fun s₁ =>
      (s₁.step (.connect 0x0a000002 7)).map fun s₂ => decide ((s₂.uipConns 0).tcpstateflags.state = UIP_SYN_SENT ∧
        (s₂.uipConns 1).tcpstateflags.state = UIP_SYN_SENT ∧ (s₂.uipConns 0).rport = (s₂.uipConns 1).rport)) = some true := by
    decide +kernel
  obtain ⟨s₁, h₁, hcompute⟩ := Option.bind_eq_some_iff.mp hcompute
  obtain ⟨s₂, h₂, hcompute⟩ := Option.map_eq_some_iff.mp hcompute
  obtain ⟨hstate₀, hstate₁, hport⟩ := of_decide_eq_true hcompute
  have hopen : ∀ {conn : Conn}, conn.tcpstateflags.state = UIP_SYN_SENT → conn.tcb.Open :=
    fun h => .of_state (by simp [Conn.tcb, h])
  have hrun : Run PieceStep (System.init (fun _ => 0) [] [] 0) [.call (.connect 0x0a000002 7), .call (.connect 0x0a000002 7)] s₂ :=
    .snoc (.snoc .nil (.call (by rintro _ _ ⟨⟩) h₁)) (.call (by rintro _ _ ⟨⟩) h₂)
  exact ⟨s₂, hopen hstate₀, hopen hstate₁, hport, (one_connection hrun).1⟩

end System

end UIPEthernet
