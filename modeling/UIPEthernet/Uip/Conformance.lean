import UIPEthernet.Uip.DataTurn
import UIPEthernet.Uip.Protocol
import UIPEthernet.UIPClient.Outcome

/-!
# uip_process moves along the automaton

Function by function, `uip_process` moves a connection along `Tcb.Step`, and
the causes are in the segment that it is processing. The callback may stop or
restart the connection, and its answer is at most one new segment or the end.
-/

namespace UIPEthernet

open TcpState Lib

def Conn.tcb (conn : Conn) : Tcb where
  ripaddr := conn.ripaddr
  lport := conn.lport
  rport := conn.rport
  rcvNxt := conn.rcvNxt
  sndNxt := conn.sndNxt
  len := conn.len
  state := conn.tcpstateflags.state
  stopped := conn.tcpstateflags.stopped
  timer := conn.timer
  nrtx := conn.nrtx

/-- The causes behind a callback. -/
def Cause.Answer : Cause → Prop
  | .callback | .send _ _ | .close => True
  | _ => False

/-- The causes of a timer. -/
def Cause.Timed : Cause → Prop
  | .countdown | .rexmit | .timeout | .waited => True
  | e => e.Answer

/-- The length that is left behind urgent data. It is more than the payload if
the urgent pointer leads beyond that. -/
def Buf.Urgent (b : Buf) (n k : Nat) : Prop := has (b Offset.tcpflags) TCP_URG ∧ k = sub16 n (b.be16 Offset.urgp)

/-- The causes of a segment that is in `b`, with `n` bytes of payload. -/
def Cause.Heard (b : Buf) (n : Nat) : Cause → Prop
  | .rst => has (b Offset.tcpflags) TCP_RST
  | .ack q k => has (b Offset.tcpflags) TCP_ACK ∧ b.be32 Offset.ackno = q + BitVec.ofNat 32 k
  | .synack q => b Offset.tcpflags &&& TCP_CTL = TCP_SYN ||| TCP_ACK ∧ b.be32 Offset.seqno = q
  | .accept q k => 0 < k ∧ (b.be32 Offset.seqno = q ∧ k = n ∨ b.Urgent n k ∧ (0 < n → b.be32 Offset.seqno = q))
  | .fin q k => has (b Offset.tcpflags) TCP_FIN ∧
      (b.be32 Offset.seqno = q ∧ k = add16 1 n ∨ b.be32 Offset.seqno + BitVec.ofNat 32 n = q ∧ k = 1)
  | .refused | .established | .finAcked => True
  | e => e.Answer

namespace System

/-- The connection moves along the automaton. -/
def Follows (c : Fin UIP_CONNS) (P : Cause → Prop) (s s' : System) : Prop :=
  Steps Tcb.Step P (s.uipConns c).tcb (s'.uipConns c).tcb

variable {s s' s₁ s₂ : System} {c : Fin UIP_CONNS} {P : Cause → Prop} {b : Buf} {n : Nat}

theorem Follows.trans (h : Follows c P s s₁) (h' : Follows c P s₁ s') : Follows c P s s' := Steps.trans h h'

theorem OnlyUip.follows (h : OnlyUip s s') : Follows c P s s' := .of_eq (by rw [h.uipConns])

theorem Cause.Answer.heard {e : Cause} (h : e.Answer) : e.Heard b n := by
  cases e <;> first | exact h | exact h.elim

theorem Cause.Answer.timed {e : Cause} (h : e.Answer) : e.Timed := by
  cases e <;> first | exact h | exact h.elim

theorem mapConn_tcb (f : Conn → Conn) : ((s.mapConn c f).uipConns c).tcb = (f (s.uipConns c)).tcb := by rw [mapConn_self]

/-- A change of the connection that is a step. -/
theorem mapConn_follows {e : Cause} (f : Conn → Conn) (h : Tcb.Step (s.uipConns c).tcb e (f (s.uipConns c)).tcb) (he : P e) :
    Follows c P s (s.mapConn c f) := .one (by rwa [mapConn_tcb]) he

-- ---------------------------------------------------------------------------
-- The callback
-- ---------------------------------------------------------------------------

theorem Confined.tcb (h : UIPClient.Confined c s s') :
    (s'.uipConns c).tcb = { (s.uipConns c).tcb with stopped := (s'.uipConns c).tcpstateflags.stopped } := by
  rw [h.conn]
  rfl

theorem appcall_tcb {flags : BitVec 8} (h : s.appcall c flags = some s') :
    (s'.uipConns c).tcb = { (s.uipConns c).tcb with stopped := (s'.uipConns c).tcpstateflags.stopped } :=
  Confined.tcb (s := s.setFlags flags) (UIPClient.appcall_confined h)

theorem appcall_follows {flags : BitVec 8} (h : s.appcall c flags = some s')
    (hstate : (s.uipConns c).tcpstateflags.state = UIP_ESTABLISHED) (hP : P .callback) : Follows c P s s' :=
  .one (appcall_tcb h ▸ .callback _ hstate) hP

theorem closing_flags (u : Fin UIP_CONNS) : (UIPClient.closing s c u).uip.uipFlags = s.uip.uipFlags ∨
    (UIPClient.closing s c u).uip.uipFlags = UIP_CLOSE := by
  rw [UIPClient.closing]
  split
  · split
    · exact .inr rfl
    · exact .inl rfl
  · exact .inl rfl

theorem polled_flags {u : Fin UIP_CONNS} (h : UIPClient.polled s c u = some s') :
    s'.uip.uipFlags = s.uip.uipFlags ∨ s'.uip.uipFlags = UIP_CLOSE := by
  simp only [UIPClient.polled, Option.bind_eq_bind, Option.pure_def] at h
  split at h
  · obtain ⟨⟨s₁, sendLen⟩, hoffer, h⟩ := Option.bind_eq_some_iff.mp h
    cases h
    exact .inl (by rw [UIPClient.finish_flags, UIPClient.offer_uip hoffer])
  · cases h
    rw [UIPClient.finish_flags]
    exact closing_flags u

theorem closed_flags {u : Fin UIP_CONNS} (h : UIPClient.closed s c u = some s') : s'.uip.uipFlags = s.uip.uipFlags := by
  simp only [UIPClient.closed, UIPClient.flushOut, Option.bind_eq_bind, Option.pure_def, Option.bind_eq_some_iff] at h
  obtain ⟨_, ⟨_, _, h'⟩, h⟩ := h
  cases h'
  cases h
  split <;> rfl

/-- What the callback does to `uip_flags`. -/
theorem appcall_flags {flags : BitVec 8} (h : s.appcall c flags = some s') : s'.uip.uipFlags = flags ∨
    s'.uip.uipFlags = flags ||| UIP_NEWDATA ∨ s'.uip.uipFlags = UIP_CLOSE := by
  rw [appcall, uipclientAppcall] at h
  have hattach : (UIPClient.attach (s.setFlags flags) c).uip.uipFlags = flags := by rw [UIPClient.attach_uip]; rfl
  generalize UIPClient.attach (s.setFlags flags) c = r at h hattach
  split at h
  · cases h
    exact .inl ((UIPClient.finish_flags 0).trans hattach)
  · rename_i u _
    simp only [UIPClient.serve, Option.bind_eq_bind, Option.pure_def] at h
    obtain ⟨r₁, hnew, h⟩ := Option.bind_eq_some_iff.mp h
    have hrestart := UIPClient.restart_only_flags (s := r₁) (c := c) (u := u)
    rw [UIPClient.newdata_uip hnew, hattach] at hrestart
    generalize UIPClient.restart r₁ c u = r₂ at h hrestart
    split at h
    · obtain ⟨r₃, hclosed, h⟩ := Option.bind_eq_some_iff.mp h
      cases h
      rw [UIPClient.finish_flags, closed_flags hclosed]
      exact hrestart.imp_right .inl
    · obtain ⟨r₃, hack, h⟩ := Option.bind_eq_some_iff.mp h
      rcases polled_flags h with hf | hf
      · rw [hf, UIPClient.acked_uip hack]
        exact hrestart.imp_right .inl
      · exact .inr (.inr hf)

theorem appcall_has {flags f : BitVec 8} (h : s.appcall c flags = some s') (hnew : UIP_NEWDATA &&& f = 0)
    (hclose : UIP_CLOSE &&& f = 0) (hf : has s'.uip.uipFlags f) : has flags f := by
  rcases appcall_flags h with heq | heq | heq <;> rw [heq] at hf
  · exact hf
  · rwa [Tables.has_setFlag _ hnew] at hf
  · exact absurd hclose (by simpa [has] using hf)

-- ---------------------------------------------------------------------------
-- What is sent behind it
-- ---------------------------------------------------------------------------

/-- A new segment only if nothing is outstanding. -/
theorem segment_tcb (hacked : has s.uip.uipFlags UIP_ACKDATA → (s.uipConns c).len = 0) :
    ((s.segment c).uipConns c).tcb = (s.uipConns c).tcb ∨
      ∃ n, 0 < n ∧ (s.uipConns c).len = 0 ∧ ((s.segment c).uipConns c).tcb = { (s.uipConns c).tcb with len := n } := by
  simp only [segment]
  split
  · have hzero : (if has s.uip.uipFlags UIP_ACKDATA then s.mapConn c fun conn => { conn with len := 0 } else s : System).uipConns c =
        s.uipConns c := by
      split
      · rename_i h
        rw [mapConn_self, ← hacked h]
      · rfl
    generalize (if has s.uip.uipFlags UIP_ACKDATA then s.mapConn c fun conn => { conn with len := 0 } else s : System) = r at hzero ⊢
    split
    · rename_i hlen
      rw [hzero] at hlen
      rw [mapConn_tcb]
      show (Conn.tcb { r.uipConns c with len := _ }) = _ ∨ ∃ n, 0 < n ∧ _ ∧ Conn.tcb { r.uipConns c with len := _ } = _
      rw [hzero]
      rcases Nat.eq_zero_or_pos (min r.uip.uipSlen (s.uipConns c).mss) with h0 | hpos
      · exact .inl (by rw [h0, ← hlen])
      · exact .inr ⟨_, hpos, hlen, rfl⟩
    · exact .inl (congrArg Conn.tcb hzero)
  · exact .inl rfl

/-- The answer of the application. -/
theorem appsend_follows (hstate : (s.uipConns c).tcpstateflags.state = UIP_ESTABLISHED)
    (hacked : has s.uip.uipFlags UIP_ACKDATA → (s.uipConns c).len = 0) (habort : ¬has s.uip.uipFlags UIP_ABORT)
    (hP : ∀ e : Cause, e.Answer → P e) (h : s.appsend c = some s') : Follows c P s s' := by
  simp only [appsend, if_neg habort] at h
  split at h
  · have hclose : Follows c P (s.setSlen 0) _ := mapConn_follows (fun conn => { conn with len := 1, tcpstateflags := UIP_FIN_WAIT_1, nrtx := 0 })
      (.close hstate) (hP .close trivial)
    exact hclose.trans (tcpSendNodata_only h).follows
  · refine Follows.trans ?_ (apprexmit_only h).follows
    rcases segment_tcb hacked with hsame | ⟨n, hn, hlen, hnew⟩
    · refine .one (e := .callback) ?_ (hP .callback trivial)
      rw [mapConn_tcb]
      have hkeep : ({ (s.segment c).uipConns c with nrtx := 0 } : Conn).tcb = { (s.uipConns c).tcb with nrtx := 0 } := by
        rw [← hsame]
        rfl
      rw [hkeep]
      exact .keep hstate
    · refine .one (e := .send (s.uipConns c).sndNxt n) ?_ (hP (.send _ n) trivial)
      rw [mapConn_tcb]
      have hsend : ({ (s.segment c).uipConns c with nrtx := 0 } : Conn).tcb = { (s.uipConns c).tcb with len := n, nrtx := 0 } := by
        have h := congrArg (fun t : Tcb => { t with nrtx := 0 }) hnew
        exact h
      rw [hsend]
      exact .send n hstate hlen hn

/-- A callback for an established connection, and the answer to it. -/
theorem asked_follows {flags : BitVec 8} (hstate : (s.uipConns c).tcpstateflags.state = UIP_ESTABLISHED)
    (hacked : has flags UIP_ACKDATA → (s.uipConns c).len = 0) (habort : ¬has flags UIP_ABORT)
    (hP : ∀ e : Cause, e.Answer → P e) (hcall : s.appcall c flags = some s₁) (h : s₁.appsend c = some s') : Follows c P s s' := by
  have htcb := appcall_tcb hcall
  have hlen : (s₁.uipConns c).len = (s.uipConns c).len := congrArg Tcb.len htcb
  have hstate₁ : (s₁.uipConns c).tcpstateflags.state = UIP_ESTABLISHED := (congrArg Tcb.state htcb).trans hstate
  refine (appcall_follows hcall hstate (hP .callback trivial)).trans (appsend_follows hstate₁ ?_ ?_ hP h)
  · exact fun hack => hlen.trans (hacked (appcall_has hcall (by decide) (by decide) hack))
  · exact fun habort' => habort (appcall_has hcall (by decide) (by decide) habort')

-- ---------------------------------------------------------------------------
-- Segments
-- ---------------------------------------------------------------------------

/-- What is known of a segment when the state of the connection is looked at: an
acknowledgement has been taken, and payload or a FIN is the one expected next. -/
structure Heeded (b : Buf) (n : Nat) (c : Fin UIP_CONNS) (s : System) : Prop where
  buf : s.uip.uipBuf = b
  len : s.uip.uipLen = n
  flags : Acked s
  acked : has s.uip.uipFlags UIP_ACKDATA → (s.uipConns c).len = 0
  expected : (s.uipConns c).tcpstateflags.state ≠ UIP_SYN_SENT → 0 < n ∨ has (b Offset.tcpflags) TCP_FIN →
    b.be32 Offset.seqno = (s.uipConns c).rcvNxt

theorem parseMss_tcb (h : s.parseMss c = some s') : (s'.uipConns c).tcb = (s.uipConns c).tcb := by
  simp only [parseMss] at h
  split at h
  · obtain ⟨mss, -, h⟩ := Option.bind_eq_some_iff.mp h
    cases mss with
    | none =>
      cases h
      rfl
    | some mss =>
      cases h
      rw [mapConn_tcb]
      rfl
  · cases h
    rfl

theorem accept_follows {k : Nat} (hreceives : (s.uipConns c).tcb.Receives) (hpos : 0 < k)
    (hk : b.be32 Offset.seqno = (s.uipConns c).rcvNxt ∧ k = n ∨
      b.Urgent n k ∧ (0 < n → b.be32 Offset.seqno = (s.uipConns c).rcvNxt)) :
    Follows c (Cause.Heard b n) s (s.addRcvNxt c k) := mapConn_follows _ (.accept k hreceives) ⟨hpos, hk⟩

theorem synRcvdInput_follows (hs : Heeded b n c s) (hstate : (s.uipConns c).tcpstateflags.state = UIP_SYN_RCVD)
    (h : s.synRcvdInput c = some s') : Follows c (Cause.Heard b n) s s' := by
  simp only [synRcvdInput] at h
  split at h
  · rename_i hack
    obtain ⟨s₂, hcall, hpost⟩ := Option.bind_eq_some_iff.mp h
    have hlen := hs.acked hack
    let s₀ := s.mapConn c fun conn => { conn with tcpstateflags := UIP_ESTABLISHED, len := 0 }
    have h₀ : Follows c (Cause.Heard b n) s s₀ := by
      refine mapConn_follows (e := .established) _ ?_ trivial
      have hnew : ({ s.uipConns c with tcpstateflags := UIP_ESTABLISHED, len := 0 } : Conn).tcb =
          { (s.uipConns c).tcb with state := UIP_ESTABLISHED, stopped := false } := by
        simp [Conn.tcb, hlen]
      rw [hnew]
      exact .established hstate hlen
    have hest : (s₀.uipConns c).tcb = { (s.uipConns c).tcb with state := UIP_ESTABLISHED, stopped := false, len := 0 } := by
      rw [mapConn_tcb]
      rfl
    let s₁ := if 0 < s.uip.uipLen then s₀.addRcvNxt c s.uip.uipLen else s₀
    have h₁ : Follows c (Cause.Heard b n) s₀ s₁ ∧ (s₁.uipConns c).tcpstateflags.state = UIP_ESTABLISHED := by
      unfold s₁
      split
      · rename_i hdata
        refine ⟨accept_follows (.inl ⟨congrArg Tcb.state hest, congrArg Tcb.stopped hest⟩) hdata (.inl ⟨?_, hs.len⟩), ?_⟩
        · have hexpected := hs.expected (by simp [hstate]) (.inl (hs.len ▸ hdata))
          exact hexpected.trans (congrArg Tcb.rcvNxt hest).symm
        · rw [addRcvNxt, mapConn_self]
          exact congrArg Tcb.state hest
      · exact ⟨Steps.refl _, congrArg Tcb.state hest⟩
    have hflags : ∀ f ∈ [UIP_CONNECTED ||| UIP_NEWDATA, UIP_CONNECTED], ¬has f UIP_ACKDATA ∧ ¬has f UIP_ABORT := by decide
    have hmem : (if 0 < s.uip.uipLen then UIP_CONNECTED ||| UIP_NEWDATA else UIP_CONNECTED) ∈
        [UIP_CONNECTED ||| UIP_NEWDATA, UIP_CONNECTED] := by split <;> decide
    refine (h₀.trans h₁.1).trans (asked_follows (s := s₁.setSlen 0) h₁.2 ?_ (hflags _ hmem).2 (fun _ => Cause.Answer.heard) hcall hpost)
    exact fun hack => absurd hack (hflags _ hmem).1
  · cases h
    exact drop_only.follows

theorem synSentInput_follows (hs : Heeded b n c s) (hstate : (s.uipConns c).tcpstateflags.state = UIP_SYN_SENT)
    (h : s.synSentInput c = some s') : Follows c (Cause.Heard b n) s s' := by
  simp only [synSentInput] at h
  split at h
  · rename_i hsyn
    obtain ⟨s₁, hmss, h⟩ := Option.bind_eq_some_iff.mp h
    obtain ⟨s₂, hcall, hpost⟩ := Option.bind_eq_some_iff.mp h
    have hsame := parseMss_tcb hmss
    have hstate₁ : (s₁.uipConns c).tcpstateflags.state = UIP_SYN_SENT := (congrArg Tcb.state hsame).trans hstate
    have hlen₁ : (s₁.uipConns c).len = 0 := (congrArg Tcb.len hsame).trans (hs.acked hsyn.1)
    let s₀ := s₁.mapConn c fun conn =>
      { conn with tcpstateflags := UIP_ESTABLISHED, rcvNxt := s.uip.uipBuf.be32 Offset.seqno + 1, len := 0 }
    have h₀ : Follows c (Cause.Heard b n) s₁ s₀ := by
      refine mapConn_follows (e := .synack (s.uip.uipBuf.be32 Offset.seqno)) _ ?_ ⟨hs.buf ▸ hsyn.2, by rw [hs.buf]⟩
      have hnew : ({ s₁.uipConns c with
            tcpstateflags := UIP_ESTABLISHED, rcvNxt := s.uip.uipBuf.be32 Offset.seqno + 1, len := 0 } : Conn).tcb =
          { (s₁.uipConns c).tcb with
            state := UIP_ESTABLISHED, stopped := false, rcvNxt := s.uip.uipBuf.be32 Offset.seqno + 1 } := by
        simp [Conn.tcb, hlen₁]
      rw [hnew]
      exact .synack _ hstate₁ hlen₁
    have hest : (s₀.uipConns c).tcpstateflags.state = UIP_ESTABLISHED := by rw [mapConn_self]
    have hstart : Follows c (Cause.Heard b n) s s₁ := .of_eq hsame
    exact (hstart.trans h₀).trans (asked_follows (s := (s₀.setLen 0).setSlen 0) hest
      (fun hack => absurd hack (by decide : ¬has (UIP_CONNECTED ||| UIP_NEWDATA) UIP_ACKDATA))
      (by decide : ¬has (UIP_CONNECTED ||| UIP_NEWDATA) UIP_ABORT) (fun _ => Cause.Answer.heard) hcall hpost)
  · obtain ⟨s₂, hcall, hpost⟩ := Option.bind_eq_some_iff.mp h
    have hclosed : ((s₂.setTcpState c UIP_CLOSED).uipConns c).tcb =
        { (s.uipConns c).tcb with state := UIP_CLOSED, stopped := false } := by
      rw [setTcpState, mapConn_tcb]
      exact congrArg (fun t : Tcb => { t with state := UIP_CLOSED, stopped := false }) (appcall_tcb hcall)
    have hrefused : Cause.Heard b n .refused := trivial
    refine Steps.one ?_ hrefused
    rw [(reset_only hpost).uipConns, hclosed]
    exact .refused hstate

/-- A FIN in ESTABLISHED: the connection answers with its own. -/
theorem finInput_follows (hs : Heeded b n c s) (hstate : (s.uipConns c).tcpstateflags.state = UIP_ESTABLISHED)
    (hstopped : (s.uipConns c).tcpstateflags.stopped = false) (hfin : has (b Offset.tcpflags) TCP_FIN)
    (h : s.finInput c = some s') : Follows c (Cause.Heard b n) s s' := by
  simp only [finInput] at h
  split at h
  · cases h
    exact drop_only.follows
  · rename_i hout
    obtain ⟨s₂, hcall, hpost⟩ := Option.bind_eq_some_iff.mp h
    have hlen : (s.uipConns c).len = 0 := by simpa [Conn.outstanding] using hout
    have hcount : ((s.addRcvNxt c (add16 1 s.uip.uipLen)).uipConns c).tcb =
        { (s.uipConns c).tcb with rcvNxt := (s.uipConns c).rcvNxt + BitVec.ofNat 32 (add16 1 n) } := by
      rw [addRcvNxt, mapConn_tcb, hs.len]
      rfl
    have hnew : ({ s₂.uipConns c with len := 1, tcpstateflags := UIP_LAST_ACK, nrtx := 0 } : Conn).tcb =
        { (s.uipConns c).tcb with
          rcvNxt := (s.uipConns c).rcvNxt + BitVec.ofNat 32 (add16 1 n), state := UIP_LAST_ACK, stopped := false, len := 1, nrtx := 0 } :=
      -- the callback may have stopped the connection, but its state is set behind it
      congrArg (fun t : Tcb => { t with len := 1, state := UIP_LAST_ACK, stopped := false, nrtx := 0 })
        ((appcall_tcb hcall).trans (by rw [hcount]))
    have hheard : Cause.Heard b n (.fin (s.uipConns c).rcvNxt (add16 1 n)) :=
      ⟨hfin, .inl ⟨hs.expected (by simp [hstate]) (.inr hfin), rfl⟩⟩
    refine Steps.one ?_ hheard
    rw [(tcpSendNodata_only hpost).uipConns, mapConn_tcb, hnew]
    exact .finEstablished _ hstate hstopped hlen

theorem skipUrgent_accepts (hbuf : s.uip.uipBuf = b) (hlen : s.uip.uipLen = n) :
    s.skipUrgent.uip.uipLen = n ∨ b.Urgent n s.skipUrgent.uip.uipLen := by
  rw [skipUrgent_len, hbuf, hlen]
  split
  · rename_i hurg
    exact .inr ⟨hurg, rfl⟩
  · exact .inl rfl

theorem establishedInput_follows (hs : Heeded b n c s) (hstate : (s.uipConns c).tcpstateflags.state = UIP_ESTABLISHED)
    (h : s.establishedInput c = some s') :
    Follows c (Cause.Heard b n) s s' := by
  simp only [establishedInput, hs.buf] at h
  split at h
  · rename_i hfin
    exact finInput_follows hs hstate (by simpa using hfin.2) hfin.1 h
  · have hconns := (skipUrgent_only (s := s)).uipConns
    have hdata : Follows c (Cause.Heard b n) s (s.skipUrgent.acceptData c) ∧
        ((s.skipUrgent.acceptData c).uipConns c).len = (s.uipConns c).len ∧
        ((s.skipUrgent.acceptData c).uipConns c).tcpstateflags = (s.uipConns c).tcpstateflags := by
      unfold acceptData
      split
      · rename_i hnew
        have hconn := congrArg (fun f => f c) hconns
        have hexpected : 0 < n → b.be32 Offset.seqno = (s.skipUrgent.uipConns c).rcvNxt := fun hpos =>
          (hs.expected (by simp [hstate]) (.inl hpos)).trans (congrArg Conn.rcvNxt hconn).symm
        have hreceives : (s.skipUrgent.uipConns c).tcb.Receives :=
          .inl ⟨(congrArg (fun conn => conn.tcpstateflags.state) hconn).trans hstate, by simpa [Conn.tcb] using hnew.2⟩
        refine ⟨skipUrgent_only.follows.trans ((setFlags_only _).follows.trans (accept_follows hreceives hnew.1 ?_)), ?_, ?_⟩
        · rcases skipUrgent_accepts hs.buf hs.len with hsame | hurgent
          · exact .inl ⟨hexpected (hsame ▸ hnew.1), hsame⟩
          · exact .inr ⟨hurgent, hexpected⟩
        · rw [addRcvNxt, mapConn_self]
          exact congrArg (fun conn => conn.len) hconn
        · rw [addRcvNxt, mapConn_self]
          exact congrArg (fun conn => conn.tcpstateflags) hconn
      · exact ⟨skipUrgent_only.follows, by rw [hconns], by rw [hconns]⟩
    have hflags := acceptData_flags (s := s.skipUrgent) (c := c)
    rw [skipUrgent_flags] at hflags
    generalize s.skipUrgent.acceptData c = s₁ at h hdata hflags
    obtain ⟨hdata, hlen, htcp⟩ := hdata
    have hmss : ((s₁.updateMss c).uipConns c).tcb = (s₁.uipConns c).tcb := by
      rw [updateMss, mapConn_tcb]
      rfl
    have hpre : Follows c (Cause.Heard b n) s (s₁.updateMss c) := hdata.trans (.of_eq hmss)
    split at h
    · obtain ⟨s₂, hcall, hpost⟩ := Option.bind_eq_some_iff.mp h
      have hf : s₁.uip.uipFlags ∈ [0, UIP_ACKDATA, UIP_NEWDATA, UIP_ACKDATA ||| UIP_NEWDATA] := by
        rcases hflags with ha | ha <;> rw [ha] <;> rcases hs.flags with hf | hf <;> rw [hf] <;> decide
      have hall : ∀ f ∈ [0, UIP_ACKDATA, UIP_NEWDATA, UIP_ACKDATA ||| UIP_NEWDATA], ¬has f UIP_ABORT := by decide
      have hest : (((s₁.updateMss c).setSlen 0).uipConns c).tcpstateflags.state = UIP_ESTABLISHED :=
        (congrArg Tcb.state hmss).trans ((congrArg TcpStateFlags.state htcp).trans hstate)
      have hpre : Follows c (Cause.Heard b n) s ((s₁.updateMss c).setSlen 0) := hpre
      have hcall : ((s₁.updateMss c).setSlen 0).appcall c s₁.uip.uipFlags = some s₂ := hcall
      refine hpre.trans (asked_follows hest ?_ (hall _ hf) (fun _ => Cause.Answer.heard) hcall hpost)
      · intro hack
        refine (congrArg Tcb.len hmss).trans (hlen.trans (hs.acked ?_))
        rcases hflags with ha | ha <;> rw [ha] at hack
        · exact hack
        · rwa [Tables.has_setFlag _ (by decide)] at hack
    · cases h
      exact hpre.trans drop_only.follows

/-- Payload is counted before the FIN. -/
theorem countData_follows (hlen : s.uip.uipLen = n) (hreceives : (s.uipConns c).tcb.Receives)
    (hexpected : 0 < n → b.be32 Offset.seqno = (s.uipConns c).rcvNxt) :
    Follows c (Cause.Heard b n) s (if 0 < s.uip.uipLen then s.addRcvNxt c s.uip.uipLen else s) := by
  split
  · rename_i hdata
    exact accept_follows hreceives hdata (.inl ⟨hexpected (hlen ▸ hdata), hlen⟩)
  · exact Steps.refl _

theorem countData_tcb (hlen : s.uip.uipLen = n) :
    ((if 0 < s.uip.uipLen then s.addRcvNxt c s.uip.uipLen else s : System).uipConns c).tcb =
      { (s.uipConns c).tcb with rcvNxt := (s.uipConns c).rcvNxt + BitVec.ofNat 32 n } := by
  split
  · rw [addRcvNxt, mapConn_tcb, hlen]
    rfl
  · rename_i hnone
    rw [← hlen, Nat.eq_zero_of_not_pos hnone, BitVec.add_zero]
    rfl

/-- A FIN for a connection that has sent its own. -/
theorem finWaitFin_follows {t : Tcb} (hstep : ∀ stopped, Tcb.Step t (.fin t.rcvNxt 1)
      { (s.uipConns c).tcb with rcvNxt := t.rcvNxt + 1, stopped })
    (hrcv : (s.uipConns c).rcvNxt = t.rcvNxt) (hP : P (.fin t.rcvNxt 1)) (h : s.finWaitFin c = some s') :
    Steps Tcb.Step P t (s'.uipConns c).tcb := by
  obtain ⟨s₂, hcall, hpost⟩ := Option.bind_eq_some_iff.mp h
  rw [(tcpSendNodata_only hpost).uipConns]
  refine .one ?_ hP
  rw [appcall_tcb hcall, addRcvNxt, mapConn_tcb]
  have hnew : ({ s.uipConns c with rcvNxt := (s.uipConns c).rcvNxt + BitVec.ofNat 32 1 } : Conn).tcb =
      { (s.uipConns c).tcb with rcvNxt := t.rcvNxt + 1 } := by
    rw [hrcv]
    rfl
  rw [hnew]
  exact hstep _

theorem finWait1Input_follows (hs : Heeded b n c s) (hstate : (s.uipConns c).tcpstateflags.state = UIP_FIN_WAIT_1)
    (h : s.finWait1Input c = some s') : Follows c (Cause.Heard b n) s s' := by
  simp only [finWait1Input] at h
  have hexpected := hs.expected (by simp [hstate])
  have hpre := countData_follows hs.len (.inr (.inl hstate)) fun hpos => hexpected (.inl hpos)
  have htcb := countData_tcb (s := s) (c := c) hs.len
  have huip : (if 0 < s.uip.uipLen then s.addRcvNxt c s.uip.uipLen else s : System).uip = s.uip := countData_same
  generalize (if 0 < s.uip.uipLen then s.addRcvNxt c s.uip.uipLen else s) = r at h hpre htcb huip
  have hstate₁ : (r.uipConns c).tcb.state = UIP_FIN_WAIT_1 := (congrArg Tcb.state htcb).trans hstate
  have hlen₁ : has r.uip.uipFlags UIP_ACKDATA → (r.uipConns c).tcb.len = 0 :=
    fun hack => (congrArg Tcb.len htcb).trans (hs.acked (huip ▸ hack))
  have hrcv : (r.uipConns c).tcb.rcvNxt = (s.uipConns c).rcvNxt + BitVec.ofNat 32 n := congrArg Tcb.rcvNxt htcb
  split at h
  · rename_i hfin
    rw [huip, hs.buf] at hfin
    have hheard : Cause.Heard b n (.fin (r.uipConns c).tcb.rcvNxt 1) :=
      ⟨hfin, .inr ⟨by rw [hrcv, hexpected (.inr hfin)], rfl⟩⟩
    refine hpre.trans (finWaitFin_follows (fun stopped => ?_) ?_ hheard h)
    · rw [mapConn_tcb]
      split
      · rename_i hack
        have hlen := hlen₁ hack
        have hnew : ({ r.uipConns c with tcpstateflags := UIP_TIME_WAIT, timer := 0, len := 0 } : Conn).tcb =
            { (r.uipConns c).tcb with state := UIP_TIME_WAIT, stopped := false, timer := 0 } := by
          rw [← hlen]
          rfl
        rw [hnew]
        exact .finWait1Acked stopped hstate₁ hlen
      · exact .finWait1 stopped hstate₁
    · rw [mapConn_self]
      split <;> rfl
  · split at h
    · rename_i hack
      cases h
      have hlen := hlen₁ hack
      refine hpre.trans (Follows.trans (mapConn_follows (e := .finAcked) _ ?_ trivial) drop_only.follows)
      have hnew : ({ r.uipConns c with tcpstateflags := UIP_FIN_WAIT_2, len := 0 } : Conn).tcb =
          { (r.uipConns c).tcb with state := UIP_FIN_WAIT_2, stopped := false } := by
        rw [← hlen]
        rfl
      rw [hnew]
      exact .ackedFinWait1 hstate₁ hlen
    · split at h
      · exact hpre.trans (tcpSendNodata_only h).follows
      · cases h
        exact hpre.trans drop_only.follows

theorem finWait2Input_follows (hs : Heeded b n c s) (hstate : (s.uipConns c).tcpstateflags.state = UIP_FIN_WAIT_2)
    (h : s.finWait2Input c = some s') : Follows c (Cause.Heard b n) s s' := by
  simp only [finWait2Input] at h
  have hexpected := hs.expected (by simp [hstate])
  have hpre := countData_follows hs.len (.inr (.inr hstate)) fun hpos => hexpected (.inl hpos)
  have htcb := countData_tcb (s := s) (c := c) hs.len
  have huip : (if 0 < s.uip.uipLen then s.addRcvNxt c s.uip.uipLen else s : System).uip = s.uip := countData_same
  generalize (if 0 < s.uip.uipLen then s.addRcvNxt c s.uip.uipLen else s) = r at h hpre htcb huip
  have hstate₁ : (r.uipConns c).tcb.state = UIP_FIN_WAIT_2 := (congrArg Tcb.state htcb).trans hstate
  have hrcv : (r.uipConns c).tcb.rcvNxt = (s.uipConns c).rcvNxt + BitVec.ofNat 32 n := congrArg Tcb.rcvNxt htcb
  split at h
  · rename_i hfin
    rw [huip, hs.buf] at hfin
    have hheard : Cause.Heard b n (.fin (r.uipConns c).tcb.rcvNxt 1) :=
      ⟨hfin, .inr ⟨by rw [hrcv, hexpected (.inr hfin)], rfl⟩⟩
    refine hpre.trans (finWaitFin_follows (fun stopped => ?_) ?_ hheard h)
    · rw [mapConn_tcb]
      exact .finWait2 stopped hstate₁
    · rw [mapConn_self]
      rfl
  · split at h
    · exact hpre.trans (tcpSendNodata_only h).follows
    · cases h
      exact hpre.trans drop_only.follows

theorem stateInput_follows (hs : Heeded b n c s) (h : s.stateInput c = some s') : Follows c (Cause.Heard b n) s s' := by
  simp only [stateInput] at h
  cases hstate : (s.uipConns c).tcpstateflags.state <;> rw [hstate] at h
  case UIP_CLOSED =>
    cases h
    exact drop_only.follows
  case UIP_SYN_RCVD => exact synRcvdInput_follows hs hstate h
  case UIP_SYN_SENT => exact synSentInput_follows hs hstate h
  case UIP_ESTABLISHED => exact establishedInput_follows hs hstate h
  case UIP_FIN_WAIT_1 => exact finWait1Input_follows hs hstate h
  case UIP_FIN_WAIT_2 => exact finWait2Input_follows hs hstate h
  case UIP_TIME_WAIT => exact (tcpSendNodata_only h).follows
  case UIP_CLOSING =>
    cases h
    refine Follows.trans ?_ drop_only.follows
    split
    · rename_i hack
      exact mapConn_follows (e := .finAcked) _ (.ackedClosing hstate (hs.acked hack)) trivial
    · exact Steps.refl _
  case UIP_LAST_ACK =>
    simp only at h
    split at h
    · rename_i hack
      obtain ⟨s₂, hcall, hpost⟩ := Option.bind_eq_some_iff.mp h
      cases hpost
      refine Steps.one (e := Cause.finAcked) ?_ trivial
      show Tcb.Step _ _ (s₂.uipConns c).tcb
      rw [appcall_tcb hcall, setTcpState, mapConn_tcb]
      exact .ackedLastAck _ hstate (hs.acked hack)
    · cases h
      exact drop_only.follows

/-- An acknowledgement is taken if it is of everything that is outstanding. -/
theorem ackInput_follows (hbuf : s.uip.uipBuf = b) (hopen : (s.uipConns c).tcb.Open) : Follows c (Cause.Heard b n) s (s.ackInput c) := by
  simp only [ackInput, hbuf]
  split
  · rename_i hack
    have hlen : (s.uipConns c).len ≠ 0 := by simpa [Conn.outstanding] using hack.2.1
    have hheard : Cause.Heard b n (.ack (s.uipConns c).sndNxt (s.uipConns c).len) := ⟨hack.1, hack.2.2⟩
    refine Follows.trans (mapConn_follows _ ?_ hheard) (setFlags_only _).follows
    have hnew : (ackConn (s.uipConns c)).tcb = { (s.uipConns c).tcb with
        sndNxt := (s.uipConns c).sndNxt + BitVec.ofNat 32 (s.uipConns c).len, timer := (ackConn (s.uipConns c)).timer, len := 0 } := by
      simp only [ackConn]
      split <;> rfl
    rw [hnew]
    exact .ack _ hopen hlen
  · exact Steps.refl _

theorem ackInput_acks (hflags : s.uip.uipFlags = 0) :
    has (s.ackInput c).uip.uipFlags UIP_ACKDATA → ((s.ackInput c).uipConns c).len = 0 := by
  simp only [ackInput]
  split
  · intro _
    rw [(setFlags_only _).uipConns, mapConn_self]
    exact (ackConn_same _).2.2.2.2.2
  · rw [hflags]
    exact fun hack => absurd hack (by decide)

theorem ackInput_rcvNxt : ((s.ackInput c).uipConns c).rcvNxt = (s.uipConns c).rcvNxt := by
  simp only [ackInput]
  split
  · rw [(setFlags_only _).uipConns, mapConn_self, ackConn]
    split <;> rfl
  · rfl

/-- A segment for a connection. -/
theorem found_follows (hopen : (s.uipConns c).tcb.Open) (h : s.found c = some s') :
    Follows c (Cause.Heard s.uip.uipBuf s.segmentLen) s s' := by
  simp only [found] at h
  split at h
  · rename_i hrst
    obtain ⟨s₂, hcall, hpost⟩ := Option.bind_eq_some_iff.mp h
    cases hpost
    refine Steps.one (e := Cause.rst) ?_ hrst
    show Tcb.Step _ _ (s₂.uipConns c).tcb
    rw [appcall_tcb hcall, setTcpState, mapConn_tcb]
    exact .rst _ hopen
  · let s₀ := (s.setFlags 0).setLen s.segmentLen
    have h₀ : OnlyUip s s₀ := (setFlags_only 0).trans (setLen_only _)
    split at h
    · exact h₀.follows.trans (tcpSendNodata_only h).follows
    · rename_i hheed
      obtain ⟨hbuf, hlen, hstate⟩ := ackInput_same (s := s₀) (c := c)
      have hbuf₀ : s₀.uip.uipBuf = s.uip.uipBuf := setLen_buf (s.setFlags 0) s.segmentLen
      have hlen₀ : s₀.uip.uipLen = s.segmentLen := setLen_len (s.setFlags 0) s.segmentLen
      have hflags₀ : s₀.uip.uipFlags = 0 := rfl
      have hs : Heeded s.uip.uipBuf s.segmentLen c (s₀.ackInput c) := by
        refine ⟨hbuf.trans hbuf₀, hlen.trans hlen₀, ackInput_acked hflags₀, ackInput_acks hflags₀, fun hsyn hnew => ?_⟩
        rw [hstate] at hsyn
        rw [ackInput_rcvNxt]
        by_contra hne
        refine hheed ⟨fun hsynack => hsyn hsynack.1, hnew.imp_right fun hfin => ?_, hne⟩
        rw [Tables.has_or, Bool.or_eq_true]
        exact .inr hfin
      have hopen₀ : (s₀.uipConns c).tcb.Open := hopen
      exact h₀.follows.trans ((ackInput_follows hbuf₀ hopen₀).trans (stateInput_follows hs h))

-- ---------------------------------------------------------------------------
-- Timers
-- ---------------------------------------------------------------------------

/-- Only an established connection calls back when it sends again. -/
theorem retransmit_tcb (h : s.retransmit c = some s') : (s'.uipConns c).tcb = (s.uipConns c).tcb ∨
    (s.uipConns c).tcpstateflags.state = UIP_ESTABLISHED ∧ ∃ stopped, (s'.uipConns c).tcb = { (s.uipConns c).tcb with stopped } := by
  have hquiet : ∀ {t : System}, OnlyUip s t → (t.uipConns c).tcb = (s.uipConns c).tcb := fun h => by rw [h.uipConns]
  unfold retransmit at h
  split at h
  · exact .inl (hquiet (tcpSendSyn_only h))
  · exact .inl (hquiet (tcpSendSyn_only h))
  · rename_i hstate
    obtain ⟨s₂, hcall, hpost⟩ := Option.bind_eq_some_iff.mp h
    exact .inr ⟨hstate, _, by rw [(apprexmit_only hpost).uipConns]; exact appcall_tcb hcall⟩
  · exact .inl (hquiet (tcpSendNodata_only h))
  · exact .inl (hquiet (tcpSendNodata_only h))
  · exact .inl (hquiet (tcpSendNodata_only h))
  · cases h
    exact .inl (hquiet drop_only)

theorem flags_iff {conn : Conn} {state : TcpState} : conn.tcpstateflags = (state : TcpStateFlags) ↔
    conn.tcb.state = state ∧ conn.tcb.stopped = false := TcpStateFlags.mk.injEq .. ▸ Iff.rfl

theorem exhausted_iff {conn : Conn} : (conn.nrtx = UIP_MAXRTX ∨
    ((conn.tcpstateflags = UIP_SYN_SENT ∨ conn.tcpstateflags = UIP_SYN_RCVD) ∧ conn.nrtx = UIP_MAXSYNRTX)) ↔
    conn.tcb.Exhausted := by
  rw [flags_iff, flags_iff, ← or_and_right]
  exact Iff.rfl

/-- The turn of the retransmission timer. -/
theorem rexmitTimer_tcb (hopen : (s.uipConns c).tcb.Open) (hlen : (s.uipConns c).len ≠ 0) (h : s.rexmitTimer c = some s') :
    (∃ e t, Tcb.Step (s.uipConns c).tcb e t ∧ (e = .countdown ∨ e = .rexmit) ∧
        ((s'.uipConns c).tcb = t ∨ t.state = UIP_ESTABLISHED ∧ ∃ stopped, (s'.uipConns c).tcb = { t with stopped })) ∨
      Tcb.Step (s.uipConns c).tcb .timeout (s'.uipConns c).tcb := by
  simp only [rexmitTimer] at h
  split at h
  · rename_i htimer
    split at h
    · rename_i hmax
      obtain ⟨s₂, hcall, hpost⟩ := Option.bind_eq_some_iff.mp h
      have htcb := appcall_tcb hcall
      rw [setTcpState, mapConn_tcb, mapConn_self] at htcb
      rw [(tcpSendNodata_only hpost).uipConns, htcb]
      exact .inr (.timeout _ hopen hlen htimer (exhausted_iff.mp hmax))
    · rename_i hmore
      let shift := if 4 < (s.uipConns c).nrtx then 4 else (s.uipConns c).nrtx
      have hmoved : (((s.mapConn c fun conn => { conn with timer := conn.timer - 1 }).mapConn c fun conn =>
          { conn with timer := UIP_RTO <<< shift, nrtx := conn.nrtx + 1 }).uipConns c).tcb =
            { (s.uipConns c).tcb with
              timer := UIP_RTO <<< Tcb.backoff (s.uipConns c).tcb.nrtx, nrtx := (s.uipConns c).tcb.nrtx + 1 } := by
        rw [mapConn_tcb, mapConn_self]
        rfl
      refine .inl ⟨_, _, .rexmit hopen hlen htimer (mt exhausted_iff.mpr hmore), .inr rfl, ?_⟩
      rcases retransmit_tcb h with hsame | ⟨hstate, stopped, hsame⟩
      · exact .inl (hsame.trans hmoved)
      · exact .inr ⟨(congrArg Tcb.state hmoved).symm.trans hstate, stopped, hsame.trans (congrArg (fun t : Tcb => { t with stopped }) hmoved)⟩
  · rename_i htimer
    cases h
    refine .inl ⟨_, _, .countdown hopen hlen htimer, .inl rfl, .inl ?_⟩
    show ((s.mapConn c fun conn => { conn with timer := conn.timer - 1 }).uipConns c).tcb = _
    rw [mapConn_tcb]
    rfl

theorem rexmitTimer_follows (hopen : (s.uipConns c).tcb.Open) (hlen : (s.uipConns c).len ≠ 0) (h : s.rexmitTimer c = some s') :
    Follows c Cause.Timed s s' := by
  rcases rexmitTimer_tcb hopen hlen h with ⟨e, t, hstep, he, htcb⟩ | htimeout
  · have htimed : e.Timed := by rcases he with rfl | rfl <;> trivial
    have hcallback : Cause.Timed .callback := trivial
    refine Steps.trans (.one hstep htimed) ?_
    rcases htcb with heq | ⟨hstate, stopped, heq⟩ <;> rw [heq]
    · exact Steps.refl _
    · exact .one (.callback stopped hstate) hcallback
  · have htimed : Cause.Timed .timeout := trivial
    exact .one htimeout htimed

/-- The turn of the timer. -/
theorem uipTimer_follows (h : s.uipTimer c = some s') : Follows c Cause.Timed s s' := by
  simp only [uipTimer] at h
  generalize hs₀ : (s.initAppdata.incIss.setLen 0).setSlen 0 = s₀ at h
  have h₀ : OnlyUip s s₀ := by rw [← hs₀]; rfl
  refine h₀.follows.trans ?_
  split at h
  · rename_i hwait
    cases h
    have hlingers : (s₀.uipConns c).tcb.Lingers := by
      rw [flags_iff, flags_iff, ← or_and_right] at hwait
      exact hwait
    have hcount : Cause.Timed .countdown := trivial
    have hwaited : Cause.Timed .waited := trivial
    refine Follows.trans ?_ drop_only.follows
    split
    · rename_i hend
      refine .one ?_ hwaited
      rw [setTcpState, mapConn_tcb, mapConn_self]
      exact .waited hlingers hend
    · rename_i hmore
      exact mapConn_follows _ (.linger hlingers hmore) hcount
  · split at h
    · cases h
      exact drop_only.follows
    · rename_i hclosed
      have hopen : (s₀.uipConns c).tcb.Open := mt flags_iff.mpr hclosed
      split at h
      · rename_i hout
        exact rexmitTimer_follows hopen (by simpa [Conn.outstanding] using hout) h
      · split at h
        · rename_i hest
          obtain ⟨s₂, hcall, hpost⟩ := Option.bind_eq_some_iff.mp h
          exact asked_follows hest (fun hack => absurd hack (by decide)) (by decide) (fun _ => Cause.Answer.timed) hcall hpost
        · cases h
          exact drop_only.follows

theorem uipPoll_follows (h : s.uipPoll c = some s') : Follows c Cause.Answer s s' := by
  simp only [uipPoll] at h
  split at h
  · rename_i hest
    obtain ⟨s₂, hcall, hpost⟩ := Option.bind_eq_some_iff.mp h
    exact asked_follows (s := s.initAppdata) hest.1 (fun hack => absurd hack (by decide)) (by decide) (fun _ => id) hcall hpost
  · cases h
    exact Steps.refl _

end System

end UIPEthernet
