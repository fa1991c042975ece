import UIPEthernet.Lib.Run
import UIPEthernet.Lib.Spans
import UIPEthernet.System

/-!
# TCP, as an automaton

What `uip.c` makes of TCP, without buffers and callbacks: the part of a
connection that the protocol is about, and every way it can move. A move has a
cause, with the sequence numbers that a peer could see.
-/

namespace UIPEthernet

open TcpState Lib

structure Tcb where
  ripaddr : BitVec 32
  lport : Nat
  rport : Nat
  rcvNxt : BitVec 32
  sndNxt : BitVec 32
  len : Nat
  state : TcpState
  stopped : Bool
  timer : BitVec 8
  nrtx : BitVec 8
deriving DecidableEq, Repr

inductive Cause
  /-- The application has run; it may have stopped or restarted the connection. -/
  | callback
  | opened
  | rst
  /-- A segment in SYN_SENT that is no answer to the SYN. -/
  | refused
  /-- What is outstanding is acknowledged. -/
  | ack (seqno : BitVec 32) (n : Nat)
  | established
  | synack (seqno : BitVec 32)
  | accept (seqno : BitVec 32) (n : Nat)
  /-- A FIN, with the payload in front of it if that is taken in one. -/
  | fin (seqno : BitVec 32) (n : Nat)
  /-- Our FIN is acknowledged. -/
  | finAcked
  | send (seqno : BitVec 32) (n : Nat)
  | close
  | countdown
  | rexmit
  | timeout
  | waited
deriving DecidableEq, Repr

namespace Tcb

/-- Neither never used nor closed for good. -/
def Open (t : Tcb) : Prop := ¬(t.state = UIP_CLOSED ∧ t.stopped = false)

/-- A slot that may be used for a new connection. -/
def Reusable (t : Tcb) : Prop := (t.state = UIP_CLOSED ∨ t.state = UIP_TIME_WAIT) ∧ t.stopped = false

def Receives (t : Tcb) : Prop :=
  (t.state = UIP_ESTABLISHED ∧ t.stopped = false) ∨ t.state = UIP_FIN_WAIT_1 ∨ t.state = UIP_FIN_WAIT_2

/-- The timer counts up. -/
def Lingers (t : Tcb) : Prop := (t.state = UIP_TIME_WAIT ∨ t.state = UIP_FIN_WAIT_2) ∧ t.stopped = false

/-- The handshake has not come to its end. -/
def Opening (t : Tcb) : Prop := (t.state = UIP_SYN_SENT ∨ t.state = UIP_SYN_RCVD) ∧ t.stopped = false

/-- The data has been sent as often as it may be. -/
def Exhausted (t : Tcb) : Prop := t.nrtx = UIP_MAXRTX ∨ (t.Opening ∧ t.nrtx = UIP_MAXSYNRTX)

/-- `min(nrtx, 4)`, by which the retransmission timer is shifted. -/
def backoff (nrtx : BitVec 8) : BitVec 8 := if 4 < nrtx then 4 else nrtx

inductive Step (t : Tcb) : Cause → Tcb → Prop
  | callback (stopped : Bool) (h : t.state = UIP_ESTABLISHED) : Step t .callback { t with stopped }
  | opened (ripaddr : BitVec 32) (lport rport : Nat) (rcvNxt sndNxt : BitVec 32) (timer : BitVec 8) (state : TcpState)
      (h : t.Reusable) (hstate : state = UIP_SYN_SENT ∨ state = UIP_SYN_RCVD) :
      Step t .opened ⟨ripaddr, lport, rport, rcvNxt, sndNxt, 1, state, false, timer, 0⟩
  | rst (stopped : Bool) (h : t.Open) : Step t .rst { t with state := UIP_CLOSED, stopped }
  | refused (h : t.state = UIP_SYN_SENT) : Step t .refused { t with state := UIP_CLOSED, stopped := false }
  | ack (timer : BitVec 8) (hopen : t.Open) (h : t.len ≠ 0) :
      Step t (.ack t.sndNxt t.len) { t with sndNxt := t.sndNxt + BitVec.ofNat 32 t.len, timer, len := 0 }
  | established (h : t.state = UIP_SYN_RCVD) (hlen : t.len = 0) :
      Step t .established { t with state := UIP_ESTABLISHED, stopped := false }
  | synack (seqno : BitVec 32) (h : t.state = UIP_SYN_SENT) (hlen : t.len = 0) :
      Step t (.synack seqno) { t with state := UIP_ESTABLISHED, stopped := false, rcvNxt := seqno + 1 }
  | accept (n : Nat) (h : t.Receives) : Step t (.accept t.rcvNxt n) { t with rcvNxt := t.rcvNxt + BitVec.ofNat 32 n }
  -- the peer closes first
  | finEstablished (n : Nat) (h : t.state = UIP_ESTABLISHED) (hstopped : t.stopped = false) (hlen : t.len = 0) :
      Step t (.fin t.rcvNxt n)
        { t with rcvNxt := t.rcvNxt + BitVec.ofNat 32 n, state := UIP_LAST_ACK, stopped := false, len := 1, nrtx := 0 }
  -- the peer closes as well
  | finWait1 (stopped : Bool) (h : t.state = UIP_FIN_WAIT_1) :
      Step t (.fin t.rcvNxt 1) { t with rcvNxt := t.rcvNxt + 1, state := UIP_CLOSING, stopped }
  | finWait1Acked (stopped : Bool) (h : t.state = UIP_FIN_WAIT_1) (hlen : t.len = 0) :
      Step t (.fin t.rcvNxt 1) { t with rcvNxt := t.rcvNxt + 1, state := UIP_TIME_WAIT, stopped, timer := 0 }
  | finWait2 (stopped : Bool) (h : t.state = UIP_FIN_WAIT_2) :
      Step t (.fin t.rcvNxt 1) { t with rcvNxt := t.rcvNxt + 1, state := UIP_TIME_WAIT, stopped, timer := 0 }
  | ackedFinWait1 (h : t.state = UIP_FIN_WAIT_1) (hlen : t.len = 0) :
      Step t .finAcked { t with state := UIP_FIN_WAIT_2, stopped := false }
  | ackedClosing (h : t.state = UIP_CLOSING) (hlen : t.len = 0) :
      Step t .finAcked { t with state := UIP_TIME_WAIT, stopped := false, timer := 0 }
  | ackedLastAck (stopped : Bool) (h : t.state = UIP_LAST_ACK) (hlen : t.len = 0) :
      Step t .finAcked { t with state := UIP_CLOSED, stopped }
  -- a new segment, with nothing outstanding
  | send (n : Nat) (h : t.state = UIP_ESTABLISHED) (hlen : t.len = 0) (hn : 0 < n) :
      Step t (.send t.sndNxt n) { t with len := n, nrtx := 0 }
  -- nothing new to send
  | keep (h : t.state = UIP_ESTABLISHED) : Step t .callback { t with nrtx := 0 }
  | close (h : t.state = UIP_ESTABLISHED) :
      Step t .close { t with state := UIP_FIN_WAIT_1, stopped := false, len := 1, nrtx := 0 }
  | countdown (hopen : t.Open) (h : t.len ≠ 0) (htimer : t.timer ≠ 0) : Step t .countdown { t with timer := t.timer - 1 }
  | linger (h : t.Lingers) (htimer : t.timer + 1 ≠ UIP_TIME_WAIT_TIMEOUT) : Step t .countdown { t with timer := t.timer + 1 }
  | rexmit (hopen : t.Open) (h : t.len ≠ 0) (htimer : t.timer = 0) (hmore : ¬t.Exhausted) :
      Step t .rexmit { t with timer := UIP_RTO <<< backoff t.nrtx, nrtx := t.nrtx + 1 }
  | timeout (stopped : Bool) (hopen : t.Open) (h : t.len ≠ 0) (htimer : t.timer = 0) (hmax : t.Exhausted) :
      Step t .timeout { t with timer := t.timer - 1, state := UIP_CLOSED, stopped }
  | waited (h : t.Lingers) (htimer : t.timer + 1 = UIP_TIME_WAIT_TIMEOUT) :
      Step t .waited { t with timer := t.timer + 1, state := UIP_CLOSED, stopped := false }

variable {t t' : Tcb} {e : Cause} {es : List Cause}

theorem Open.of_state (h : t.state ≠ UIP_CLOSED) : t.Open := fun hclosed => h hclosed.1

/-- A closed slot stays closed until it is used again. -/
theorem Step.closed (h : Step t e t') (hopen : t'.Open) : t.Open ∨ e = .opened := by
  cases h with
  | opened => exact .inr rfl
  | rst _ h | ack _ h _ | countdown h _ _ | rexmit h _ _ _ | timeout _ h _ _ _ => exact .inl h
  | accept _ h => exact .inl hopen
  | linger h _ | waited h _ => exact .inl (.of_state (by rcases h.1 with hs | hs <;> simp [hs]))
  | _ => exact .inl (.of_state (by simp [*]))

/-- The addresses of a connection stay. -/
theorem Step.tuple (h : Step t e t') (he : e ≠ .opened) :
    t'.lport = t.lport ∧ t'.rport = t.rport ∧ t'.ripaddr = t.ripaddr := by
  cases h with
  | opened => exact absurd rfl he
  | _ => exact ⟨rfl, rfl, rfl⟩

-- ---------------------------------------------------------------------------
-- The states
-- ---------------------------------------------------------------------------

/-- How far a connection has come. -/
def rank : TcpState → Nat
  | UIP_SYN_SENT | UIP_SYN_RCVD => 0
  | UIP_ESTABLISHED => 1
  | UIP_FIN_WAIT_1 => 2
  | UIP_FIN_WAIT_2 | UIP_CLOSING | UIP_LAST_ACK => 3
  | UIP_TIME_WAIT => 4
  | UIP_CLOSED => 5

theorem Step.forward (h : Step t e t') (he : e ≠ .opened) : t'.state = t.state ∨ rank t.state < rank t'.state := by
  cases h with
  | opened => exact absurd rfl he
  | rst _ h | timeout _ h _ _ _ =>
    simp only
    cases t.state <;> simp [rank]
  | linger h _ => exact .inl rfl
  | waited h _ => rcases h.1 with hs | hs <;> simp [hs, rank]
  | _ => simp [*, rank]

/-- A connection does not come back to a state it has left. -/
theorem forward (h : Run Step t es t') (hes : .opened ∉ es) : t'.state = t.state ∨ rank t.state < rank t'.state := by
  induction h with
  | nil => exact .inl rfl
  | @snoc es t₁ e t₂ _ hstep ih =>
    rw [List.mem_append, not_or] at hes
    have hlast := hstep.forward fun he => hes.2 (he ▸ List.mem_singleton_self _)
    rcases ih hes.1 with heq | hlt
    · rwa [heq] at hlast
    · rcases hlast with heq' | hlt'
      · exact .inr (heq' ▸ hlt)
      · exact .inr (hlt.trans hlt')

theorem rank_le (state : TcpState) : rank state ≤ rank UIP_CLOSED := by cases state <;> simp [rank]

theorem stays_closed (h : Run Step t es t') (hes : .opened ∉ es) (hclosed : t.state = UIP_CLOSED) : t'.state = UIP_CLOSED := by
  rcases forward h hes with heq | hlt
  · exact heq.trans hclosed
  · rw [hclosed] at hlt
    exact absurd (rank_le _) (Nat.not_le_of_lt hlt)

/-- The SYN is out, at the sequence number `q`. -/
structure SynOut (q : BitVec 32) (t : Tcb) : Prop where
  state : t.state = UIP_SYN_SENT ∨ t.state = UIP_SYN_RCVD
  len : t.len = 1
  sndNxt : t.sndNxt = q

/-- The handshake does not come to its end before the SYN is acknowledged. -/
theorem SynOut.step {q : BitVec 32} (hs : t.SynOut q) (h : Step t e t') (he : e ≠ .opened) :
    t'.state = UIP_CLOSED ∨ t'.SynOut q ∨ e = .ack q 1 := by
  obtain ⟨hstate, hlen, rfl⟩ := hs
  cases h with
  | opened => exact absurd rfl he
  | rst | refused | timeout => exact .inl rfl
  | ack => exact .inr (.inr (by rw [hlen]))
  | accept | countdown | linger | rexmit => exact .inr (.inl ⟨hstate, hlen, rfl⟩)
  | _ => simp_all

theorem SynOut.run {q : BitVec 32} (hs : t.SynOut q) (h : Run Step t es t') (hes : .opened ∉ es) :
    t'.state = UIP_CLOSED ∨ t'.SynOut q ∨ .ack q 1 ∈ es := by
  induction h with
  | nil => exact .inr (.inl hs)
  | @snoc es t₁ e t₂ _ hstep ih =>
    rw [List.mem_append, not_or, List.mem_singleton] at hes
    have he : e ≠ .opened := fun he => hes.2 he.symm
    rcases ih hes.1 with hclosed | hsyn | hack
    · exact .inl (stays_closed (.snoc .nil hstep) (by simpa using hes.2) hclosed)
    · rcases hsyn.step hstep he with hclosed | hsyn | rfl
      · exact .inl hclosed
      · exact .inr (.inl hsyn)
      · exact .inr (.inr (List.mem_append_right es (List.mem_singleton_self _)))
    · exact .inr (.inr (List.mem_append_left [e] hack))

/-- A run of new connections is one, with its SYN out. -/
theorem opened_run (h : Run Step t es t') (hes : ∀ e ∈ es, e = .opened) (hne : es ≠ []) : t'.SynOut t'.sndNxt := by
  cases h with
  | nil => exact absurd rfl hne
  | @snoc es t₁ e _ hrun hstep =>
    obtain rfl := hes e (List.mem_append_right es (List.mem_singleton_self e))
    cases hstep with
    | opened _ _ _ _ _ _ _ _ hstate => exact ⟨hstate, rfl, rfl⟩

-- ---------------------------------------------------------------------------
-- Sequence numbers
-- ---------------------------------------------------------------------------

end Tcb

namespace Cause

/-- Whether `rcv_nxt` is set anew. -/
def starts : Cause → Bool
  | .opened | .synack _ => true
  | _ => false

/-- What a segment adds to the stream of the peer. -/
def received : Cause → Option (BitVec 32 × Nat)
  | .accept q n | .fin q n => some (q, n)
  | _ => none

def sent : Cause → Option (BitVec 32 × Nat)
  | .send q n => some (q, n)
  | _ => none

def acked : Cause → Option (BitVec 32 × Nat)
  | .ack q n => some (q, n)
  | _ => none

end Cause

namespace Tcb

variable {t t' : Tcb} {e : Cause} {es : List Cause}

theorem Step.received (h : Step t e t') (he : e.starts = false) :
    Contiguous t.rcvNxt e.received.toList t'.rcvNxt := by
  cases h with
  | opened | synack => exact absurd he.symm Bool.false_ne_true
  | accept n _ | finEstablished n _ _ _ => exact .span n
  | finWait1 | finWait1Acked | finWait2 => exact .span 1
  | _ => exact rfl

theorem Step.acked (h : Step t e t') (he : e ≠ .opened) : Contiguous t.sndNxt e.acked.toList t'.sndNxt := by
  cases h with
  | opened => exact absurd rfl he
  | ack => exact .span _
  | _ => exact rfl

/-- What a run adds to a list of spans, from what a step adds. -/
theorem contiguous {f : Tcb → BitVec 32} {g : Cause → Option (BitVec 32 × Nat)} {P : Cause → Prop}
    (hstep : ∀ {t e t'}, Step t e t' → P e → Contiguous (f t) (g e).toList (f t')) (h : Run Step t es t')
    (hes : ∀ e ∈ es, P e) : Contiguous (f t) (es.filterMap g) (f t') := by
  induction h with
  | nil => exact rfl
  | @snoc es t₁ e t₂ _ hs ih =>
    have hlast := hstep hs (hes e (List.mem_append_right es (List.mem_singleton_self e)))
    rw [List.filterMap_append]
    refine (ih fun x hx => hes x (List.mem_append_left [e] hx)).append ?_
    cases hg : g e <;> simpa [hg] using hlast

/-- Nothing of what the peer sends is left out, and nothing is taken twice. -/
theorem received (h : Run Step t es t') (hes : ∀ e ∈ es, e.starts = false) :
    Contiguous t.rcvNxt (es.filterMap Cause.received) t'.rcvNxt := contiguous Step.received h hes

theorem acked (h : Run Step t es t') (hes : ∀ e ∈ es, e ≠ .opened) :
    Contiguous t.sndNxt (es.filterMap Cause.acked) t'.sndNxt := contiguous Step.acked h hes

/-- What has been sent is what has been acknowledged, and at most one segment
more. -/
def Alternates (t : Tcb) (sent acked : List (BitVec 32 × Nat)) : Prop :=
  (t.len = 0 ∧ sent = acked) ∨ (t.len ≠ 0 ∧ sent = acked ++ [(t.sndNxt, t.len)])

theorem Alternates.step {l l' : List (BitVec 32 × Nat)} (ha : t.Alternates l l') (h : Step t e t') (he : e ≠ .opened)
    (hstate : t.state = UIP_ESTABLISHED) (hstate' : t'.state = UIP_ESTABLISHED) :
    t'.Alternates (l ++ e.sent.toList) (l' ++ e.acked.toList) := by
  have hkeep : t'.len = t.len → t'.sndNxt = t.sndNxt → e.sent = none → e.acked = none →
      t'.Alternates (l ++ e.sent.toList) (l' ++ e.acked.toList) := by
    intro hlen hsnd hsent hacked
    rw [hsent, hacked, Option.toList_none, List.append_nil, List.append_nil, Alternates, hlen, hsnd]
    exact ha
  cases h with
  | opened => exact absurd rfl he
  | callback | accept | keep | countdown | linger | rexmit => exact hkeep rfl rfl rfl rfl
  | ack _ _ hlen =>
    obtain ⟨h0, -⟩ | ⟨-, rfl⟩ := ha
    · exact absurd h0 hlen
    · exact .inl ⟨rfl, by simp [Cause.sent, Cause.acked]⟩
  | send n _ hlen hn =>
    obtain ⟨-, rfl⟩ | ⟨hne, -⟩ := ha
    · exact .inr ⟨Nat.ne_of_gt hn, by simp [Cause.sent, Cause.acked]⟩
    · exact absurd hlen hne
  | _ => simp_all

/-- As long as a connection is established, it sends a new segment only when
what it has sent is acknowledged. -/
theorem alternates (h : Run Step t es t') (hes : .opened ∉ es) (hlen : t.len = 0) (hstate : t.state = UIP_ESTABLISHED)
    (hstate' : t'.state = UIP_ESTABLISHED) : t'.Alternates (es.filterMap Cause.sent) (es.filterMap Cause.acked) := by
  induction h with
  | nil => exact .inl ⟨hlen, rfl⟩
  | @snoc es t₁ e t₂ hrun hstep ih =>
    rw [List.mem_append, not_or] at hes
    have he : e ≠ .opened := fun he => hes.2 (he ▸ List.mem_singleton_self _)
    have hmiddle : t₁.state = UIP_ESTABLISHED := by
      rcases forward hrun hes.1 with heq | hlt
      · exact heq.trans hstate
      · rcases hstep.forward he with heq' | hlt'
        · exact heq'.symm.trans hstate'
        · rw [hstate] at hlt
          rw [hstate'] at hlt'
          exact absurd (hlt.trans hlt') (Nat.lt_irrefl _)
    have hlast := (ih hes.1 hmiddle).step hstep he hmiddle hstate'
    simp only [List.filterMap_append]
    cases hs : e.sent <;> cases ha : e.acked <;> simpa [hs, ha] using hlast

end Tcb

end UIPEthernet
