import UIPEthernet.UIPUdp.Lengths
import UIPEthernet.UIPUdp.Reading
import UIPEthernet.UIPUdp.Recovery

/-!
# A socket for the time of a call

A client opens its socket with `begin` and closes it with `stop`. In between it
keeps the connection, whatever comes in, so `stop` finds what it has to give
back.
-/

namespace UIPEthernet

open Lib

namespace UdpCall

/-- The calls that neither open nor close the socket. -/
def isBetween : UdpCall → Bool
  | begin _ | stop => false
  | _ => true

end UdpCall

namespace UdpProg

/-- The program leaves the socket open. -/
abbrev KeepsOpen {α : Type} (p : UdpProg α) : Prop := p.Only fun op => op.isBetween

theorem OnlyReads.keepsOpen {α : Type} {p : UdpProg α} (h : p.OnlyReads) : KeepsOpen p :=
  h.mono fun op hop => by cases op <;> first | rfl | cases hop

end UdpProg

-- ---------------------------------------------------------------------------
-- tick
-- ---------------------------------------------------------------------------

namespace System

open UIPUDP

variable {s s' : System} {c : Fin UIP_CONNS} {i : Fin UIP_UDP_CONNS} {k : Nat} {now : BitVec 32}

theorem appcall_conn (h : uipudpAppcall s i = some s') : (s'.sockets k).uipUdpConn = (s.sockets k).uipUdpConn := by
  unfold uipudpAppcall at h
  split at h
  · cases h
    rfl
  · obtain ⟨s₁, hreceived, h⟩ := Option.bind_eq_some_iff.mp h
    cases h
    rw [polled_same.conn]
    unfold received at hreceived
    split at hreceived
    · exact (queue_same hreceived).conn
    · cases hreceived
      rfl

theorem Input.conn (h : Input s s') : (s'.sockets k).uipUdpConn = (s.sockets k).uipUdpConn := by
  cases h with
  | scratch h => rw [h.sockets]
  | segment s₁ c hpre _ _ h => rw [found_sockets h, hpre.sockets]
  | listen s₁ hpre h => rw [foundListen_sockets h, hpre.sockets]
  | datagram s₁ s₂ i hpre _ _ hcall hpost => rw [hpost.sockets, appcall_conn hcall, hpre.sockets]

theorem tickInput_conn (h : s.tickInput = some s') : (s'.sockets k).uipUdpConn = (s.sockets k).uipUdpConn := by
  rcases tickInput_handled h with ⟨-, rfl⟩ | ⟨s₁, -, hhandled, rfl⟩
  · rw [fetch_sockets]
  · rw [release_sockets, ← fetch_sockets s]
    cases hhandled with
    | scratch h => rw [h.sockets]; rfl
    | packet s₂ s₃ hpre hbuf hinput hsend =>
      rw [(sendOut_only hsend).sockets, hinput.conn, hpre.sockets]
      rfl
    | reply s₂ ok hpre hsend => rw [(networkSend_only hsend).sockets, hpre.sockets]; rfl

theorem DataTurn.sockets (h : DataTurn c s s') : s'.sockets = s.sockets := by
  cases h with
  | quiet h => exact h.toTouch.sockets
  | timedOut s₁ s₂ hpre _ hcall hpost =>
    rw [(tcpSendNodata_only hpost).sockets, (UIPClient.appcall_confined hcall).sockets, hpre.toTouch.sockets]
  | poll s₁ s₂ hpre _ _ _ hcall hpost =>
    rw [(appsend_stays hpost).toTouch.sockets, (UIPClient.appcall_confined hcall).sockets, hpre.toTouch.sockets]
  | rexmit s₁ s₂ hpre _ _ _ _ _ hcall hpost =>
    rw [(apprexmit_only hpost).sockets, (UIPClient.appcall_confined hcall).sockets, hpre.toTouch.sockets]

theorem tickConn_sockets {nullTimer : BitVec 32} {periodic : Bool} (h : s.tickConn now nullTimer periodic c = some s') :
    s'.sockets = s.sockets := by
  simp only [tickConn, Option.bind_eq_bind, Option.pure_def] at h
  split at h
  · obtain ⟨s₁, htimer, hsend⟩ := Option.bind_eq_some_iff.mp h
    exact (sendOut_only hsend).sockets.trans (uipTimer_data htimer).sockets
  · split at h
    · obtain ⟨s₁, hpoll, hsend⟩ := Option.bind_eq_some_iff.mp h
      exact (sendOut_only hsend).sockets.trans (uipPoll_data hpoll).sockets
    · cases h
      rfl

/-- Frames arrive, and `tick` runs. -/
def Runs (s s' : System) : Prop := ∃ ring frames now nullTimer, (s.arrive ring frames).tick now nullTimer = some s'

/-- A `tick` leaves every socket its connection. -/
theorem Runs.conn (h : Runs s s') : (s'.sockets k).uipUdpConn = (s.sockets k).uipUdpConn := by
  obtain ⟨ring, frames, now, nullTimer, h⟩ := h
  simp only [tick, Option.bind_eq_bind, Option.pure_def] at h
  obtain ⟨s₁, hinput, h⟩ := Option.bind_eq_some_iff.mp h
  obtain ⟨s₂, hconns, h⟩ := Option.bind_eq_some_iff.mp h
  have h₁ : (s₁.sockets k).uipUdpConn = (s.sockets k).uipUdpConn := tickInput_conn (s := s.arrive ring frames) hinput
  have h₂ : (s₂.sockets k).uipUdpConn = (s.sockets k).uipUdpConn := by
    have hrun : Run (fun s c s' => s.tickConn now (nullTimer c) (due now s₁.periodicTimer) c = some s') s₁ _ s₂ :=
      .of_foldlM (g := id) (fun hs => hs) hconns
    exact hrun.invariant (I := fun t => (t.sockets k).uipUdpConn = (s.sockets k).uipUdpConn)
      (fun ht hstep => by rwa [tickConn_sockets hstep]) h₁
  split at h
  · have hrun : Run (fun s i s' => s.tickUdp i = some s') { s₂ with periodicTimer := now + UIP_PERIODIC_TIMER } _ s' :=
      .of_foldlM (g := id) (fun hs => hs) h
    exact hrun.invariant (I := fun t => (t.sockets k).uipUdpConn = (s.sockets k).uipUdpConn)
      (fun ht hstep => (tickUdp_same hstep).conn.trans ht) h₂
  · cases h
    exact h₂

end System

-- ---------------------------------------------------------------------------
-- The socket
-- ---------------------------------------------------------------------------

namespace UIPUDP

variable {s s' s₁ : System} {k : Nat} {clock : Clock} {α : Type} {p : UdpProg α} {a : α}

/-- No connection, no packet. -/
def Closed (k : Nat) (s : System) : Prop := s.sockets k = ⟨none, start⟩

theorem beginPacket_conn {ip : BitVec 32} {port : Nat} {ok : Bool} (hopen : (s.sockets k).uipUdpConn ≠ none)
    (h : beginPacket s k ip port = some (s', ok)) : (s'.sockets k).uipUdpConn = (s.sockets k).uipUdpConn := by
  simp only [beginPacket, Option.bind_eq_bind, Option.pure_def] at h
  obtain ⟨s₁, hremote, h⟩ := Option.bind_eq_some_iff.mp h
  obtain ⟨hconn, -⟩ := setRemote_remote hopen hremote
  split at h
  · obtain ⟨⟨net, b⟩, -, h⟩ := Option.bind_eq_some_iff.mp h
    cases h
    exact (System.mapAppdata_conn _ _ _).trans hconn
  · cases h
    exact hconn

theorem Before.conn {op : UdpCall} (h : Before System.Runs s op s₁) : (s₁.sockets k).uipUdpConn = (s.sockets k).uipUdpConn := by
  rw [Before] at h
  split at h
  · exact h.conn
  · rw [h]

theorem Acts.conn {op : UdpCall} {x : op.Answer} (hop : op.isBetween) (h : Acts clock k s op x s')
    (hopen : (s.sockets k).uipUdpConn ≠ none) : (s'.sockets k).uipUdpConn = (s.sockets k).uipUdpConn := by
  cases op with
  | begin port => cases hop
  | stop => cases hop
  | beginPacket ip port => exact beginPacket_conn hopen h
  | write buffer => exact (write_same h).conn
  | endPacket => exact (endPacket_same h).conn
  | parsePacket => exact (parsePacket_same h).conn
  | read len => exact (read_same h).conn
  | flush => exact (flush_same h).conn
  | available | remoteIP | remotePort | millis | random _ _ => rw [h.1]

theorem exec_conn (h : Prog.Exec (Calls System.Runs clock k) p s a s') (hopen : p.KeepsOpen) (hconn : (s.sockets k).uipUdpConn ≠ none) :
    (s'.sockets k).uipUdpConn = (s.sockets k).uipUdpConn := by
  refine h.invariant (I := fun t => (t.sockets k).uipUdpConn = (s.sockets k).uipUdpConn) hopen (fun hop hsame hcall => ?_) rfl
  obtain ⟨s₁, hbefore, hact⟩ := hcall
  have h₁ := hbefore.conn.trans hsame
  exact (hact.conn hop (h₁ ▸ hconn)).trans h₁

theorem begin_closed {port : Nat} {ok : Bool} (hclosed : Closed k s) (h : begin s k port = some (s', ok)) :
    if ok then (s'.sockets k).uipUdpConn ≠ none else Closed k s' := by
  have hnone : (s.sockets k).uipUdpConn = none := by rw [hclosed]
  simp only [begin, if_pos hnone, newConn, Option.bind_eq_bind, Option.pure_def] at h
  obtain ⟨s₁, hnew, h⟩ := Option.bind_eq_some_iff.mp h
  obtain ⟨⟨s₀, conn⟩, huip, hnew⟩ := Option.bind_eq_some_iff.mp hnew
  cases hnew
  have hsockets : s₀.sockets = s.sockets := (uipUdpNew_only huip).2
  have hself : ∀ f, ((s₀.mapSocket k f).sockets k) = f (s.sockets k) := by
    intro f
    simp [System.mapSocket, hsockets]
  rw [hself] at h
  cases conn with
  | none =>
    cases h
    rw [if_neg Bool.false_ne_true, Closed, hself, hclosed]
  | some i =>
    cases h
    rw [if_pos rfl]
    simp [System.mapUdpConn, System.mapSocket]

theorem stop_closed (hconn : (s.sockets k).uipUdpConn ≠ none) (h : stop s k = some s') : Closed k s' := by
  obtain ⟨i, hi⟩ := Option.ne_none_iff_exists'.mp hconn
  simp only [stop, hi, Option.bind_eq_bind, Option.pure_def] at h
  obtain ⟨net, -, h⟩ := Option.bind_eq_some_iff.mp h
  obtain ⟨net₁, -, h⟩ := Option.bind_eq_some_iff.mp h
  obtain ⟨net₂, -, h⟩ := Option.bind_eq_some_iff.mp h
  cases h
  exact Function.update_self ..

end UIPUDP

end UIPEthernet
