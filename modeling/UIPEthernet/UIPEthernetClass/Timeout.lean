import UIPEthernet.Lib.Countdown
import UIPEthernet.Uip.Timeout
import UIPEthernet.UIPEthernetClass.Conformance

/-!
# A silent peer

In a run without a segment from its peer, a connection with outstanding data
uses up its turns of the timer one by one, and the last one closes it.
-/

namespace UIPEthernet

open TcpState Lib

/-- The turns of the periodic timer for the connection. -/
def Piece.isTurn (c : Fin UIP_CONNS) : Piece → Bool
  | .conn _ _ periodic i => periodic && i == c
  | _ => false

namespace System

variable {s s' : System} {c : Fin UIP_CONNS} {p : Piece} {ps : List Piece}

/-- A piece that brings the connection no segment. -/
def Unheard (c : Fin UIP_CONNS) (s : System) (p : Piece) (s' : System) : Prop :=
  PieceStep s p s' ∧ ¬(p = .input ∧ s.Delivers c)

/-- A connection that is in use cannot be set up. -/
theorem Follows.unopened {P : Cause → Prop} (h : Follows c P s s') (hP : ∀ e, P e → e = .opened)
    (hw : (s.uipConns c).tcb.Waits) : (s'.uipConns c).tcb = (s.uipConns c).tcb := by
  obtain ⟨es, hrun, hes⟩ := h
  generalize (s'.uipConns c).tcb = t' at hrun ⊢
  induction hrun with
  | nil => rfl
  | @snoc es t e u _ hstep ih =>
    have ht := ih fun e he => hes e (List.mem_append_left _ he)
    obtain rfl := hP e (hes e (List.mem_append_right _ (List.mem_singleton_self e)))
    rw [ht] at hstep
    cases hstep with
    | opened _ _ _ _ _ _ _ hreusable => exact absurd hreusable hw.not_reusable

theorem tickConn_turn {now nullTimer : BitVec 32} (hw : (s.uipConns c).tcb.Waits)
    (h : s.tickConn now nullTimer true c = some s') : Tcb.OneLess (s.uipConns c).tcb (s'.uipConns c).tcb ∨
      (s'.uipConns c).tcb.state = UIP_CLOSED ∧ (s.uipConns c).tcb.turnsLeft = 1 := by
  simp only [tickConn, Option.bind_eq_bind, if_pos] at h
  obtain ⟨s₁, htimer, hsend⟩ := Option.bind_eq_some_iff.mp h
  rw [(sendOut_only hsend).uipConns]
  exact uipTimer_turn hw htimer

theorem Unheard.quiet (h : Unheard c s p s') (hw : (s.uipConns c).tcb.Waits) (hp : p.isTurn c = false) :
    (s'.uipConns c).tcb = (s.uipConns c).tcb := by
  obtain ⟨hstep, hsilent⟩ := h
  have hfollows := hstep.follows c
  cases p with
  | input =>
    refine hfollows.unopened (fun e he => ?_) hw
    cases e with
    | opened => rfl
    | _ => exact absurd ⟨rfl, he.1⟩ hsilent
  | conn now nullTimer periodic i =>
    by_cases hi : i = c
    · subst hi
      cases periodic with
      | true => simp [Piece.isTurn] at hp
      | false =>
        cases hstep with
        | conn h =>
          simp only [tickConn, Option.bind_eq_bind, Option.pure_def, Bool.false_eq_true, if_false] at h
          split at h
          · obtain ⟨s₁, hpoll, hsend⟩ := Option.bind_eq_some_iff.mp h
            rw [(sendOut_only hsend).uipConns, (uipPoll_waits hw.len hpoll).uipConns]
          · cases h
            rfl
    · exact hfollows.unopened (fun e he => absurd he.1 hi) hw
  | rearm now | udp i => exact hfollows.unopened (fun e he => he.elim) hw
  | call a =>
    refine hfollows.unopened (fun e he => ?_) hw
    cases a with
    | connect ip port => exact he
    | _ => exact he.elim

theorem Unheard.turn (h : Unheard c s p s') (hw : (s.uipConns c).tcb.Waits) (hp : p.isTurn c = true) :
    Tcb.OneLess (s.uipConns c).tcb (s'.uipConns c).tcb ∨
      (s'.uipConns c).tcb.state = UIP_CLOSED ∧ (s.uipConns c).tcb.turnsLeft = 1 := by
  obtain ⟨hstep, -⟩ := h
  cases hstep with
  | conn h =>
    obtain ⟨rfl, rfl⟩ := by simpa [Piece.isTurn] using hp
    exact tickConn_turn hw h
  | _ => simp [Piece.isTurn] at hp

theorem PieceStep.sound (h : PieceStep s p s') (hs : (s.uipConns c).tcb.Sound) : (s'.uipConns c).tcb.Sound := by
  obtain ⟨es, hrun, -⟩ := h.follows c
  exact hrun.invariant (fun hs hstep => hstep.sound hs) hs

/-- A connection whose data is outstanding stays as it is without a segment from
its peer, for as many turns of the timer as it has left; the last one closes it.
There are never more than 501. -/
theorem gives_up {ram : Nat → Byte} {transmissions : List Transmission} {mac : List Byte} {now : BitVec 32} {ps₀ : List Piece}
    (h₀ : Run PieceStep (System.init ram transmissions mac now) ps₀ s) (hlen : (s.uipConns c).len ≠ 0)
    (hstate : (s.uipConns c).tcpstateflags.state ≠ UIP_CLOSED) (h : Run (Unheard c) s ps s') :
    (ps.countP (Piece.isTurn c) < (s.uipConns c).tcb.turnsLeft →
      (s'.uipConns c).tcpstateflags.state = (s.uipConns c).tcpstateflags.state ∧ (s'.uipConns c).len = (s.uipConns c).len ∧
        (s'.uipConns c).sndNxt = (s.uipConns c).sndNxt) ∧
      ((s.uipConns c).tcb.turnsLeft ≤ ps.countP (Piece.isTurn c) → Reaches (Unheard c)
        (fun t => (t.uipConns c).tcpstateflags.state = UIP_CLOSED) (Piece.isTurn c) (s.uipConns c).tcb.turnsLeft s ps) ∧
      (s.uipConns c).tcb.turnsLeft ≤ 501 := by
  have hsound : (s.uipConns c).tcb.Sound := h₀.invariant (fun hs hstep => hstep.sound hs)
    ⟨fun ho => by simp [System.init, Conn.tcb] at ho, fun _ => rfl, fun hne => absurd rfl hne⟩
  let I (t : System) : Prop := (t.uipConns c).tcb.Waits ∧ (t.uipConns c).tcb.state = (s.uipConns c).tcb.state ∧
    (t.uipConns c).tcb.len = (s.uipConns c).tcb.len ∧ (t.uipConns c).tcb.sndNxt = (s.uipConns c).tcb.sndNxt
  have hquiet : ∀ {t p u}, I t → Unheard c t p u → p.isTurn c = false →
      I u ∧ (u.uipConns c).tcb.turnsLeft = (t.uipConns c).tcb.turnsLeft := by
    intro t p u hI hstep hp
    have hsame := hstep.quiet hI.1 hp
    exact ⟨by simpa only [I, hsame] using hI, by rw [hsame]⟩
  have hturn : ∀ {t p u}, I t → Unheard c t p u → p.isTurn c = true →
      ((u.uipConns c).tcpstateflags.state = UIP_CLOSED ∧ (t.uipConns c).tcb.turnsLeft = 1) ∨
        (I u ∧ (u.uipConns c).tcb.turnsLeft + 1 = (t.uipConns c).tcb.turnsLeft) := by
    intro t p u hI hstep hp
    rcases hstep.turn hI.1 hp with hless | hlast
    · exact .inr ⟨⟨hless.waits, hless.state.trans hI.2.1, hless.len.trans hI.2.2.1, hless.sndNxt.trans hI.2.2.2⟩, hless.turnsLeft⟩
    · exact .inl hlast
  have hcount := h.countdown (⟨⟨hsound, hlen, hstate⟩, rfl, rfl, rfl⟩ : I s) hquiet hturn
  refine ⟨fun hfew => ?_, fun hmany => ?_, ?_⟩
  · rcases hcount with ⟨⟨-, hstate', hlen', hsnd⟩, -⟩ | hreaches
    · exact ⟨hstate', hlen', hsnd⟩
    · exact absurd hreaches.le (Nat.not_le_of_lt hfew)
  · rcases hcount with ⟨⟨hw, -⟩, hleft⟩ | hreaches
    · have hpos := hw.turnsLeft_pos
      omega
    · exact hreaches
  · have htimer := (s.uipConns c).tcb.timer.isLt
    have hle := (s.uipConns c).tcb.turnsLeft_le
    omega

/-- A SYN has 100 turns; one of them leaves the connection as it is. -/
theorem gives_up_example : ∃ s s' : System, (s.uipConns 0).tcb.turnsLeft = 100 ∧
    Run (Unheard 0) s [.conn 0 0 true 0] s' ∧ (s'.uipConns 0).tcpstateflags.state = UIP_SYN_SENT := by
  have hcompute : (((System.init (fun _ => 0) [] [] 0).step (.connect 0x0a000002 7)).bind fun s =>
      (s.tickConn 0 0 true 0).map fun _ => decide ((s.uipConns 0).tcb.turnsLeft = 100 ∧ (s.uipConns 0).len = 1 ∧
        (s.uipConns 0).tcpstateflags.state = UIP_SYN_SENT)) = some true := by
    decide +kernel
  obtain ⟨s, hconnect, hcompute⟩ := Option.bind_eq_some_iff.mp hcompute
  obtain ⟨s', hturn, hcompute⟩ := Option.map_eq_some_iff.mp hcompute
  obtain ⟨hleft, hlen, hstate⟩ := of_decide_eq_true hcompute
  have h₀ : Run PieceStep (System.init (fun _ => 0) [] [] 0) [.call (.connect 0x0a000002 7)] s :=
    .snoc .nil (.call (by rintro _ _ ⟨⟩) hconnect)
  have hrun : Run (Unheard 0) s [.conn 0 0 true 0] s' := .snoc .nil ⟨.conn hturn, by rintro ⟨⟨⟩, -⟩⟩
  have hfew : [Piece.conn 0 0 true 0].countP (Piece.isTurn 0) < (s.uipConns 0).tcb.turnsLeft := by
    rw [hleft]
    decide
  have hkept := (gives_up h₀ (by rw [hlen]; exact Nat.one_ne_zero) (by rw [hstate]; exact TcpState.noConfusion) hrun).1 hfew
  exact ⟨s, s', hleft, hrun, hkept.1.trans hstate⟩

end System

end UIPEthernet
