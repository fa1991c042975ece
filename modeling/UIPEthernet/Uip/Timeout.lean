import UIPEthernet.Uip.Conformance

/-!
# The retransmission timer, turn by turn

What is outstanding is sent again after 1, 2, 4, 8 and then always 16 times the
first timeout, until a connection has done so as often as it may.
`Tcb.turnsLeft` counts the turns of the timer up to the one that gives up.
-/

namespace UIPEthernet

open TcpState Lib

namespace Tcb

variable {t t' : Tcb} {e : Cause}

/-- How often data may be sent again. -/
def limit (state : TcpState) : Nat :=
  if state = UIP_SYN_SENT ∨ state = UIP_SYN_RCVD then UIP_MAXSYNRTX.toNat else UIP_MAXRTX.toNat

/-- The turns that the retransmission takes up that comes behind `nrtx` others. -/
def wait (nrtx : Nat) : Nat := (UIP_RTO <<< backoff (BitVec.ofNat 8 nrtx)).toNat + 1

/-- The turns of the timer until the connection is given up. -/
def turnsLeft (t : Tcb) : Nat :=
  t.timer.toNat + 1 + ((List.range' t.nrtx.toNat (limit t.state - t.nrtx.toNat)).map wait).sum

/-- What the states say about the rest. -/
structure Sound (t : Tcb) : Prop where
  opening : t.state = UIP_SYN_SENT ∨ t.state = UIP_SYN_RCVD → t.stopped = false
  done : t.state = UIP_FIN_WAIT_2 ∨ t.state = UIP_TIME_WAIT → t.len = 0
  nrtx : t.state ≠ UIP_CLOSED → t.nrtx.toNat ≤ limit t.state

theorem Sound.not_exhausted (h : t.Sound) (hstate : t.state ≠ UIP_CLOSED) (hmore : ¬t.Exhausted) :
    t.nrtx.toNat < limit t.state := by
  refine lt_of_le_of_ne (h.nrtx hstate) fun heq => hmore ?_
  unfold limit at heq
  split at heq
  · rename_i hopening
    exact .inr ⟨⟨hopening, h.opening hopening⟩, BitVec.eq_of_toNat_eq heq⟩
  · exact .inl (BitVec.eq_of_toNat_eq heq)

theorem limit_le (state : TcpState) : limit state ≤ UIP_MAXRTX.toNat := by
  unfold limit
  split <;> decide

theorem Exhausted.limit_le (hmax : t.Exhausted) : limit t.state ≤ t.nrtx.toNat := by
  rcases hmax with hmax | ⟨⟨hopening, -⟩, hmax⟩ <;> rw [hmax]
  · exact Tcb.limit_le _
  · rw [limit, if_pos hopening]

theorem nrtx_succ (h : t.nrtx.toNat < limit t.state) : (t.nrtx + 1).toNat = t.nrtx.toNat + 1 := by
  have hlimit : limit t.state ≤ 8 := limit_le _
  rw [BitVec.toNat_add, Nat.mod_eq_of_lt]
  · rfl
  · have hone : (1 : BitVec 8).toNat = 1 := rfl
    omega

theorem Step.sound (h : Step t e t') (hs : t.Sound) : t'.Sound := by
  have hkeep : ∀ {t' : Tcb}, t'.state = t.state → t'.stopped = t.stopped → (t'.len = t.len ∨ t'.len = 0) → t'.nrtx = t.nrtx →
      t'.Sound := by
    intro t' hstate hstopped hlen hnrtx
    refine ⟨?_, ?_, ?_⟩ <;> rw [hstate]
    · rw [hstopped]
      exact hs.opening
    · exact fun hdone => hlen.elim (fun hlen => hlen.trans (hs.done hdone)) id
    · rw [hnrtx]
      exact hs.nrtx
  have hclosed : ∀ {t' : Tcb}, t'.state = UIP_CLOSED → t'.Sound :=
    fun h => ⟨fun ho => by simp [h] at ho, fun hd => by simp [h] at hd, fun hne => absurd h hne⟩
  cases h with
  | callback stopped h => exact ⟨fun ho => by simp [h] at ho, hs.done, hs.nrtx⟩
  | opened _ _ _ _ _ _ state _ hstate =>
    exact ⟨fun _ => rfl, fun hd => by rcases hstate with rfl | rfl <;> simp at hd, fun _ => Nat.zero_le _⟩
  | rst | refused | ackedLastAck | timeout | waited => exact hclosed rfl
  | ack => exact hkeep rfl rfl (.inr rfl) rfl
  | accept | countdown | linger => exact hkeep rfl rfl (.inl rfl) rfl
  | established h _ | synack _ h _ =>
    exact ⟨fun ho => by simp at ho, fun hd => by simp at hd, fun _ => (hs.nrtx (by simp [h])).trans (limit_le _)⟩
  | finWait1 _ h =>
    exact ⟨fun ho => by simp at ho, fun hd => by simp at hd, fun _ => (hs.nrtx (by simp [h])).trans (limit_le _)⟩
  | finWait1Acked _ h hlen | ackedFinWait1 h hlen | ackedClosing h hlen =>
    exact ⟨fun ho => by simp at ho, fun _ => hlen, fun _ => (hs.nrtx (by simp [h])).trans (limit_le _)⟩
  | finWait2 _ h =>
    exact ⟨fun ho => by simp at ho, fun _ => hs.done (.inl h), fun _ => (hs.nrtx (by simp [h])).trans (limit_le _)⟩
  | finEstablished | close => exact ⟨fun ho => by simp at ho, fun hd => by simp at hd, fun _ => Nat.zero_le _⟩
  | send _ h | keep h => exact ⟨hs.opening, fun hd => by simp [h] at hd, fun _ => Nat.zero_le _⟩
  | rexmit hopen _ _ hmore =>
    refine ⟨hs.opening, hs.done, fun hstate => ?_⟩
    have hlt := hs.not_exhausted hstate hmore
    rw [nrtx_succ hlt]
    exact hlt

/-- Something is outstanding. -/
structure Waits (t : Tcb) : Prop where
  sound : t.Sound
  len : t.len ≠ 0
  state : t.state ≠ UIP_CLOSED

theorem Waits.open (h : t.Waits) : t.Open := .of_state h.state

theorem Waits.not_lingers (h : t.Waits) : ¬t.Lingers := fun hl => h.len (h.sound.done hl.1.symm)

theorem Waits.not_reusable (h : t.Waits) : ¬t.Reusable := fun hr =>
  hr.1.elim h.state fun hwait => h.len (h.sound.done (.inr hwait))

theorem Waits.turnsLeft_pos (_ : t.Waits) : 0 < t.turnsLeft := by
  rw [turnsLeft]
  omega

theorem toNat_pred {x : BitVec 8} (hx : x ≠ 0) : (x - 1).toNat + 1 = x.toNat := by
  have hpos : 0 < x.toNat := Nat.pos_of_ne_zero fun h0 => hx (BitVec.eq_of_toNat_eq h0)
  have hlt := x.isLt
  have hone : (1 : BitVec 8).toNat = 1 := rfl
  rw [BitVec.toNat_sub, hone]
  omega

/-- What is left of a connection whose data stays outstanding for a turn. -/
structure OneLess (t t' : Tcb) : Prop where
  waits : t'.Waits
  turnsLeft : t'.turnsLeft + 1 = t.turnsLeft
  state : t'.state = t.state
  len : t'.len = t.len
  sndNxt : t'.sndNxt = t.sndNxt

/-- A turn of the timer that sends again or only counts. -/
theorem Waits.turn (h : t.Waits) (hstep : Step t e t') (he : e = .countdown ∨ e = .rexmit) : OneLess t t' := by
  have hsound := hstep.sound h.sound
  cases hstep with
  | countdown _ _ htimer =>
    refine ⟨⟨hsound, h.len, h.state⟩, ?_, rfl, rfl, rfl⟩
    simp only [turnsLeft, ← toNat_pred htimer]
    omega
  | linger hlingers _ => exact absurd hlingers h.not_lingers
  | rexmit _ _ htimer hmore =>
    refine ⟨⟨hsound, h.len, h.state⟩, ?_, rfl, rfl, rfl⟩
    have hlt := h.sound.not_exhausted h.state hmore
    have hsplit : limit t.state - t.nrtx.toNat = limit t.state - (t.nrtx.toNat + 1) + 1 := by omega
    have hzero : t.timer.toNat = 0 := congrArg BitVec.toNat htimer
    simp only [turnsLeft, nrtx_succ hlt, hzero, hsplit, List.range'_succ, List.map_cons, List.sum_cons, wait, BitVec.ofNat_toNat,
      BitVec.setWidth_eq]
    omega
  | _ => simp at he

/-- The turn that gives up is the last one. -/
theorem Step.last (hstep : Step t .timeout t') : t'.state = UIP_CLOSED ∧ t.turnsLeft = 1 := by
  cases hstep with
  | timeout _ _ _ htimer hmax =>
    refine ⟨rfl, ?_⟩
    have htimer : t.timer.toNat = 0 := congrArg BitVec.toNat htimer
    simp [turnsLeft, htimer, Nat.sub_eq_zero_of_le (hmax.limit_le)]

theorem Waits.stop (h : t.Waits) (hstate : t.state = UIP_ESTABLISHED) (stopped : Bool) : Waits { t with stopped } :=
  ⟨⟨fun ho => by simp [hstate] at ho, h.sound.done, h.sound.nrtx⟩, h.len, h.state⟩

/-- The retransmissions take up 245 turns, behind those of the timer. -/
theorem turnsLeft_le (t : Tcb) : t.turnsLeft ≤ t.timer.toNat + 246 := by
  have hsum : ∀ n m, m ≤ 8 → ((List.range' n (m - n)).map wait).sum ≤ 245 := by
    intro n m hm
    by_cases hn : n < 8
    · have hall : ∀ m ∈ List.range 9, ∀ n ∈ List.range 8, ((List.range' n (m - n)).map wait).sum ≤ 245 := by decide
      exact hall m (List.mem_range.mpr (Nat.lt_succ_of_le hm)) n (List.mem_range.mpr hn)
    · simp [Nat.sub_eq_zero_of_le (hm.trans (Nat.le_of_not_lt hn))]
  have := hsum t.nrtx.toNat (limit t.state) (limit_le _)
  rw [turnsLeft]
  omega

end Tcb

namespace System

variable {s s' : System} {c : Fin UIP_CONNS}

/-- A turn of the timer, with data outstanding. -/
theorem uipTimer_turn (hw : (s.uipConns c).tcb.Waits) (h : s.uipTimer c = some s') :
    Tcb.OneLess (s.uipConns c).tcb (s'.uipConns c).tcb ∨
      (s'.uipConns c).tcb.state = UIP_CLOSED ∧ (s.uipConns c).tcb.turnsLeft = 1 := by
  simp only [uipTimer] at h
  generalize hs₀ : (s.initAppdata.incIss.setLen 0).setSlen 0 = s₀ at h
  have hsame : (s₀.uipConns c).tcb = (s.uipConns c).tcb := by rw [← hs₀]; rfl
  rw [← hsame] at hw ⊢
  split at h
  · rename_i hwait
    rw [flags_iff, flags_iff, ← or_and_right] at hwait
    exact absurd hwait hw.not_lingers
  · split at h
    · rename_i hclosed
      exact absurd (flags_iff.mp hclosed).1 hw.state
    · have hlen : (s₀.uipConns c).len ≠ 0 := hw.len
      rw [if_pos (by simpa [Conn.outstanding] using hlen : (s₀.uipConns c).outstanding)] at h
      rcases rexmitTimer_tcb hw.open hw.len h with ⟨e, t, hstep, he, htcb⟩ | htimeout
      · have hless := hw.turn hstep he
        rcases htcb with heq | ⟨hest, stopped, heq⟩ <;> rw [heq]
        · exact .inl hless
        · exact .inl ⟨hless.waits.stop hest stopped, hless.turnsLeft, hless.state, hless.len, hless.sndNxt⟩
      · exact .inr htimeout.last

/-- A poll leaves a connection with outstanding data. -/
theorem uipPoll_waits (hlen : (s.uipConns c).len ≠ 0) (h : s.uipPoll c = some s') : OnlyUip s s' := by
  simp only [uipPoll] at h
  split at h
  · rename_i hpoll
    have hidle : (!(s.uipConns c).outstanding) = true := hpoll.2
    exact absurd (by simpa [Conn.outstanding] using hidle) hlen
  · cases h
    exact (setAppdata_only _).trans drop_only

end System

end UIPEthernet
