import UIPEthernet.UIPClient.Connected
import UIPEthernet.UIPServer

/-!
# connect

`connect` waits until the connection is established and takes the entry from
its `appstate`. The callback of the `tick` that establishes the connection
gives it a new entry, if there is one and the slot comes without an old one.
-/

namespace UIPEthernet

/-- An entry as `_allocateData` leaves it. -/
def Userdata.fresh (u : Fin UIP_CONNS) : Userdata :=
  ⟨BitVec.ofNat 8 u ||| UIP_CLIENT_CONNECTED, fun _ => NOBLOCK, fun _ => NOBLOCK, 0, 0⟩

namespace System

open TcpState UIPClient Lib

variable {s s' s₁ s₂ : System} {c i u : Fin UIP_CONNS} {o : Option (Fin UIP_CONNS)} {n : Nat} {rst : Prop}

-- ---------------------------------------------------------------------------
-- The other connections
-- ---------------------------------------------------------------------------

/-- The connection and its entry are left alone. -/
structure Apart (c : Fin UIP_CONNS) (s s' : System) : Prop where
  conn : s'.uipConns c = s.uipConns c
  entry : ∀ u, (s.uipConns c).appstate = some u → s'.allData u = s.allData u
  opens : s'.opens c = s.opens c

theorem Unmoved.apart (h : Unmoved s s') : Apart c s s' :=
  ⟨by rw [h.conns], fun _ _ => by rw [h.data], by rw [opens, opens, h.lives]⟩

theorem Turned.opens (h : Turned i rst s s') (c : Fin UIP_CONNS) : s'.opens c = s.opens c := by
  obtain ⟨-, -, hlife⟩ := h
  rw [System.opens, System.opens]
  cases hlife with
  | idle _ _ hlives _ => rw [hlives]
  | attached _ _ hwithin _ => rw [hwithin.lives]
  | fresh u _ _ _ hlives _ => simp [hlives]

theorem Turned.apart (h : Turned i rst s s') (hp : s.tables.Paired) (hi : c ≠ i) : Apart c s s' := by
  have hopens := h.opens c
  obtain ⟨hconns, -, hlife⟩ := h
  refine ⟨hconns c hi, fun u happ => ?_, hopens⟩
  cases hlife with
  | idle _ hdata _ _ => rw [hdata]
  | attached v hentry hwithin _ =>
    refine hwithin.others u ?_
    rintro rfl
    exact hi (hp.distinct c i u happ hentry)
  | fresh v _ hfree hothers _ _ =>
    refine hothers u ?_
    rintro rfl
    exact hp.ne_zero happ hfree

/-- A slot in SYN_SENT is not taken for another connection. -/
theorem Opened.apart (h : Opened i s s') (hsyn : (s.uipConns c).tcpstateflags = UIP_SYN_SENT) : Apart c s s' := by
  have hi : c ≠ i := by
    rintro rfl
    rcases unusedConn_flags h.slot with hflags | hflags <;> rw [hsyn] at hflags <;> exact absurd hflags (by decide)
  have hstarted := h.started
  refine ⟨hstarted.others c hi, fun u _ => by rw [hstarted.data], ?_⟩
  rw [System.opens, System.opens, hstarted.lives, List.count_cons_of_ne]
  rintro ⟨⟩
  exact hi rfl

-- ---------------------------------------------------------------------------
-- The phases of a connection that connect opens
-- ---------------------------------------------------------------------------

/-- The connection is not established yet, or has failed. -/
structure Opening (c : Fin UIP_CONNS) (n : Nat) (s : System) : Prop where
  flags : (s.uipConns c).tcpstateflags = UIP_SYN_SENT ∨ (s.uipConns c).tcpstateflags = UIP_CLOSED
  appstate : (s.uipConns c).appstate = none
  opens : s.opens c = n

/-- The connection is established; nothing has been received or written. -/
structure Online (c : Fin UIP_CONNS) (n : Nat) (o : Option (Fin UIP_CONNS)) (s : System) : Prop where
  state : (s.uipConns c).tcpstateflags.state = UIP_ESTABLISHED
  len : (s.uipConns c).len = 0
  appstate : (s.uipConns c).appstate = o
  entry : ∀ u, o = some u → s.allData u = .fresh u
  opens : s.opens c = n

theorem Opening.apart (h : Opening c n s) (ha : Apart c s s') : Opening c n s' := by
  refine ⟨?_, ?_, ha.opens.trans h.opens⟩
  · rw [ha.conn]
    exact h.flags
  · rw [ha.conn, h.appstate]

theorem Online.apart (h : Online c n o s) (ha : Apart c s s') : Online c n o s' := by
  refine ⟨?_, ?_, ?_, fun u hu => ?_, ha.opens.trans h.opens⟩
  · rw [ha.conn, h.state]
  · rw [ha.conn, h.len]
  · rw [ha.conn, h.appstate]
  · rw [ha.entry u (h.appstate.trans hu), h.entry u hu]

theorem Opening.state_ne (h : Opening c n s) : (s.uipConns c).tcpstateflags.state ≠ UIP_ESTABLISHED := by
  rcases h.flags with hflags | hflags <;> rw [hflags] <;> decide

/-- A change of the connection that keeps it idle. -/
theorem Online.mapConn (h : Online c n o s) {f : Conn → Conn}
    (hf : ∀ conn : Conn, (f conn).tcpstateflags = conn.tcpstateflags ∧ (f conn).len = conn.len ∧
      (f conn).appstate = conn.appstate) : Online c n o (s.mapConn c f) := by
  obtain ⟨hflags, hlen, happ⟩ := hf (s.uipConns c)
  refine ⟨?_, ?_, ?_, h.entry, h.opens⟩
  · rw [mapConn_self, hflags, h.state]
  · rw [mapConn_self, hlen, h.len]
  · rw [mapConn_self, happ, h.appstate]

theorem Opening.mapConn (h : Opening c n s) {f : Conn → Conn}
    (hf : ∀ conn : Conn, ((f conn).tcpstateflags = conn.tcpstateflags ∨ (f conn).tcpstateflags = UIP_CLOSED) ∧
      (f conn).appstate = conn.appstate) : Opening c n (s.mapConn c f) := by
  obtain ⟨hflags, happ⟩ := hf (s.uipConns c)
  refine ⟨?_, ?_, h.opens⟩
  · rw [mapConn_self]
    rcases hflags with hsame | hclosed
    · rw [hsame]
      exact h.flags
    · exact .inr hclosed
  · rw [mapConn_self, happ, h.appstate]

-- ---------------------------------------------------------------------------
-- The callback
-- ---------------------------------------------------------------------------

theorem finish_unmoved (sendLen : Nat) : Unmoved s (finish s sendLen) :=
  ⟨finish_conns sendLen, finish_data sendLen, (finish_within (u := 0) sendLen).lives⟩

/-- The callback has nothing to do for a new entry. -/
theorem serve_fresh (hfresh : s.allData u = .fresh u) (hended : ¬has s.uip.uipFlags (UIP_CLOSE ||| UIP_TIMEDOUT))
    (hack : ¬has s.uip.uipFlags UIP_ACKDATA) (hdata : has s.uip.uipFlags UIP_NEWDATA → s.uip.uipLen = 0) :
    serve s c u = some (finish s 0) := by
  have hflags : ∀ u : Fin UIP_CONNS, ¬has (Userdata.fresh u).state UIP_CLIENT_RESTART ∧
      ¬has (Userdata.fresh u).state UIP_CLIENT_CLOSE := by decide
  obtain ⟨hrestart, hclose⟩ := hflags u
  rw [← hfresh] at hrestart hclose
  have hnew : newdata s c u = some s := if_neg fun h => h.2.1 (hdata h.1)
  have hsame : restart s c u = s := if_neg hrestart
  have hclosing : closing s c u = s := if_neg hclose
  have hacked : acked s u = some s := if_neg hack
  have hout : (s.allData u).packetsOut 0 = NOBLOCK := by rw [hfresh]; rfl
  have hpolled : polled s c u = some (finish (closing s c u) 0) := if_neg fun h => h.2 hout
  simp only [serve, hnew, Option.bind_eq_bind, Option.bind_some, hsame, hacked, hpolled, hclosing]
  exact if_neg hended

/-- The callback, the entry being attached. -/
theorem Online.appcall (hattach : attach s c = s₁) (h : Online c n o s₁)
    (hended : ¬has s₁.uip.uipFlags (UIP_CLOSE ||| UIP_TIMEDOUT)) (hack : ¬has s₁.uip.uipFlags UIP_ACKDATA)
    (hdata : has s₁.uip.uipFlags UIP_NEWDATA → s₁.uip.uipLen = 0) : uipclientAppcall s c = some (finish s₁ 0) := by
  have happ := h.appstate
  simp only [uipclientAppcall, hattach]
  cases o with
  | none => simp only [happ]
  | some u =>
    simp only [happ]
    exact serve_fresh (h.entry u rfl) hended hack hdata

theorem Online.appsend (h : Online c n o s) (hslen : s.uip.uipSlen = 0) (hflags : ¬has s.uip.uipFlags (UIP_ABORT ||| UIP_CLOSE))
    (hsend : s.appsend c = some s') : Online c n o s' := by
  rw [Tables.has_or, Bool.or_eq_true, not_or] at hflags
  rw [System.appsend, if_neg hflags.1, if_neg hflags.2, segment_none hslen] at hsend
  have h₁ := h.mapConn (f := fun conn => { conn with nrtx := 0 }) fun _ => ⟨rfl, rfl, rfl⟩
  exact h₁.apart (apprexmit_only hsend).unmoved.apart

/-- A poll of an established connection. -/
theorem Online.poll (h : Online c n o s) (hcall : s.appcall c UIP_POLL = some s₁) (hsend : s₁.appsend c = some s') :
    Online c n o s' := by
  have h₁ : Online c n o (s.setFlags UIP_POLL) := h.apart (setFlags_only _).unmoved.apart
  have hattach : attach (s.setFlags UIP_POLL) c = s.setFlags UIP_POLL :=
    if_neg fun hf => absurd hf.2 (by decide : ¬has UIP_POLL UIP_CONNECTED)
  have hfinish := h₁.appcall hattach (by decide : ¬has UIP_POLL (UIP_CLOSE ||| UIP_TIMEDOUT))
    (by decide : ¬has UIP_POLL UIP_ACKDATA) fun hnew => absurd hnew (by decide : ¬has UIP_POLL UIP_NEWDATA)
  obtain rfl := Option.some.inj (hcall.symm.trans hfinish)
  refine (h₁.apart (finish_unmoved 0).apart).appsend (finish_slen 0) ?_ hsend
  rw [finish_flags]
  exact (by decide : ¬has UIP_POLL (UIP_ABORT ||| UIP_CLOSE))

/-- A callback without an entry. -/
theorem appcall_none {flags : BitVec 8} (hnone : (s.uipConns c).appstate = none) (hflags : ¬has flags UIP_CONNECTED) :
    s.appcall c flags = some (finish (s.setFlags flags) 0) := by
  have hattach : attach (s.setFlags flags) c = s.setFlags flags := if_neg fun h => hflags h.2
  have hnone : ((s.setFlags flags).uipConns c).appstate = none := hnone
  simp only [System.appcall, uipclientAppcall, hattach, hnone]

-- ---------------------------------------------------------------------------
-- The turn of the connection in tick
-- ---------------------------------------------------------------------------

theorem Opening.uipTimer (h : Opening c n s) (ht : s.uipTimer c = some s') : Opening c n s' := by
  simp only [System.uipTimer] at ht
  generalize hs₀ : (s.initAppdata.incIss.setLen 0).setSlen 0 = s₀ at ht
  have hpre : OnlyUip s s₀ := by rw [← hs₀]; rfl
  have h₀ := h.apart hpre.unmoved.apart
  split at ht
  · rename_i hwait
    rcases h₀.flags with hflags | hflags <;> rw [hflags] at hwait <;> exact absurd hwait (by decide)
  · split at ht
    · cases ht
      exact h₀.apart drop_only.unmoved.apart
    · rename_i hclosed
      have hsyn := h₀.flags.resolve_right hclosed
      split at ht
      · simp only [rexmitTimer] at ht
        have h₁ := h₀.mapConn (f := fun conn => { conn with timer := conn.timer - 1 }) fun _ => ⟨.inl rfl, rfl⟩
        split at ht
        · split at ht
          · -- the last attempt has timed out
            have h₂ := h₁.mapConn (f := fun conn => { conn with tcpstateflags := UIP_CLOSED }) fun _ => ⟨.inr rfl, rfl⟩
            obtain ⟨s₂, hcall, hsend⟩ := Option.bind_eq_some_iff.mp ht
            have hnone := appcall_none h₂.appstate (by decide : ¬has UIP_TIMEDOUT UIP_CONNECTED)
            obtain rfl := Option.some.inj (hcall.symm.trans hnone)
            have h₃ := h₂.apart ((setFlags_only UIP_TIMEDOUT).unmoved.trans (finish_unmoved 0)).apart
            exact h₃.apart (tcpSendNodata_only hsend).unmoved.apart
          · generalize hs₂ : System.mapConn _ c _ = s₂ at ht
            have h₂ : Opening c n s₂ := by
              rw [← hs₂]
              exact h₁.mapConn fun _ => ⟨.inl rfl, rfl⟩
            have hstate : (s₂.uipConns c).tcpstateflags.state = UIP_SYN_SENT := by
              rw [← hs₂, mapConn_self, mapConn_self, hsyn]
            rw [retransmit, hstate] at ht
            exact h₂.apart (tcpSendSyn_only ht).unmoved.apart
        · cases ht
          exact h₁.apart drop_only.unmoved.apart
      · split at ht
        · rename_i hest
          exact absurd hest h₀.state_ne
        · cases ht
          exact h₀.apart drop_only.unmoved.apart

theorem Opening.tickConn {now nullTimer : BitVec 32} {periodic : Bool} (h : Opening c n s)
    (ht : s.tickConn now nullTimer periodic c = some s') : Opening c n s' := by
  simp only [System.tickConn, Option.bind_eq_bind, Option.pure_def] at ht
  split at ht
  · obtain ⟨s₁, htimer, hsend⟩ := Option.bind_eq_some_iff.mp ht
    exact (h.uipTimer htimer).apart (sendOut_only hsend).unmoved.apart
  · split at ht
    · obtain ⟨s₁, hpoll, hsend⟩ := Option.bind_eq_some_iff.mp ht
      simp only [uipPoll] at hpoll
      rw [if_neg fun hest => h.state_ne hest.1] at hpoll
      cases hpoll
      exact (h.apart ((setAppdata_only _).trans drop_only).unmoved.apart).apart (sendOut_only hsend).unmoved.apart
    · cases ht
      exact h

theorem Online.uipTimer (h : Online c n o s) (ht : s.uipTimer c = some s') : Online c n o s' := by
  simp only [System.uipTimer] at ht
  generalize hs₀ : (s.initAppdata.incIss.setLen 0).setSlen 0 = s₀ at ht
  have hpre : OnlyUip s s₀ := by rw [← hs₀]; rfl
  have h₀ := h.apart hpre.unmoved.apart
  have hstate := h₀.state
  split at ht
  · rename_i hwait
    rcases hwait with hflags | hflags <;> rw [hflags] at hstate <;> exact absurd hstate (by decide)
  · split at ht
    · rename_i hflags
      rw [hflags] at hstate
      exact absurd hstate (by decide)
    · rw [if_neg (by simp [Conn.outstanding, h₀.len])] at ht
      obtain ⟨s₁, hcall, hsend⟩ := Option.bind_eq_some_iff.mp ht
      exact h₀.poll hcall hsend

theorem Online.tickConn {now nullTimer : BitVec 32} {periodic : Bool} (h : Online c n o s)
    (ht : s.tickConn now nullTimer periodic c = some s') : Online c n o s' := by
  simp only [System.tickConn, Option.bind_eq_bind, Option.pure_def] at ht
  split at ht
  · obtain ⟨s₁, htimer, hsend⟩ := Option.bind_eq_some_iff.mp ht
    exact (h.uipTimer htimer).apart (sendOut_only hsend).unmoved.apart
  · split at ht
    · obtain ⟨s₁, hpoll, hsend⟩ := Option.bind_eq_some_iff.mp ht
      refine Online.apart ?_ (sendOut_only hsend).unmoved.apart
      have h₀ : Online c n o s.initAppdata := h.apart (setAppdata_only _).unmoved.apart
      simp only [uipPoll] at hpoll
      rw [if_pos ⟨h₀.state, by simp [Conn.outstanding, h₀.len]⟩] at hpoll
      obtain ⟨s₂, hcall, hpost⟩ := Option.bind_eq_some_iff.mp hpoll
      exact h₀.poll hcall hpost
    · cases ht
      exact h

-- ---------------------------------------------------------------------------
-- The segment that establishes the connection
-- ---------------------------------------------------------------------------

/-- A new entry, if there is one. -/
theorem Online.attach (h : Online c n none s) (hconnected : has s.uip.uipFlags UIP_CONNECTED) :
    ∃ o, Online c n o (attach s c) ∧ (o ≠ none ↔ ∃ u, (s.allData u).state = 0) := by
  rw [UIPClient.attach, if_pos ⟨h.appstate, hconnected⟩]
  cases hfind : (List.finRange UIP_CONNS).find? fun sock => (s.allData sock).state = 0 with
  | none =>
    have hfull : allocateData s = none := by rw [allocateData, hfind]
    rw [hfull]
    refine ⟨none, h, fun hne => absurd rfl hne, ?_⟩
    rintro ⟨u, hfree⟩
    exact absurd (decide_eq_true hfree) (List.find?_eq_none.mp hfind u (List.mem_finRange u))
  | some u =>
    have halloc : allocateData s = some (s.setData u (.fresh u), u) := by
      rw [allocateData, hfind]
      rfl
    rw [halloc]
    have hfree := List.find?_some hfind
    have hconn : ((s.setData u (.fresh u)).setAppstate c (some u)).uipConns c = { s.uipConns c with appstate := some u } :=
      mapConn_self _ _ _
    refine ⟨some u, ⟨?_, ?_, setAppstate_self _, ?_, ?_⟩, fun _ => ⟨u, of_decide_eq_true hfree⟩, fun _ => Option.some_ne_none u⟩
    · exact (congrArg (fun conn => conn.tcpstateflags.state) hconn).trans h.state
    · exact (congrArg Conn.len hconn).trans h.len
    · rintro v ⟨⟩
      exact setData_self _
    · have hne : Event.attached c u ≠ .opened c := by rintro ⟨⟩
      exact (List.count_cons_of_ne hne).trans h.opens

/-- The connection that `connect` opens, behind a step of the `tick`: it is
established with an entry exactly if there was a free one. -/
inductive Progress (c : Fin UIP_CONNS) (n : Nat) (s s' : System) : Prop
  | opening (h : Opening c n s')
  | online (o : Option (Fin UIP_CONNS)) (h : Online c n o s') (hfree : o ≠ none ↔ ∃ u, (s.allData u).state = 0)

theorem Progress.around (hpre : Unmoved s s₁) (hpost : Unmoved s₂ s') (h : Progress c n s₁ s₂) : Progress c n s s' := by
  cases h with
  | opening h => exact .opening (h.apart hpost.apart)
  | online o h hfree => exact .online o (h.apart hpost.apart) (by rwa [← hpre.data])

/-- The SYN|ACK, or the end of the attempt. -/
theorem synSentInput_progress (h : Opening c n s) (hin : s.synSentInput c = some s') : Progress c n s s' := by
  simp only [synSentInput] at hin
  split at hin
  · obtain ⟨s₁, hmss, hin⟩ := Option.bind_eq_some_iff.mp hin
    obtain ⟨s₂, hcall, hsend⟩ := Option.bind_eq_some_iff.mp hin
    have htouch := (parseMss_goes hmss).toTouch
    let f (conn : Conn) : Conn :=
      { conn with tcpstateflags := UIP_ESTABLISHED, rcvNxt := s.uip.uipBuf.be32 Offset.seqno + 1, len := 0 }
    let t := (((s₁.mapConn c f).setLen 0).setSlen 0).setFlags (UIP_CONNECTED ||| UIP_NEWDATA)
    have hest : Online c n none t := by
      refine ⟨congrArg (fun conn => conn.tcpstateflags.state) (mapConn_self s₁ c f),
        congrArg Conn.len (mapConn_self s₁ c f), ?_, fun u hu => absurd hu.symm (Option.some_ne_none u), ?_⟩
      · exact (congrArg Conn.appstate (mapConn_self s₁ c f)).trans (htouch.appstate.trans h.appstate)
      · rw [← h.opens, System.opens, System.opens, ← htouch.lives]
        rfl
    obtain ⟨o, honline, hfree⟩ := hest.attach (by decide : has (UIP_CONNECTED ||| UIP_NEWDATA) UIP_CONNECTED)
    have huip : (attach t c).uip = t.uip := attach_uip
    have hflags : (attach t c).uip.uipFlags = UIP_CONNECTED ||| UIP_NEWDATA := by rw [huip]; rfl
    have hfinish := honline.appcall rfl (by rw [hflags]; decide) (by rw [hflags]; decide) fun _ => by rw [huip]; rfl
    obtain rfl := Option.some.inj (hcall.symm.trans hfinish)
    have hdata : t.allData = s.allData := htouch.data
    rw [hdata] at hfree
    refine .online o ((honline.apart (finish_unmoved 0).apart).appsend (finish_slen 0) ?_ hsend) hfree
    rw [finish_flags, hflags]
    decide
  · obtain ⟨s₁, hcall, hreset⟩ := Option.bind_eq_some_iff.mp hin
    have hnone := appcall_none h.appstate (by decide : ¬has UIP_ABORT UIP_CONNECTED)
    obtain rfl := Option.some.inj (hcall.symm.trans hnone)
    have h₁ := h.apart ((setFlags_only UIP_ABORT).unmoved.trans (finish_unmoved 0)).apart
    have h₂ := h₁.mapConn (f := fun conn => { conn with tcpstateflags := UIP_CLOSED }) fun _ => ⟨.inr rfl, rfl⟩
    exact .opening (h₂.apart (reset_only hreset).unmoved.apart)

theorem found_progress (h : Opening c n s) (hsyn : (s.uipConns c).tcpstateflags = UIP_SYN_SENT)
    (hin : s.found c = some s') : Progress c n s s' := by
  simp only [found] at hin
  split at hin
  · obtain ⟨s₁, hcall, hdrop⟩ := Option.bind_eq_some_iff.mp hin
    cases hdrop
    have h₀ := h.apart (setFlags_only 0).unmoved.apart
    have h₁ := h₀.mapConn (f := fun conn => { conn with tcpstateflags := UIP_CLOSED }) fun _ => ⟨.inr rfl, rfl⟩
    have hnone := appcall_none h₁.appstate (by decide : ¬has UIP_ABORT UIP_CONNECTED)
    obtain rfl := Option.some.inj (hcall.symm.trans hnone)
    exact .opening (h₁.apart (((setFlags_only UIP_ABORT).unmoved.trans (finish_unmoved 0)).trans drop_only.unmoved).apart)
  · let s₀ := (s.setFlags 0).setLen s.segmentLen
    have hpre : Unmoved s s₀ := ((setFlags_only 0).trans (setLen_only _)).unmoved
    have h₀ := h.apart hpre.apart
    split at hin
    · exact .opening (h₀.apart (tcpSendNodata_only hin).unmoved.apart)
    · have htouch := (ackInput_goes (s := s₀) (c := c)).toTouch
      obtain ⟨-, -, hsame⟩ := ackInput_same (s := s₀) (c := c)
      have hflags : ((s₀.ackInput c).uipConns c).tcpstateflags = UIP_SYN_SENT := hsame.trans hsyn
      have h₁ : Opening c n (s₀.ackInput c) := by
        refine ⟨.inl hflags, htouch.appstate.trans h₀.appstate, ?_⟩
        rw [← h₀.opens, System.opens, System.opens, htouch.lives]
      have hin : (s₀.ackInput c).stateInput c = some s' := hin
      rw [stateInput, hflags] at hin
      cases synSentInput_progress h₁ hin with
      | opening h => exact .opening h
      | online o h hfree => exact .online o h (by rwa [htouch.data] at hfree)

-- ---------------------------------------------------------------------------
-- A tick
-- ---------------------------------------------------------------------------

theorem tickInput_progress (hin : s.tickInput = some s') (hp : s.tables.Paired) (h : Opening c n s)
    (hsyn : (s.uipConns c).tcpstateflags = UIP_SYN_SENT) : Progress c n s s' := by
  cases tickInput_looked hin with
  | idle hall => exact .opening (h.apart hall.apart)
  | segment s₁ s₂ i hpre _ _ _ _ hfound hpost =>
    refine Progress.around hpre hpost ?_
    have h₁ := h.apart hpre.apart
    by_cases hi : c = i
    · subst hi
      exact found_progress h₁ (by rw [hpre.conns, hsyn]) hfound
    · have hp₁ : s₁.tables.Paired := by rwa [hpre.tables]
      exact .opening (h₁.apart (((found_turn hfound).turned hp₁).1.apart hp₁ hi))
  | opened s₁ s₂ i hpre hopened hpost =>
    exact .opening (((h.apart hpre.apart).apart (hopened.apart (by rw [hpre.conns, hsyn]))).apart hpost.apart)

/-- What the turns of a `tick` keep, its turns of the connections and of the
datagrams do. -/
theorem turns_keep {now : BitVec 32} {nullTimer : Fin UIP_CONNS → BitVec 32} {periodic : Bool} {I : System → Prop}
    (hself : ∀ {s s'}, I s → s.tickConn now (nullTimer c) periodic c = some s' → I s')
    (hapart : ∀ {s s'}, I s → Apart c s s' → I s') (hp : s.tables.Paired) (hI : I s)
    (ht : (List.finRange UIP_CONNS).foldlM (fun s i => s.tickConn now (nullTimer i) periodic i) s = some s') : I s' := by
  have hrun : Run (fun s i s' => s.tickConn now (nullTimer i) periodic i = some s') s
      ((List.finRange UIP_CONNS).map id) s' := .of_foldlM (fun hs => hs) ht
  refine (hrun.invariant (I := fun t => t.tables.Paired ∧ I t) ?_ ⟨hp, hI⟩).2
  rintro t i t' ⟨hpt, hIt⟩ hturn
  obtain ⟨hturned, hp'⟩ := tickConn_turned hturn hpt
  refine ⟨hp', ?_⟩
  by_cases hi : c = i
  · subst hi
    exact hself hIt hturn
  · exact hapart hIt (hturned.apart hpt hi)

theorem datagrams_unmoved (ht : (List.finRange UIP_UDP_CONNS).foldlM tickUdp s = some s') : Unmoved s s' := by
  have hrun : Run (fun s i s' => s.tickUdp i = some s') s ((List.finRange UIP_UDP_CONNS).map id) s' :=
    .of_foldlM (fun hs => hs) ht
  exact hrun.invariant (I := Unmoved s) (fun hs hturn => hs.trans (UIPUDP.tickUdp_aside hturn).toUnmoved) (.refl s)

theorem tick_progress {now : BitVec 32} {nullTimer : Fin UIP_CONNS → BitVec 32} (hp : s.tables.Paired) (h : Opening c n s)
    (hsyn : (s.uipConns c).tcpstateflags = UIP_SYN_SENT) (ht : s.tick now nullTimer = some s') : Progress c n s s' := by
  simp only [tick, Option.bind_eq_bind, Option.pure_def] at ht
  obtain ⟨s₁, hinput, ht⟩ := Option.bind_eq_some_iff.mp ht
  obtain ⟨s₂, hconns, ht⟩ := Option.bind_eq_some_iff.mp ht
  have hp₁ := (tickInput_session hinput hp).2
  have hlast : Unmoved s₂ s' := by
    split at ht
    · have hrearm : Unmoved s₂ { s₂ with periodicTimer := now + UIP_PERIODIC_TIMER } := ⟨rfl, rfl, rfl⟩
      exact hrearm.trans (datagrams_unmoved ht)
    · cases ht
      exact .refl _
  refine Progress.around (.refl s) hlast ?_
  cases tickInput_progress hinput hp h hsyn with
  | opening h₁ => exact .opening (turns_keep Opening.tickConn Opening.apart hp₁ h₁ hconns)
  | online o h₁ hfree => exact .online o (turns_keep Online.tickConn Online.apart hp₁ h₁ hconns) hfree

theorem tick_paired {now : BitVec 32} {nullTimer : Fin UIP_CONNS → BitVec 32} (hp : s.tables.Paired)
    (ht : s.tick now nullTimer = some s') : s'.tables.Paired := by
  obtain ⟨ps, hrun⟩ := tick_pieces ht
  exact hrun.invariant (I := fun t => t.tables.Paired) (fun hp hs => hs.paired hp) hp

theorem arrive_unmoved (ring : List Byte) (frames : Nat) : Unmoved s (s.arrive ring frames) := ⟨rfl, rfl, rfl⟩

end System

namespace UIPClient

open UIPEthernet.System TcpState Lib

/-- The loop of `connect` up to the return of 1: a `tick` in turn, until the
connection is established; `t` is the state in which the last one begins. -/
inductive Connecting (c : Fin UIP_CONNS) : System → System → System → Prop
  | established (hopen : (s.uipConns c).tcpstateflags.state ≠ UIP_CLOSED)
      (htick : (s.arrive ring frames).tick now nullTimer = some s')
      (hest : (s'.uipConns c).tcpstateflags.state = UIP_ESTABLISHED) : Connecting c s (s.arrive ring frames) s'
  | again (hopen : (s.uipConns c).tcpstateflags.state ≠ UIP_CLOSED)
      (htick : (s.arrive ring frames).tick now nullTimer = some s₁)
      (hest : (s₁.uipConns c).tcpstateflags.state ≠ UIP_ESTABLISHED) (hmore : Connecting c s₁ t s') : Connecting c s t s'

/-- A call of `connect` that returns 1: behind `stop` and its `tick` the
connection `c` is set up, which leads to `s₁`; the last argument is the new
`data`. -/
inductive Connect (s : System) (data : Option (Fin UIP_CONNS)) (ip : BitVec 32) (port : Nat) (c : Fin UIP_CONNS) :
    System → System → System → Option (Fin UIP_CONNS) → Prop
  | returns (hstop : stop s data = some s₀) (htick : (s₀.arrive ring frames).tick now nullTimer = some s₀')
      (hconnect : s₀'.uipConnect ip (htons port) = some (s₁, some c)) (hloop : Connecting c s₁ t s') :
      Connect s data ip port c s₁ t s' (s'.uipConns c).appstate

/-- `data` is the entry of the connection that was set up in `s₁`, connected and
without blocks. -/
structure Usable (c : Fin UIP_CONNS) (s₁ s' : System) (data : Option (Fin UIP_CONNS)) : Prop where
  same : s'.opens c = s₁.opens c
  appstate : data = (s'.uipConns c).appstate
  entry : ∃ u, data = some u ∧ has (s'.allData u).state UIP_CLIENT_CONNECTED ∧
    ∀ i, (s'.allData u).packetsIn i = NOBLOCK ∧ (s'.allData u).packetsOut i = NOBLOCK

variable {s s₁ t s' : System} {c : Fin UIP_CONNS} {data data' : Option (Fin UIP_CONNS)} {n : Nat}

theorem arrive_progress {ring : List Byte} {frames : Nat} {now : BitVec 32} {nullTimer : Fin UIP_CONNS → BitVec 32}
    (hp : s.tables.Paired) (h : Opening c n s) (hopen : (s.uipConns c).tcpstateflags.state ≠ UIP_CLOSED)
    (ht : (s.arrive ring frames).tick now nullTimer = some s') :
    Progress c n (s.arrive ring frames) s' ∧ s'.tables.Paired := by
  have harrive := arrive_unmoved (s := s) ring frames
  have hp' : (s.arrive ring frames).tables.Paired := by rwa [harrive.tables]
  have hsyn : (s.uipConns c).tcpstateflags = UIP_SYN_SENT := by
    refine h.flags.resolve_right fun hclosed => hopen ?_
    rw [hclosed]
  exact ⟨tick_progress hp' (h.apart harrive.apart) hsyn ht, tick_paired hp' ht⟩

theorem Connecting.online (h : Connecting c s t s') (hp : s.tables.Paired) (hopening : Opening c n s) :
    ∃ o, Online c n o s' ∧ (o ≠ none ↔ ∃ u, (t.allData u).state = 0) := by
  induction h with
  | established hopen htick hest =>
    cases (arrive_progress hp hopening hopen htick).1 with
    | opening h => exact absurd hest h.state_ne
    | online o h hfree => exact ⟨o, h, hfree⟩
  | again hopen htick hest hmore ih =>
    obtain ⟨hprogress, hp'⟩ := arrive_progress hp hopening hopen htick
    cases hprogress with
    | opening h => exact ih hp' h
    | online o h hfree => exact absurd h.state hest

theorem uipConnect_opening {ripaddr : BitVec 32} {rport : Nat} (h : s.uipConnect ripaddr rport = some (s₁, some c))
    (hnone : (s₁.uipConns c).appstate = none) : Opening c (s₁.opens c) s₁ := by
  refine ⟨.inl ?_, hnone, rfl⟩
  simp only [uipConnect, Option.bind_eq_bind, Option.bind_eq_some_iff] at h
  obtain ⟨lastport, -, h⟩ := h
  split at h
  · cases h
  · cases h
    simp only [record, mapConn_self]

/-- A call of `connect` that returns 1 from a slot without an old entry returns
a usable `data` exactly if an entry is free when the last `tick` begins. -/
theorem connect_usable {s₀ : System} {ps : List Piece} {ip : BitVec 32} {port : Nat} (h0 : s₀.tables = Tables.zero)
    (hrun : Run PieceStep s₀ ps s) (h : Connect s data ip port c s₁ t s' data')
    (hslot : (s₁.uipConns c).appstate = none) : Usable c s₁ s' data' ↔ ∃ u, (t.allData u).state = 0 := by
  have hp := run_paired h0 hrun
  cases h with
  | @returns s₂ ring frames now nullTimer s₃ _ _ _ hstop htick hconnect hloop =>
    have hp₂ : (s₂.arrive ring frames).tables.Paired := by
      rw [(arrive_unmoved ring frames).tables]
      exact stop_paired hp hstop
    have hp₃ := tick_paired hp₂ htick
    have hstep : PieceStep s₃ (.call (.connect ip port)) s₁ :=
      .call (by rintro _ _ ⟨⟩) (congrArg (Option.map Prod.fst) hconnect)
    obtain ⟨o, honline, hfree⟩ := hloop.online (hstep.paired hp₃) (uipConnect_opening hconnect hslot)
    rw [← hfree, honline.appstate]
    constructor
    · rintro ⟨-, -, u, rfl, -⟩
      exact Option.some_ne_none u
    · intro hsome
      obtain ⟨u, rfl⟩ := Option.ne_none_iff_exists'.mp hsome
      refine ⟨honline.opens, honline.appstate.symm, u, rfl, ?_⟩
      rw [honline.entry u rfl]
      exact ⟨(by decide : ∀ u : Fin UIP_CONNS, has (Userdata.fresh u).state UIP_CLIENT_CONNECTED) u, fun _ => ⟨rfl, rfl⟩⟩

-- ---------------------------------------------------------------------------
-- Two calls
-- ---------------------------------------------------------------------------

/-- The answer of a server on port 7 of 10.0.0.2 to a SYN from port 1025 of
10.0.0.1, as it lies behind `n` bytes of the ring. -/
def synAckRing (n : Nat) : List Byte :=
  List.replicate n 0 ++ [BitVec.ofNat 8 (n + 70), BitVec.ofNat 8 ((n + 70) / 256), 64, 0, 0x80, 0] ++
  [1, 2, 3, 4, 5, 6, 6, 5, 4, 3, 2, 1, 8, 0] ++
  [0x45, 0, 0, 40, 0, 0, 0, 0, 64, 6, 0x66, 0xce, 10, 0, 0, 2, 10, 0, 0, 1] ++
  [0, 7, 4, 1, 0, 0, 0, 200, 0, 0, 0, 1, 0x50, TCP_SYN ||| TCP_ACK, 2, 0, 0x94, 0xff, 0, 0, 0, 0, 0, 0, 0, 0, 0, 0, 0, 0]

/-- `connect` of an object without `data`: the timer sends the SYN on its second
turn, and the answer comes behind it. -/
def dial (s : System) (n : Nat) : Option (System × Option (Fin UIP_CONNS) × System × System × System) := do
  let s₀ ← (s.arrive [] 0).tick 0 fun _ => 0
  let (s₁, conn) ← s₀.uipConnect 0x0a000002 (htons 7)
  let s₂ ← (s₁.arrive [] 0).tick 250 fun _ => 0
  let s₃ ← (s₂.arrive [] 0).tick 500 fun _ => 0
  let s₄ ← (s₃.arrive (synAckRing n) 1).tick 501 fun _ => 0
  return (s₁, conn, s₂, s₃, s₄)

theorem dial_connect {s₂ s₃ s₄ : System} {k : Nat} (h : dial s k = some (s₁, some c, s₂, s₃, s₄))
    (hsyn : ∀ t ∈ [s₁, s₂, s₃], (t.uipConns c).tcpstateflags.state = UIP_SYN_SENT)
    (hest : (s₄.uipConns c).tcpstateflags.state = UIP_ESTABLISHED) :
    Connect s none 0x0a000002 7 c s₁ (s₃.arrive (synAckRing k) 1) s₄ (s₄.uipConns c).appstate := by
  simp only [dial, Option.bind_eq_bind, Option.pure_def] at h
  obtain ⟨s₀, h₀, h⟩ := Option.bind_eq_some_iff.mp h
  obtain ⟨⟨s₁, conn⟩, h₁, h⟩ := Option.bind_eq_some_iff.mp h
  obtain ⟨s₂, h₂, h⟩ := Option.bind_eq_some_iff.mp h
  obtain ⟨s₃, h₃, h⟩ := Option.bind_eq_some_iff.mp h
  obtain ⟨s₄, h₄, h⟩ := Option.bind_eq_some_iff.mp h
  cases h
  have hne : ∀ t ∈ [s₁, s₂, s₃], (t.uipConns c).tcpstateflags.state ≠ UIP_CLOSED ∧
      (t.uipConns c).tcpstateflags.state ≠ UIP_ESTABLISHED := by
    intro t ht
    rw [hsyn t ht]
    decide
  have hmem₁ : s₁ ∈ [s₁, s₂, s₃] := List.mem_cons_self
  have hmem₂ : s₂ ∈ [s₁, s₂, s₃] := List.mem_cons_of_mem _ List.mem_cons_self
  have hmem₃ : s₃ ∈ [s₁, s₂, s₃] := by simp
  exact .returns rfl h₀ h₁ (.again (hne s₁ hmem₁).1 h₂ (hne s₂ hmem₂).2
    (.again (hne s₂ hmem₂).1 h₃ (hne s₃ hmem₃).2 (.established (hne s₃ hmem₃).1 h₄ hest)))

def configured : System :=
  (System.init (fun _ => 0) [] [1, 2, 3, 4, 5, 6] 0).configure 0x0a000001 0 0xff000000

theorem connect_usable_example : ∃ (s₁ t s' : System) (data : Option (Fin UIP_CONNS)),
    Connect configured none 0x0a000002 7 0 s₁ t s' data ∧ Usable 0 s₁ s' data := by
  have hcompute : ((dial configured 0).map fun x => decide (x.2.1 = some 0 ∧
      (∀ t ∈ [x.1, x.2.2.1, x.2.2.2.1], (t.uipConns 0).tcpstateflags.state = UIP_SYN_SENT) ∧
      (x.2.2.2.2.uipConns 0).tcpstateflags.state = UIP_ESTABLISHED ∧ (x.1.uipConns 0).appstate = none ∧
      (x.2.2.2.1.allData 0).state = 0)) = some true := by
    decide +kernel
  have h0 : configured.tables = Tables.zero := rfl
  generalize configured = s at hcompute h0 ⊢
  obtain ⟨⟨s₁, conn, s₂, s₃, s₄⟩, hdial, hcompute⟩ := Option.map_eq_some_iff.mp hcompute
  obtain ⟨rfl, hsyn, hest, hnone, hfree⟩ := of_decide_eq_true hcompute
  have hconnect := dial_connect hdial hsyn hest
  exact ⟨s₁, _, s₄, _, hconnect, (connect_usable h0 .nil hconnect hnone).mpr ⟨0, hfree⟩⟩

/-- A server on port 7 whose peer sends a byte and resets the connection. -/
def aborted : System :=
  (configured.uipListen (htons 7)).arrive (ringSlot 70 (peerFrame 7 TCP_SYN 100 0 [0x99, 0x6e] []) ++
    ringSlot 140 (peerFrame 7 TCP_ACK 101 1 [0x90, 0x5d] [9]) ++
    ringSlot 210 (peerFrame 7 (TCP_RST ||| TCP_ACK) 102 1 [0x99, 0x59] [])) 3

/-- The new connection comes with the byte of the one that was reset. -/
theorem connect_stale : ∃ (s₀ s s₁ t s' : System) (ps : List Piece) (data : Option (Fin UIP_CONNS)),
    s₀.tables = Tables.zero ∧ Run PieceStep s₀ ps s ∧ Connect s none 0x0a000002 7 0 s₁ t s' data ∧
    ¬Usable 0 s₁ s' data := by
  have hcompute : (aborted.tickInput.bind fun a => a.tickInput.bind fun b => b.tickInput.bind fun s =>
      (dial s 210).map fun x => decide (x.2.1 = some 0 ∧
        (∀ t ∈ [x.1, x.2.2.1, x.2.2.2.1], (t.uipConns 0).tcpstateflags.state = UIP_SYN_SENT) ∧
        (x.2.2.2.2.uipConns 0).tcpstateflags.state = UIP_ESTABLISHED ∧ (x.2.2.2.2.uipConns 0).appstate = some 0 ∧
        (x.2.2.2.2.allData 0).packetsIn 0 ≠ NOBLOCK)) = some true := by
    decide +kernel
  have h0 : aborted.tables = Tables.zero := rfl
  generalize aborted = s₀ at hcompute h0
  obtain ⟨a, ha, hcompute⟩ := Option.bind_eq_some_iff.mp hcompute
  obtain ⟨b, hb, hcompute⟩ := Option.bind_eq_some_iff.mp hcompute
  obtain ⟨s, hs, hcompute⟩ := Option.bind_eq_some_iff.mp hcompute
  obtain ⟨⟨s₁, conn, s₂, s₃, s₄⟩, hdial, hcompute⟩ := Option.map_eq_some_iff.mp hcompute
  obtain ⟨rfl, hsyn, hest, happ, hold⟩ := of_decide_eq_true hcompute
  have hrun : Run PieceStep s₀ [.input, .input, .input] s := .snoc (.snoc (.snoc .nil (.input ha)) (.input hb)) (.input hs)
  refine ⟨s₀, s, s₁, _, s₄, _, _, h0, hrun, dial_connect hdial hsyn hest, ?_⟩
  rintro ⟨-, -, u, hu, -, hempty⟩
  obtain rfl := Option.some.inj (happ.symm.trans hu)
  exact hold (hempty 0).1

end UIPClient

end UIPEthernet
