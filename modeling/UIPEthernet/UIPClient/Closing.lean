import UIPEthernet.UIPClient.AttachedQueues

/-!
# Closing

`stop` leaves what is queued to the callback: a poll offers the head block, its
acknowledgement frees it, and behind the last one the connection is closed. A
block that holds no bytes is never offered, and so never freed.
-/

namespace UIPEthernet

open Lib Enc28J60Network

namespace UIPClient

open UIPEthernet.System

/-- The call is about another connection and another entry. -/
def Elsewhere (c u : Fin UIP_CONNS) : QueueCall → Prop
  | .others => True
  | .appcall i => i ≠ c
  | .write v _ _ | .read v _ | .flush v | .stop v => v ≠ u

variable {clean : Prop} {s s' s₁ s₂ : System} {c u : Fin UIP_CONNS} {hs : List Handle} {h : Handle} {n : Nat}

-- ---------------------------------------------------------------------------
-- The other connections
-- ---------------------------------------------------------------------------

theorem QueueStep.elsewhere {a : QueueCall} (hp : s.tables.Paired) (happ : (s.uipConns c).appstate = some u)
    (ha : Elsewhere c u a) (h : QueueStep s a s') :
    s'.allData u = s.allData u ∧ (s'.uipConns c).appstate = (s.uipConns c).appstate := by
  have hown : ∀ {v : Fin UIP_CONNS}, v ≠ u → Own (some v) s s' →
      s'.allData u = s.allData u ∧ (s'.uipConns c).appstate = (s.uipConns c).appstate := by
    intro v hv hown
    exact ⟨hown.others u fun he => hv (Option.some.inj he), by rw [hown.conns]⟩
  cases h with
  | others h => exact ⟨by rw [h.entries], h.appstate c⟩
  | @appcall i _ _ h =>
    refine ⟨?_, by rw [(appcall_confined h).others c fun he => ha he.symm]⟩
    cases appcall_callback hp h with
    | unattached _ _ hdata _ => rw [hdata]
    | attached v hentry hwithin _ =>
      refine hwithin.others u ?_
      rintro rfl
      exact ha (hp.distinct i c u hentry happ)
    | fresh v _ _ hfree hothers _ _ =>
      refine hothers u ?_
      rintro rfl
      exact hp.ne_zero happ hfree
  | write h => exact hown ha (attempt_own h)
  | read h => exact hown ha (read_own h)
  | flush h => exact hown ha (flush_own h)
  | stop h => exact hown ha (stop_own h)

/-- uIP calls back for the connection, after whatever happens elsewhere. -/
structure Prompted (c u : Fin UIP_CONNS) (flags : BitVec 8) (s s₁ : System) : Prop where
  elsewhere : ∃ es, Run (fun s a s' => QueueStep s a s' ∧ Elsewhere c u a) s es s₁
  flags : s₁.uip.uipFlags = flags
  payload : AtPayload s₁

-- ---------------------------------------------------------------------------
-- An entry that is being closed
-- ---------------------------------------------------------------------------

/-- The entry of the connection is closed by the sketch, with blocks left to be
sent. -/
structure Closing (c u : Fin UIP_CONNS) (hs : List Handle) (s : System) : Prop where
  sound : Sound False s
  appstate : (s.uipConns c).appstate = some u
  close : has (s.allData u).state UIP_CLIENT_CLOSE
  queue : Lists (s.allData u).packetsOut hs

/-- The entry is given back, and uIP is told to close. -/
structure Finished (c u : Fin UIP_CONNS) (s : System) : Prop where
  state : (s.allData u).state = 0
  appstate : (s.uipConns c).appstate = none
  queue : ∀ i, (s.allData u).packetsOut i = NOBLOCK
  flags : has s.uip.uipFlags UIP_CLOSE

/-- uIP has bytes to send; they lie in the packet if there was a block for it. -/
structure Sends (s : System) : Prop where
  slen : 0 < s.uip.uipSlen
  packet : s.uipPacket ≠ NOBLOCK → has s.packetstate UIPETHERNET_SENDPACKET

/-- `n` rounds of a poll and an acknowledgement are enough: each poll of an entry
with blocks sends something. -/
def Completes (c u : Fin UIP_CONNS) : Nat → System → Prop
  | 0, _ => False
  | n + 1, s => ∀ s₁, Prompted c u UIP_POLL s s₁ → ∃ s₂, uipclientAppcall s₁ c = some s₂ ∧
      if (s₁.allData u).packetsOut 0 = NOBLOCK then Finished c u s₂
      else Sends s₂ ∧ ∀ s₃, Prompted c u UIP_ACKDATA s₂ s₃ →
        ∃ s₄, uipclientAppcall s₃ c = some s₄ ∧ (Finished c u s₄ ∨ Completes c u n s₄)

theorem Closing.step {a : QueueCall} (hc : Closing c u hs s) (ha : Elsewhere c u a) (h : QueueStep s a s') :
    Closing c u hs s' ∧ s'.allData u = s.allData u := by
  obtain ⟨hdata, happ⟩ := h.elsewhere hc.sound.paired hc.appstate ha
  refine ⟨⟨h.sound hc.sound False.elim, happ.trans hc.appstate, ?_, ?_⟩, hdata⟩
  · rw [hdata]
    exact hc.close
  · rw [hdata]
    exact hc.queue

theorem Closing.prompted {flags : BitVec 8} (hc : Closing c u hs s) (h : Prompted c u flags s s') :
    Closing c u hs s' ∧ s'.allData u = s.allData u := by
  obtain ⟨es, hrun⟩ := h.elsewhere
  refine hrun.invariant (I := fun t => Closing c u hs t ∧ t.allData u = s.allData u) ?_ ⟨hc, rfl⟩
  rintro t a t' ⟨ht, hdata⟩ ⟨hstep, ha⟩
  obtain ⟨ht', hdata'⟩ := ht.step ha hstep
  exact ⟨ht', hdata'.trans hdata⟩

/-- A callback with these flags can come at once. -/
theorem Closing.prompts (hc : Closing c u hs s) (flags : BitVec 8) : Prompted c u flags s (UIPClient.prompted s flags 0 0) :=
  ⟨⟨_, .snoc .nil ⟨.others (prompted_beside hc.sound flags 0 0), trivial⟩⟩, rfl, rfl⟩

theorem Closing.serving (hc : Closing c u hs s) : Serving s c u := ⟨hc.sound.paired, hc.appstate⟩

theorem Closing.not_finished (hc : Closing c u hs s) : ¬Finished c u s :=
  fun h => Option.some_ne_none u (hc.appstate.symm.trans h.appstate)

theorem restart_close : has ((restart s c u).allData u).state UIP_CLIENT_CLOSE = has (s.allData u).state UIP_CLIENT_CLOSE := by
  rw [restart]
  split
  · exact (congrArg (fun d : Userdata => has d.state UIP_CLIENT_CLOSE) (setState_self s u _)).trans
      (Tables.has_clearFlag _ (by decide))
  · rfl

theorem Closing.restart (hc : Closing c u hs s) : Closing c u hs (restart s c u) := by
  have hserving := restart_serving hc.serving
  obtain ⟨state, hdata⟩ := restart_data (s := s) (c := c) (u := u)
  refine ⟨hc.sound.serves (restart_serves hc.sound.owned (hc.sound.tidy u)).toServes hserving.paired, hserving.entry, ?_, ?_⟩
  · rw [restart_close]
    exact hc.close
  · rw [hdata]
    exact hc.queue

/-- The callback serves the entry. -/
theorem Closing.appcall (hc : Closing c u hs s) : uipclientAppcall s c = serve s c u := by
  have hattach : attach s c = s := if_neg fun h => Option.some_ne_none u (hc.appstate.symm.trans h.1)
  simp only [uipclientAppcall, hattach, hc.appstate]

theorem Closing.offerable (hc : Closing c u hs s) (hne : hs ≠ []) :
    Offerable s u (MemoryPool.contents s.net.blocks s.net.ram ((s.allData u).packetsOut 0)) := by
  have hsends := hc.serving.sends
  obtain ⟨l, hl⟩ := (hc.sound.tidy u).outgoing hsends
  exact hl.offerable hc.sound.owned (hc.sound.tidy u).valid hsends (mt hc.queue.head_none.mp hne)

/-- A block that is not the last one always has bytes. -/
theorem Closing.sendLength (hc : Closing c u (h :: hs) s) : UIPClient.sendLength s u = 0 ↔ hs = [] ∧ (s.allData u).outPos = 0 := by
  have hone := hc.queue.none_iff 1
  have hlen : (h :: hs).length ≤ (1 : Fin UIP_SOCKET_NUMPACKETS).val ↔ hs = [] := by
    rw [← List.length_eq_zero_iff]
    exact ⟨fun h => Nat.le_zero.mp (Nat.le_of_succ_le_succ h), fun h => Nat.le_of_eq (congrArg (· + 1) h)⟩
  rw [hlen] at hone
  simp only [UIPClient.sendLength, hone]
  split
  · rename_i hnil
    exact ⟨fun hpos => ⟨hnil, hpos⟩, fun h => h.2⟩
  · rename_i hmore
    have hoffer := hc.offerable (List.cons_ne_nil h hs)
    refine ⟨fun h0 => absurd h0 ?_, fun h => absurd h.1 hmore⟩
    rw [hoffer.blockSize]
    exact Nat.ne_of_gt (view_pos hoffer.block)

-- ---------------------------------------------------------------------------
-- The callbacks of a round
-- ---------------------------------------------------------------------------

/-- Nothing is left to be sent. -/
theorem Closing.closing_finished (hc : Closing c u [] s) : Finished c u (finish (closing s c u) 0) := by
  have hempty : (s.allData u).packetsOut 0 = NOBLOCK := hc.queue.head_none.mpr rfl
  rw [closing, if_pos hc.close, if_pos hempty]
  have hself : (s.setState u 0).allData u = { s.allData u with state := 0 } := setState_self s u 0
  refine ⟨?_, ?_, fun i => ?_, ?_⟩
  · rw [finish_data]
    exact congrArg Userdata.state hself
  · rw [finish_conns]
    exact setAppstate_self none
  · rw [finish_data]
    exact (congrArg (fun d => d.packetsOut i) hself).trans (hc.queue.get i)
  · rw [finish_flags]
    exact (by decide : has UIP_CLOSE UIP_CLOSE)

/-- The sound state behind a callback. -/
theorem Closing.behind (hc : Closing c u hs s) (hcall : Called s) (h : uipclientAppcall s c = some s') {hs' : List Handle}
    (happ : (s'.uipConns c).appstate = some u) (hclose : has (s'.allData u).state UIP_CLIENT_CLOSE)
    (hqueue : Lists (s'.allData u).packetsOut hs') : Closing c u hs' s' :=
  ⟨appcall_sound hc.sound hcall False.elim h, happ, hclose, hqueue⟩

theorem Closing.poll_empty (hc : Closing c u [] s) (hflags : s.uip.uipFlags = UIP_POLL) :
    ∃ s', uipclientAppcall s c = some s' ∧ Finished c u s' := by
  refine ⟨_, ?_, hc.restart.closing_finished⟩
  rw [hc.appcall, serve_turn (.inl hflags)]
  exact if_neg fun h => h.2 (hc.restart.queue.head_none.mpr rfl)

/-- A poll leaves the queue as it is. -/
theorem Closing.poll (hc : Closing c u (h :: hs) s) (hflags : s.uip.uipFlags = UIP_POLL) (hat : AtPayload s) :
    ∃ s', uipclientAppcall s c = some s' ∧ Closing c u (h :: hs) s' ∧ (s'.allData u).outPos = (s.allData u).outPos ∧
      (Sends s' ↔ UIPClient.sendLength s u ≠ 0) := by
  have hr := hc.restart
  have hcall : Called s := by
    refine ⟨fun _ => hat, fun hnew => ?_⟩
    rw [hflags] at hnew
    exact absurd hnew (by decide)
  have hask : has (UIPClient.restart s c u).uip.uipFlags (UIP_POLL ||| UIP_REXMIT) := by
    rw [restart_flags (by decide), hflags]
    decide
  have hhead : ((UIPClient.restart s c u).allData u).packetsOut 0 ≠ NOBLOCK := mt hr.queue.head_none.mp (List.cons_ne_nil h hs)
  have hpos : ((UIPClient.restart s c u).allData u).outPos = (s.allData u).outPos := by
    obtain ⟨state, hdata⟩ := restart_data (s := s) (c := c) (u := u)
    rw [hdata]
  have hlen : UIPClient.sendLength (UIPClient.restart s c u) u = UIPClient.sendLength s u := restart_sendLength
  have hrun : uipclientAppcall s c = polled (UIPClient.restart s c u) c u := by
    rw [hc.appcall, serve_turn (.inl hflags)]
  have hat' : AtPayload (UIPClient.restart s c u) := restart_atPayload hat
  generalize UIPClient.restart s c u = r at hr hask hhead hpos hlen hrun hat'
  by_cases hbytes : UIPClient.sendLength r u = 0
  · have hpolled : polled r c u = some (finish r 0) := by
      rw [polled, if_pos ⟨hask, hhead⟩, offer, if_pos hbytes]
      rfl
    refine ⟨_, hrun.trans hpolled, hc.behind hcall (hrun.trans hpolled) ?_ ?_ ?_, ?_, ?_⟩
    · rw [finish_conns]
      exact hr.appstate
    · rw [finish_data]
      exact hr.close
    · rw [finish_data]
      exact hr.queue
    · rw [finish_data, hpos]
    · rw [← hlen, hbytes]
      exact ⟨fun h => absurd (finish_slen 0 (s := r) ▸ h.slen) (Nat.lt_irrefl 0), fun h => absurd rfl h⟩
  · obtain ⟨s₁, hpolled, hat₁, hprep⟩ := polled_ok (c := c) (hr.offerable (List.cons_ne_nil h hs)) hat' hask hbytes
    obtain ⟨net, hcut, -⟩ := cutHead_net r u
    obtain ⟨-, hconns, hdata, -, -⟩ := hprep.keeps
    rw [hcut] at hconns hdata
    have hdata' : ((s₁.setSlen (UIPClient.sendLength r u)).setLen (UIPClient.sendLength r u)).allData = r.allData := hdata
    have hconns' : ((s₁.setSlen (UIPClient.sendLength r u)).setLen (UIPClient.sendLength r u)).uipConns = r.uipConns := hconns
    refine ⟨_, hrun.trans hpolled, hc.behind hcall (hrun.trans hpolled) ?_ ?_ ?_, ?_, ?_⟩
    · rw [hconns']
      exact hr.appstate
    · rw [hdata']
      exact hr.close
    · rw [hdata']
      exact hr.queue
    · rw [hdata', hpos]
    · rw [← hlen]
      refine ⟨fun _ => hbytes, fun _ => ⟨Nat.pos_of_ne_zero hbytes, fun hne => ?_⟩⟩
      cases hprep with
      | refused _ _ => exact absurd rfl hne
      | copied _ _ _ _ _ =>
        have hset : ∀ x : BitVec 8, has (x ||| UIPETHERNET_SENDPACKET) UIPETHERNET_SENDPACKET := by decide
        exact hset _

/-- The callback for an acknowledgement alone. -/
theorem serve_acked (hflags : s.uip.uipFlags = UIP_ACKDATA) :
    serve s c u = (eatOut (restart s c u) u).bind fun s => some (finish (closing s c u) 0) := by
  have hnew : newdata s c u = some s := newdata_none (by rw [hflags]; decide)
  have hhas : ∀ {f : BitVec 8}, UIP_NEWDATA &&& f = 0 → has (restart s c u).uip.uipFlags f = has UIP_ACKDATA f := by
    intro f hf
    rw [restart_flags hf, hflags]
  have hended : ¬has (restart s c u).uip.uipFlags (UIP_CLOSE ||| UIP_TIMEDOUT) := by rw [hhas (by decide)]; decide
  have hacked : has (restart s c u).uip.uipFlags UIP_ACKDATA := by rw [hhas (by decide)]; decide
  have hask : ¬has (restart s c u).uip.uipFlags (UIP_POLL ||| UIP_REXMIT) := by rw [hhas (by decide)]; decide
  simp only [serve, hnew, Option.bind_eq_bind, Option.bind_some]
  rw [if_neg hended, acked, if_pos hacked]
  cases heat : eatOut (restart s c u) u with
  | none => rfl
  | some e =>
    rw [← eatOut_uip heat] at hask
    exact if_neg fun h => hask h.1

theorem Closing.eaten (hc : Closing c u (h :: hs) s) :
    ∃ e, eatOut s u = some e ∧ Closing c u hs e ∧ (e.allData u).outPos = (s.allData u).outPos := by
  obtain ⟨net, hfree, -, -⟩ := freeBlock_ok (hc.sound.tidy u).valid ((s.allData u).packetsOut 0)
  have heat : eatOut s u = some ((s.setNet net).setPacketsOut u (shift (s.allData u).packetsOut)) := by
    simp only [eatOut, eatBlock, hfree, Option.bind_eq_bind, Option.bind_some, Option.pure_def]
  have hself : ((s.setNet net).setPacketsOut u (shift (s.allData u).packetsOut)).allData u =
      { s.allData u with packetsOut := shift (s.allData u).packetsOut } := setPacketsOut_self ..
  refine ⟨_, heat, ⟨?_, hc.appstate, ?_, ?_⟩, ?_⟩
  · exact hc.sound.serves (eatOut_serves hc.sound.owned (hc.sound.tidy u) hc.serving.sends heat)
      (eatOut_ok heat ▸ hc.sound.paired)
  · rw [hself]
    exact hc.close
  · rw [hself]
    exact hc.queue.shift
  · rw [hself]

/-- The acknowledgement frees the head block. -/
theorem Closing.ack (hc : Closing c u (h :: hs) s) (hflags : s.uip.uipFlags = UIP_ACKDATA) :
    ∃ s', uipclientAppcall s c = some s' ∧ (hs = [] → Finished c u s') ∧
      (hs ≠ [] → Closing c u hs s' ∧ (s'.allData u).outPos = (s.allData u).outPos) := by
  have hcall : Called s := by
    refine ⟨fun hask => ?_, fun hnew => ?_⟩
    · rw [hflags] at hask
      exact absurd hask (by decide)
    · rw [hflags] at hnew
      exact absurd hnew (by decide)
  obtain ⟨state, hdata⟩ := restart_data (s := s) (c := c) (u := u)
  obtain ⟨e, heat, he, hpos⟩ := hc.restart.eaten
  have hrun : uipclientAppcall s c = some (finish (closing e c u) 0) := by
    rw [hc.appcall, serve_acked hflags, heat]
    rfl
  refine ⟨_, hrun, ?_, fun hne => ?_⟩
  · rintro rfl
    exact he.closing_finished
  · have hmore : (e.allData u).packetsOut 0 ≠ NOBLOCK := mt he.queue.head_none.mp hne
    have hstop : closing e c u = e.uipStop c := by rw [closing, if_pos he.close, if_neg hmore]
    rw [hstop] at hrun ⊢
    have happ : ((e.uipStop c).uipConns c).appstate = some u := by
      rw [uipStop, mapConn_self]
      exact he.appstate
    refine ⟨hc.behind hcall hrun ?_ ?_ ?_, ?_⟩
    · rwa [finish_conns]
    · rw [finish_data]
      exact he.close
    · rw [finish_data]
      exact he.queue
    · rw [finish_data]
      exact hpos.trans (by rw [hdata])

-- ---------------------------------------------------------------------------
-- The rounds
-- ---------------------------------------------------------------------------

/-- The last block is never empty. -/
theorem Closing.completes (hc : Closing c u hs s) (hn : hs.length ≤ n) (hpos : 0 < n) :
    Completes c u n s ↔ hs = [] ∨ (s.allData u).outPos ≠ 0 := by
  induction n generalizing hs s with
  | zero => exact absurd hpos (Nat.lt_irrefl 0)
  | succ n ih =>
    cases hs with
    | nil =>
      refine ⟨fun _ => .inl rfl, fun _ s₁ hprompt => ?_⟩
      obtain ⟨hc₁, -⟩ := hc.prompted hprompt
      obtain ⟨s₂, hcall, hfinished⟩ := hc₁.poll_empty hprompt.flags
      exact ⟨s₂, hcall, by rwa [if_pos (hc₁.queue.head_none.mpr rfl)]⟩
    | cons h hs =>
      have hlen : hs.length ≤ n := Nat.le_of_succ_le_succ hn
      have hrest : ∀ {t : System}, Closing c u hs t → hs ≠ [] →
          (Completes c u n t ↔ hs = [] ∨ (t.allData u).outPos ≠ 0) := by
        intro t ht hne
        exact ih ht hlen (Nat.lt_of_lt_of_le (List.length_pos_of_ne_nil hne) hlen)
      constructor
      · intro hall
        have hprompt := hc.prompts UIP_POLL
        obtain ⟨s₂, hcall, hround⟩ := hall _ hprompt
        obtain ⟨hc₁, hdata₁⟩ := hc.prompted hprompt
        rw [if_neg (mt hc₁.queue.head_none.mp (List.cons_ne_nil h hs))] at hround
        obtain ⟨s₂', hcall', hc₂, hpos₂, hsends⟩ := hc₁.poll hprompt.flags hprompt.payload
        obtain rfl := Option.some.inj (hcall.symm.trans hcall')
        by_cases hlast : hs = []
        · refine .inr fun h0 => hsends.mp hround.1 (hc₁.sendLength.mpr ⟨hlast, ?_⟩)
          rw [hdata₁, h0]
        · have hack := hc₂.prompts UIP_ACKDATA
          obtain ⟨s₄, hcall₄, hleft⟩ := hround.2 _ hack
          obtain ⟨hc₃, hdata₃⟩ := hc₂.prompted hack
          obtain ⟨s₄', hcall₄', -, hmore⟩ := hc₃.ack hack.flags
          obtain rfl := Option.some.inj (hcall₄.symm.trans hcall₄')
          obtain ⟨hc₄, hpos₄⟩ := hmore hlast
          have hafter := (hrest hc₄ hlast).mp (hleft.resolve_left hc₄.not_finished)
          rw [hpos₄, hdata₃, hpos₂, hdata₁] at hafter
          exact .inr (hafter.resolve_left hlast)
      · intro hbytes s₁ hprompt
        have hne : (s.allData u).outPos ≠ 0 := hbytes.resolve_left (List.cons_ne_nil h hs)
        obtain ⟨hc₁, hdata₁⟩ := hc.prompted hprompt
        obtain ⟨s₂, hcall, hc₂, hpos₂, hsends⟩ := hc₁.poll hprompt.flags hprompt.payload
        refine ⟨s₂, hcall, ?_⟩
        rw [if_neg (mt hc₁.queue.head_none.mp (List.cons_ne_nil h hs))]
        refine ⟨hsends.mpr fun h0 => hne ?_, fun s₃ hack => ?_⟩
        · rw [← hdata₁]
          exact (hc₁.sendLength.mp h0).2
        · obtain ⟨hc₃, hdata₃⟩ := hc₂.prompted hack
          obtain ⟨s₄, hcall₄, hlast, hmore⟩ := hc₃.ack hack.flags
          refine ⟨s₄, hcall₄, ?_⟩
          by_cases hnil : hs = []
          · exact .inl (hlast hnil)
          · obtain ⟨hc₄, hpos₄⟩ := hmore hnil
            refine .inr ((hrest hc₄ hnil).mpr (.inr ?_))
            rwa [hpos₄, hdata₃, hpos₂, hdata₁]

-- ---------------------------------------------------------------------------
-- stop
-- ---------------------------------------------------------------------------

theorem flushBlocks_some {net : Enc28J60Network} (hv : net.Valid) (packets : Packets) : ∃ r, flushBlocks net packets = some r := by
  have hfold : ∀ (slots : List (Fin UIP_SOCKET_NUMPACKETS)) {net : Enc28J60Network}, net.Valid →
      ∃ net', slots.foldlM (fun net i => net.freeBlock (packets i)) net = some net' := by
    intro slots
    induction slots with
    | nil => exact fun _ => ⟨_, rfl⟩
    | cons i rest ih =>
      intro net hv
      obtain ⟨net₁, hfree, hch, -⟩ := freeBlock_ok hv (packets i)
      obtain ⟨net', hrest⟩ := ih hch.valid
      exact ⟨net', by rw [List.foldlM_cons, hfree]; exact hrest⟩
  obtain ⟨net', h⟩ := hfold _ hv
  exact ⟨_, by rw [flushBlocks, h]; rfl⟩

theorem stop_closing (hsound : Sound False s) (happ : (s.uipConns c).appstate = some u) :
    ∃ s' hs, stop s (some u) = some s' ∧ Closing c u hs s' ∧ (s'.allData u).packetsOut = (s.allData u).packetsOut ∧
      (s'.allData u).outPos = (s.allData u).outPos := by
  have hserving : Serving s c u := ⟨hsound.paired, happ⟩
  obtain ⟨hs, hl⟩ := (hsound.tidy u).outgoing hserving.sends
  obtain ⟨hne, hremote⟩ := sends_iff.mp hserving.sends
  obtain ⟨⟨net, block⟩, hflush⟩ := flushBlocks_some (hsound.tidy u).valid (s.allData u).packetsIn
  have hin : flushIn s u = some ((s.setNet net).setPacketsIn u block) := by
    simp only [flushIn, hflush, Option.bind_eq_bind, Option.bind_some, Option.pure_def]
  have hself : ((s.setNet net).setPacketsIn u block).allData u = { s.allData u with packetsIn := block } :=
    setPacketsIn_self ..
  have hstate : (((s.setNet net).setPacketsIn u block).allData u).state = (s.allData u).state := by rw [hself]
  have hrun : stop s (some u) = some (((s.setNet net).setPacketsIn u block).setState u
      ((s.allData u).state ||| UIP_CLIENT_CLOSE)) := by
    simp only [stop, if_neg hne, hin, Option.bind_eq_bind, Option.bind_some, Option.pure_def, hstate, if_neg hremote]
  have hdata : (((s.setNet net).setPacketsIn u block).setState u ((s.allData u).state ||| UIP_CLIENT_CLOSE)).allData u =
      { s.allData u with packetsIn := block, state := (s.allData u).state ||| UIP_CLIENT_CLOSE } := by
    rw [setState_self, hself]
  have hset : ∀ x : BitVec 8, has (x ||| UIP_CLIENT_CLOSE) UIP_CLIENT_CLOSE := by decide
  refine ⟨_, hs, hrun, ⟨(QueueStep.stop hrun).sound hsound False.elim, happ, ?_, ?_⟩, ?_, ?_⟩
  · rw [hdata]
    exact hset _
  · rw [hdata]
    exact hl.toLists
  · rw [hdata]
  · rw [hdata]

/-- Behind `stop` five rounds are enough exactly if the last block of
`packets_out` holds a byte. -/
theorem stop_completes {ram : Nat → Byte} {transmissions : List Transmission} {mac : List Byte} {now : BitVec 32}
    {es : List QueueCall} (hrun : Run QueueStep (System.init ram transmissions mac now) es s)
    (happ : (s.uipConns c).appstate = some u) : ∃ s', stop s (some u) = some s' ∧
      (Completes c u UIP_SOCKET_NUMPACKETS s' ↔ (s.allData u).packetsOut 0 = NOBLOCK ∨ (s.allData u).outPos ≠ 0) := by
  have hsound : Sound False s := hrun.invariant (fun hs h => h.sound hs False.elim) (init_sound _ _ _ _)
  obtain ⟨s', hs, hstop, hc, hout, hpos⟩ := stop_closing hsound happ
  refine ⟨s', hstop, ?_⟩
  rw [hc.completes hc.queue.length (by decide), ← hc.queue.head_none, hout, hpos]

/-- A connection with its entry, and a write to it. -/
theorem attach_write_run {r : Attempt} {now : BitVec 32} {buf : List Byte}
    (hcall : uipclientAppcall (UIPClient.prompted (System.init (fun _ => 0) [] [] 0) UIP_CONNECTED 0 0) 0 = some s)
    (hwrite : attempt s (some 0) now buf = some (s', r)) :
    Run QueueStep (System.init (fun _ => 0) [] [] 0) [.others, .appcall 0, .write 0 now buf] s' := by
  have hs : Sound False (System.init (fun _ => 0) [] [] 0) := init_sound _ _ _ _
  exact .snoc (.snoc (.snoc .nil (.others (prompted_beside hs UIP_CONNECTED 0 0))) (.appcall (prompted_called _ _ _) hcall))
    (.write hwrite)

/-- A byte is sent before the connection is closed. -/
theorem stop_completes_example : ∃ (es : List QueueCall) (s s' : System),
    Run QueueStep (System.init (fun _ => 0) [] [] 0) es s ∧ (s.allData 0).packetsOut 0 ≠ NOBLOCK ∧
    stop s (some 0) = some s' ∧ Completes 0 0 UIP_SOCKET_NUMPACKETS s' := by
  have hcompute : ((uipclientAppcall (UIPClient.prompted (System.init (fun _ => 0) [] [] 0) UIP_CONNECTED 0 0) 0).bind fun s =>
      (attempt s (some 0) 0 [7]).map fun x => decide ((x.1.uipConns 0).appstate = some 0 ∧
        (x.1.allData 0).packetsOut 0 ≠ NOBLOCK ∧ (x.1.allData 0).outPos ≠ 0)) = some true := by
    decide +kernel
  obtain ⟨s₁, hcall, hcompute⟩ := Option.bind_eq_some_iff.mp hcompute
  obtain ⟨⟨s, r⟩, hwrite, hcompute⟩ := Option.map_eq_some_iff.mp hcompute
  obtain ⟨happ, hout, hpos⟩ := of_decide_eq_true hcompute
  have hrun := attach_write_run hcall hwrite
  obtain ⟨s', hstop, hiff⟩ := stop_completes hrun happ
  exact ⟨_, s, s', hrun, hout, hstop, hiff.mpr (.inr hpos)⟩

/-- A write of no bytes takes a block that is never sent. -/
theorem empty_write_stays : ∃ (es : List QueueCall) (s s' : System),
    Run QueueStep (System.init (fun _ => 0) [] [] 0) es s ∧ (s.uipConns 0).appstate = some 0 ∧
    stop s (some 0) = some s' ∧ ¬Completes 0 0 UIP_SOCKET_NUMPACKETS s' := by
  have hcompute : ((uipclientAppcall (UIPClient.prompted (System.init (fun _ => 0) [] [] 0) UIP_CONNECTED 0 0) 0).bind fun s =>
      (attempt s (some 0) 0 []).map fun x => decide ((x.1.uipConns 0).appstate = some 0 ∧
        (x.1.allData 0).packetsOut 0 ≠ NOBLOCK ∧ (x.1.allData 0).outPos = 0)) = some true := by
    decide +kernel
  obtain ⟨s₁, hcall, hcompute⟩ := Option.bind_eq_some_iff.mp hcompute
  obtain ⟨⟨s, r⟩, hwrite, hcompute⟩ := Option.map_eq_some_iff.mp hcompute
  obtain ⟨happ, hout, hpos⟩ := of_decide_eq_true hcompute
  have hrun := attach_write_run hcall hwrite
  have hsound : Sound False s := hrun.invariant (fun hs h => h.sound hs False.elim) (init_sound _ _ _ _)
  obtain ⟨s', hs, hstop, hc, hout', hpos'⟩ := stop_closing hsound happ
  refine ⟨_, s, s', hrun, happ, hstop, fun hall => ?_⟩
  rcases (hc.completes hc.queue.length (by decide)).mp hall with hnil | hne
  · rw [← hc.queue.head_none, hout'] at hnil
    exact hout hnil
  · rw [hpos'] at hne
    exact hne hpos

end UIPClient

end UIPEthernet
