import UIPEthernet.UIPClient.SendQueue

/-!
# The queues of the attached entries

A run is made of callbacks with any flags and any payload, of attempts of
`_write`, of the other calls, and of whatever the rest of the system does beside
the entries and their blocks.
-/

namespace UIPEthernet

open Lib Enc28J60Network

namespace UIPClient

open UIPEthernet.System Slot

/-- What the rest of the system does: it leaves the entries alone, and their
blocks. -/
structure Beside (s s' : System) : Prop where
  valid : s'.net.Valid
  owned : s'.Owned
  entries : s'.allData = s.allData
  appstate : ∀ c, (s'.uipConns c).appstate = (s.uipConns c).appstate
  views : ∀ x : Slot, x.ofTcp → s.own x ≠ NOBLOCK → s'.net.view (s.own x) = s.net.view (s.own x)
  written : ∀ u h, writtenTo u h s'.history = writtenTo u h s.history

inductive QueueCall
  | others
  | appcall (c : Fin UIP_CONNS)
  /-- An attempt of `_write`; what `tick` does before the next one are other steps. -/
  | write (u : Fin UIP_CONNS) (now : BitVec 32) (buf : List Byte)
  | read (u : Fin UIP_CONNS) (size : Nat)
  | flush (u : Fin UIP_CONNS)
  | stop (u : Fin UIP_CONNS)

inductive QueueStep (s : System) : QueueCall → System → Prop
  | others (h : Beside s s') : QueueStep s .others s'
  | appcall (hcall : Called s) (h : uipclientAppcall s c = some s') : QueueStep s (.appcall c) s'
  | write (h : attempt s (some u) now buf = some (s', r)) : QueueStep s (.write u now buf) s'
  | read (h : UIPClient.read s (some u) size = some (s', client, bytes)) : QueueStep s (.read u size) s'
  | flush (h : UIPClient.flush s (some u) = some s') : QueueStep s (.flush u) s'
  | stop (h : UIPClient.stop s (some u) = some s') : QueueStep s (.stop u) s'

variable {clean : Prop} {s s' : System} {c u v : Fin UIP_CONNS} {hs : List Handle} {h : Handle}

-- ---------------------------------------------------------------------------
-- The calls
-- ---------------------------------------------------------------------------

/-- Bytes that are given to the sketch are not written. -/
theorem returned_serves (ho : s.Owned) (ht : Tidy clean u s) (data : List Byte) :
    ServesIn clean u s (s.record (.returned u h data)) := by
  obtain ⟨hs, hl⟩ := ht.incoming
  exact .aside ht (ho.aside rfl rfl rfl rfl) (fun _ _ => rfl) ht.valid ⟨hs, hl⟩ (fun hs' => ⟨hs', rfl, rfl⟩)
    (fun _ _ _ => ⟨rfl, fun _ => rfl⟩) fun _ _ => rfl

theorem readBlock_serves {empty : Bool} (ho : s.Owned) (ht : Tidy clean u s) (hne : (s.allData u).state ≠ 0)
    (h : readBlock s u = some (s', empty)) : ServesIn clean u s s' := by
  simp only [readBlock, Option.bind_eq_bind, Option.pure_def] at h
  obtain ⟨s₁, heat, h⟩ := Option.bind_eq_some_iff.mp h
  cases h
  have h₁ := eatIn_serves ho ht heat
  have hstate : (s₁.allData u).state = (s.allData u).state := congrArg (fun t => t.state u) (eatIn_ok heat)
  split
  · exact h₁.trans (setState_serves h₁.owned h₁.tidy fun hs =>
      sends_iff.mpr ⟨hstate ▸ hne, sends_set _ _ (.inr rfl) hs.2⟩)
  · exact h₁

/-- The rest of a block stays where it is. -/
theorem resizeBlock_serves {remain : Nat} (ho : s.Owned) (ht : Tidy clean u s) (hin : (s.allData u).packetsIn 0 ≠ NOBLOCK)
    (hrest : (s.net.readPacket ((s.allData u).packetsIn 0) 0 remain).length ≠ s.net.blockSize ((s.allData u).packetsIn 0)) :
    ServesIn clean u s (s.setNet (s.net.resizeBlock ((s.allData u).packetsIn 0)
      (s.net.readPacket ((s.allData u).packetsIn 0) 0 remain).length)) := by
  have hkeeps : Keeps (ofEntry u) s (s.setNet (s.net.resizeBlock ((s.allData u).packetsIn 0)
      (s.net.readPacket ((s.allData u).packetsIn 0) 0 remain).length)) :=
    ho.read_rest (x := .packetsIn u 0) rfl hin rfl hrest
  have hheld : ∃ bytes, s.net.view ((s.allData u).packetsIn 0) = some bytes :=
    ⟨_, view_some.mpr ⟨ho.block (x := .packetsIn u 0) hin, rfl⟩⟩
  obtain ⟨bytes, hview⟩ := hheld
  have hslot : ∀ x : Slot, s.own x ≠ NOBLOCK → s.own x = (s.allData u).packetsIn 0 → x = .packetsIn u 0 :=
    fun x hne he => ho.distinct hne he
  generalize (s.allData u).packetsIn 0 = b at hrest hkeeps hview hslot
  rw [readPacket_ok ht.valid hview (Nat.zero_le _), blockSize_eq (.inr hview)] at hrest
  have hread : s.net.readPacket b 0 remain = (bytes.drop 0).take remain := readPacket_ok ht.valid hview (Nat.zero_le _)
  rw [List.drop_zero, List.length_take] at hrest
  have hlt : (s.net.readPacket b 0 remain).length < bytes.length := by
    rw [hread, List.drop_zero, List.length_take]
    omega
  have hch := resizeBlock_ok ht.valid hview hlt
  obtain ⟨l, hl⟩ := ht.incoming
  refine .aside ht hkeeps (fun _ _ => rfl) hch.valid ⟨l, hl⟩ (fun hs' => ⟨hs', rfl, rfl⟩) (fun x hx hne => ?_) fun _ _ => rfl
  have hsame : (s.net.resizeBlock b (s.net.readPacket b 0 remain).length).view (s.own x) = s.net.view (s.own x) := by
    rw [hch.view, Function.update_of_ne]
    exact fun he => hx 0 (hslot x hne he)
  exact ⟨size_of_view (ho.block hne) hsame, fun _ => hsame⟩

theorem readLoop_serves {fuel remain : Nat} {client : Option (Fin UIP_CONNS)} {bytes : List Byte} (hp : s.tables.Paired)
    (ho : s.Owned) (ht : Tidy clean u s) (hin : s.tables.packetsIn u 0 ≠ NOBLOCK)
    (h : readLoop u fuel remain s = some (s', client, bytes)) : ServesIn clean u s s' := by
  induction fuel generalizing s remain client bytes with
  | zero => cases h
  | succ fuel ih =>
    simp only [readLoop, Option.bind_eq_bind, Option.pure_def] at h
    have h₀ : ServesIn clean u s _ := returned_serves (h := (s.allData u).packetsIn 0) ho ht
      (s.net.readPacket ((s.allData u).packetsIn 0) 0 remain)
    generalize hrec : s.record _ = s₀ at h h₀
    have hp₀ : s₀.tables.Paired := hrec ▸ hp
    have hin₀ : s₀.tables.packetsIn u 0 ≠ NOBLOCK := hrec ▸ hin
    split at h
    · obtain ⟨⟨s₁, empty⟩, hblock, h⟩ := Option.bind_eq_some_iff.mp h
      obtain ⟨hp₁, hempty⟩ := readBlock_ok hp₀ hin₀ hblock
      have hne : (s₀.allData u).state ≠ 0 := fun h0 => hin₀ (hp₀.empty u (.inl h0))
      have h₁ := h₀.trans (readBlock_serves h₀.owned h₀.tidy hne hblock)
      simp only at h
      split at h
      · split at h
        · cases h
          exact h₁.trans (setState_serves h₁.owned h₁.tidy fun hs => absurd rfl hs.1)
        · cases h
          exact h₁
      · rename_i he
        split at h
        · obtain ⟨⟨s₂, client₂, rest⟩, hrest, h⟩ := Option.bind_eq_some_iff.mp h
          cases h
          exact h₁.trans (ih hp₁ h₁.owned h₁.tidy (fun h0 => he (hempty.mpr h0)) hrest)
        · cases h
          exact h₁
    · rename_i hrest
      cases h
      subst hrec
      exact h₀.trans (resizeBlock_serves h₀.owned h₀.tidy hin₀ hrest)

theorem read_serves {size : Nat} {client : Option (Fin UIP_CONNS)} {bytes : Option (List Byte)} (hp : s.tables.Paired)
    (ho : s.Owned) (ht : Tidy clean u s) (h : read s (some u) size = some (s', client, bytes)) : ServesIn clean u s s' := by
  simp only [read, Option.bind_eq_bind, Option.pure_def] at h
  split at h
  · split at h
    · cases h
      exact .refl ho ht
    · rename_i hin
      obtain ⟨⟨s₁, client', bytes'⟩, hloop, h⟩ := Option.bind_eq_some_iff.mp h
      cases h
      exact readLoop_serves hp ho ht hin hloop
  · cases h
    exact .refl ho ht

theorem flush_serves (ho : s.Owned) (ht : Tidy clean u s) (h : flush s (some u) = some s') : ServesIn clean u s s' := by
  simp only [flush] at h
  split at h
  · exact flushIn_serves ho ht h
  · cases h
    exact .refl ho ht

theorem stop_serves (ho : s.Owned) (ht : Tidy clean u s) (h : stop s (some u) = some s') : ServesIn clean u s s' := by
  simp only [stop, Option.bind_eq_bind, Option.pure_def] at h
  split at h
  · cases h
    exact .refl ho ht
  · rename_i hne
    obtain ⟨s₁, hflush, h⟩ := Option.bind_eq_some_iff.mp h
    cases h
    have h₁ := flushIn_serves ho ht hflush
    have hstate : (s₁.allData u).state = (s.allData u).state := congrArg (fun t => t.state u) (flushIn_ok hflush)
    refine h₁.trans (setState_serves h₁.owned h₁.tidy fun hs => ?_)
    split at hs
    · exact absurd rfl hs.1
    · rename_i hr
      exact sends_iff.mpr ⟨hstate ▸ hne, hr⟩

-- ---------------------------------------------------------------------------
-- All entries
-- ---------------------------------------------------------------------------

/-- The invariant of the runs. -/
structure Sound (clean : Prop) (s : System) : Prop where
  paired : s.tables.Paired
  owned : s.Owned
  tidy : ∀ u, Tidy clean u s

theorem Serves.others (h : Serves clean u s s') (hv : v ≠ u) (ht : Tidy clean v s) : Tidy clean v s' := by
  refine ⟨h.tidy.valid, ?_, fun hs' => ?_⟩
  · rw [h.entries v hv]
    exact ht.incoming
  · rw [h.entries v hv] at hs'
    obtain ⟨l, hl⟩ := ht.outgoing hs'
    refine ⟨l, hl.congr (by rw [h.entries v hv]) (by rw [h.entries v hv]) (fun j hj => ?_) (h.written v hv)⟩
    obtain ⟨i, rfl, hne⟩ := hl.mem_own hs' hj
    have hother : ¬(Slot.packetsOut v i).ofEntry u := fun he => hv he
    exact ⟨h.size _ hother hne, fun hc => h.views hc _ hother hne⟩

theorem Sound.serves (hs : Sound clean s) (h : Serves clean u s s') (hp : s'.tables.Paired) : Sound clean s' := by
  refine ⟨hp, h.owned, fun v => ?_⟩
  by_cases hv : v = u
  · rw [hv]
    exact h.tidy
  · exact h.others hv (hs.tidy v)

/-- A new entry has nothing in its queues. -/
theorem attach_serves (hs : Sound clean s) :
    attach s c = s ∨ ∃ v, (s.allData v).state = 0 ∧ Serves clean v s (attach s c) := by
  rw [attach]
  split
  · split
    · exact .inl rfl
    · rename_i s₁ v halloc
      refine .inr ⟨v, ?_⟩
      simp only [allocateData] at halloc
      split at halloc
      · cases halloc
      · rename_i hfind
        cases halloc
        have hfree := List.find?_some hfind
        refine ⟨of_decide_eq_true hfree, ?_⟩
        let d : Userdata := ⟨BitVec.ofNat 8 v ||| UIP_CLIENT_CONNECTED, fun _ => NOBLOCK, fun _ => NOBLOCK, 0, 0⟩
        have hdrop := hs.owned.entry_dropped (u := v) (d := d) (fun _ hi => absurd rfl hi) fun _ _ hi => absurd rfl hi
        have hself : (s.setData v d).allData v = d := Function.update_self ..
        have hkeeps : Keeps (ofEntry v) s (((s.setData v d).setAppstate c v).record (.attached c v)) :=
          hdrop.trans ⟨hdrop.owned.same (fun _ => rfl) fun _ _ => rfl, rfl⟩
        refine ⟨hkeeps, ⟨(hs.tidy v).valid, ⟨[], ?_⟩, fun _ => ⟨[], .none ?_⟩⟩, fun w hw => Function.update_of_ne hw _ _,
          fun _ _ _ _ => rfl, fun _ _ _ => rfl⟩
        · exact hself.symm ▸ Lists.empty
        · exact hself.symm ▸ Lists.empty
  · exact .inl rfl

theorem attach_sound (hs : Sound clean s) : Sound clean (attach s c) := by
  rcases attach_serves (c := c) hs with hsame | ⟨v, -, h⟩
  · rwa [hsame]
  · exact hs.serves h (attach_paired hs.paired)

theorem attach_beside : (attach s c).net = s.net ∧ (attach s c).inPacket = s.inPacket := by
  rw [attach]
  split
  · split
    · exact ⟨rfl, rfl⟩
    · rename_i s₁ v halloc
      simp only [allocateData] at halloc
      split at halloc <;> cases halloc
      exact ⟨rfl, rfl⟩
  · exact ⟨rfl, rfl⟩

/-- A segment that the callback stores lies in one piece. -/
def Uncut (s : System) (c : Fin UIP_CONNS) : Prop :=
  ∀ u, ((attach s c).uipConns c).appstate = some u → Stores (attach s c) u → OnePiece s

theorem attach_called (hcall : Called s) : Called (attach s c) := by
  have huip : (attach s c).uip = s.uip := attach_uip
  refine ⟨?_, ?_⟩
  · rw [AtPayload, huip]
    exact hcall.payload
  · rw [huip, (attach_beside (s := s) (c := c)).2]
    exact hcall.frame

theorem attach_piece (huncut : Uncut s c) (happ : ((attach s c).uipConns c).appstate = some u) (hstores : Stores (attach s c) u) :
    OnePiece (attach s c) := by
  rw [OnePiece, (attach_beside (s := s) (c := c)).1, attach_uip]
  exact huncut u happ hstores

theorem appcall_sound (hs : Sound clean s) (hcall : Called s) (huncut : clean → Uncut s c) (h : uipclientAppcall s c = some s') :
    Sound clean s' := by
  have hpaired : s'.tables.Paired := appcall_paired hs.paired h
  have h₁ : Sound clean (attach s c) := attach_sound hs
  have hcall₁ : Called (attach s c) := attach_called hcall
  simp only [uipclientAppcall] at h
  split at h
  · cases h
    exact h₁.serves (finish_serves (u := 0) h₁.owned (h₁.tidy 0) 0).toServes hpaired
  · rename_i u happ
    exact h₁.serves (serve_serves ⟨h₁.paired, happ⟩ h₁.owned (h₁.tidy u) hcall₁ (fun hc => attach_piece (huncut hc) happ) h) hpaired

theorem Sound.beside (hs : Sound clean s) (h : Beside s s') : Sound clean s' := by
  have htables : s'.tables = s.tables := by
    simp only [tables, h.entries, h.appstate]
  refine ⟨htables ▸ hs.paired, h.owned, fun u => ⟨h.valid, ?_, fun hs' => ?_⟩⟩
  · rw [h.entries]
    exact (hs.tidy u).incoming
  · rw [h.entries] at hs'
    obtain ⟨l, hl⟩ := (hs.tidy u).outgoing hs'
    refine ⟨l, hl.congr (by rw [h.entries]) (by rw [h.entries]) (fun j hj => ?_) (h.written u)⟩
    obtain ⟨i, rfl, hne⟩ := hl.mem_own hs' hj
    have hview := h.views (.packetsOut u i) trivial hne
    exact ⟨size_of_view (hs.owned.block hne) hview, fun _ => hview⟩

-- ---------------------------------------------------------------------------
-- Runs
-- ---------------------------------------------------------------------------

/-- The entry is that of a connection. -/
def Attached (s : System) (u : Fin UIP_CONNS) : Prop := ∃ c, (s.uipConns c).appstate = some u

/-- What is written is written to the entry of a connection. -/
def OnAttached (s : System) : QueueCall → Prop
  | .write u _ _ => Attached s u
  | _ => True

/-- A segment that is stored does not lie across the end of the ring. -/
def StoresWhole (s : System) : QueueCall → Prop
  | .appcall c => Uncut s c
  | _ => True

theorem QueueStep.sound {a : QueueCall} (hs : Sound clean s) (hcareful : clean → OnAttached s a ∧ StoresWhole s a) (h : QueueStep s a s') :
    Sound clean s' := by
  cases h with
  | others h => exact hs.beside h
  | appcall hcall h => exact appcall_sound hs hcall (fun hc => (hcareful hc).2) h
  | @write u now buf r s' h =>
    have hsends : clean → (s.allData u).sends := fun hc => by
      obtain ⟨c, happ⟩ := (hcareful hc).1
      have hserving : Serving s c u := ⟨hs.paired, happ⟩
      exact hserving.sends
    refine hs.serves (attempt_serves hs.owned (hs.tidy u) hsends h) ?_
    rw [attempt_tables h]
    exact hs.paired
  | read h => exact hs.serves (read_serves hs.paired hs.owned (hs.tidy _) h).toServes (read_paired hs.paired h)
  | flush h => exact hs.serves (flush_serves hs.owned (hs.tidy _) h).toServes (flush_paired hs.paired h)
  | stop h => exact hs.serves (stop_serves hs.owned (hs.tidy _) h).toServes (stop_paired hs.paired h)

theorem init_sound (ram : Nat → Byte) (transmissions : List Transmission) (mac : List Byte) (now : BitVec 32) :
    Sound clean (System.init ram transmissions mac now) := by
  have hnone : ∀ x, (System.init ram transmissions mac now).own x = NOBLOCK := by
    intro x
    cases x <;> rfl
  refine ⟨Tables.zero_paired, Holds.empty hnone, fun u => ⟨init_valid _ _, ⟨[], .empty⟩, fun hs' => ?_⟩⟩
  exact absurd hs' Bool.false_ne_true

/-- The handle in a slot of a queue. -/
def handle (s : System) : Slot → Handle
  | .packetsIn u i => (s.allData u).packetsIn i
  | .packetsOut u i => (s.allData u).packetsOut i
  | x => s.own x

/-- The queues of the attached entries; that the outgoing blocks before the last
are full of what has been written is up to `clean`. -/
structure PacketQueues (clean : Prop) (s : System) : Prop where
  incoming : ∀ u, Attached s u → ∃ hs, Lists (s.allData u).packetsIn hs
  outgoing : ∀ u, Attached s u → ∃ hs, Lists (s.allData u).packetsOut hs ∧
    (∀ h ∈ hs.getLast?, (s.allData u).outPos ≤ s.net.blockSize h) ∧
    (clean → ∀ h ∈ hs.dropLast, ∃ b, s.net.view h = some b ∧ b <:+ writtenTo u h s.history)
  live : ∀ u (x : Slot), Attached s u → x.ofEntry u → handle s x ≠ NOBLOCK → ∃ b, s.net.view (handle s x) = some b
  distinct : ∀ u v (x y : Slot), Attached s u → Attached s v → x.ofEntry u → y.ofEntry v → handle s x ≠ NOBLOCK →
    handle s x = handle s y → x = y

theorem Attached.sends (hs : Sound clean s) (hu : Attached s u) : (s.allData u).sends := by
  obtain ⟨c, happ⟩ := hu
  have hserving : Serving s c u := ⟨hs.paired, happ⟩
  exact hserving.sends

theorem Attached.handle {x : Slot} (hs : Sound clean s) (hu : Attached s u) (hx : x.ofEntry u) : UIPClient.handle s x = s.own x := by
  cases x with
  | packetsOut v i =>
    obtain rfl : v = u := hx
    exact (own_out i (hu.sends hs)).symm
  | _ => rfl

theorem Sound.queues (hs : Sound clean s) : PacketQueues clean s := by
  refine ⟨fun u _ => (hs.tidy u).incoming, fun u hu => ?_, fun u x hu hx hne => ?_, fun u v x y hu hv hx hy hne he => ?_⟩
  · have hsends := hu.sends hs
    obtain ⟨l, hl⟩ := (hs.tidy u).outgoing hsends
    refine ⟨l, hl.toLists, fun h hh => ?_, hl.full⟩
    obtain ⟨i, rfl, hne⟩ := hl.mem_own hsends (List.mem_of_getLast? hh)
    have hview := view_some.mpr ⟨hs.owned.block hne, rfl⟩
    rw [blockSize_eq (.inr hview), view_length hview]
    exact hl.pos _ hh
  · rw [hu.handle hs hx] at hne ⊢
    exact ⟨_, view_some.mpr ⟨hs.owned.block hne, rfl⟩⟩
  · rw [hu.handle hs hx] at hne he
    rw [hv.handle hs hy] at he
    exact hs.owned.distinct hne he

/-- What holds whatever the steps are. -/
theorem run_queues {ram : Nat → Byte} {transmissions : List Transmission} {mac : List Byte} {now : BitVec 32}
    {es : List QueueCall} (hrun : Run QueueStep (System.init ram transmissions mac now) es s) : PacketQueues False s := by
  have hs : Sound False s := hrun.invariant (fun hs h => h.sound hs False.elim) (init_sound _ _ _ _)
  exact hs.queues

/-- As long as attached entries only are written to, and no segment that is stored
lies across the end of the ring, the outgoing blocks before the last are full of
what has been written. -/
theorem packet_queues {ram : Nat → Byte} {transmissions : List Transmission} {mac : List Byte} {now : BitVec 32}
    {es : List QueueCall}
    (hrun : Run (fun s a s' => QueueStep s a s' ∧ OnAttached s a ∧ StoresWhole s a) (System.init ram transmissions mac now) es s) :
    PacketQueues True s := by
  have hs : Sound True s := hrun.invariant (fun hs h => h.1.sound hs fun _ => h.2) (init_sound _ _ _ _)
  exact hs.queues

/-- What a callback finds: `len` bytes of payload in a frame that starts in the
ring at `start`. -/
def prompted (s : System) (flags : BitVec 8) (start len : Nat) : System :=
  { s with
    net := { s.net with receivePkt := { s.net.receivePkt with begin := start } }
    uip := { s.uip with uipFlags := flags, uipLen := len, uipAppdata := UIP_IPTCPH_LEN + UIP_LLH_LEN }
    inPacket := UIP_RECEIVEBUFFERHANDLE }

theorem prompted_beside (hs : Sound clean s) (flags : BitVec 8) (start len : Nat) : Beside s (prompted s flags start len) := by
  have hkeeps : Keeps ofTcp s (prompted s flags start len) := hs.owned.aside rfl rfl rfl rfl
  exact ⟨(hs.tidy 0).valid, hkeeps.owned, rfl, fun _ => rfl, fun _ _ _ => rfl, fun _ _ => rfl⟩

theorem prompted_called (flags : BitVec 8) (start len : Nat) : Called (prompted s flags start len) :=
  ⟨fun _ => rfl, fun _ => rfl⟩

theorem Sound.prompted {flags : BitVec 8} {start len : Nat} (hs : Sound False s)
    (h : uipclientAppcall (UIPClient.prompted s flags start len) c = some s') : Sound False s' :=
  appcall_sound (hs.beside (prompted_beside hs _ _ _)) (prompted_called _ _ _) False.elim h

/-- A callback comes behind a run. -/
theorem prompted_run {P : System → QueueCall → Prop} {s₀ : System} {es : List QueueCall} {flags : BitVec 8} {start len : Nat}
    (hs : Sound clean s) (hrun : Run (fun s a s' => QueueStep s a s' ∧ P s a) s₀ es s) (hothers : P s .others)
    (hcall : P (prompted s flags start len) (.appcall c)) (h : uipclientAppcall (prompted s flags start len) c = some s') :
    Run (fun s a s' => QueueStep s a s' ∧ P s a) s₀ (es ++ [.others] ++ [.appcall c]) s' :=
  (hrun.snoc ⟨.others (prompted_beside hs _ _ _), hothers⟩).snoc ⟨.appcall (prompted_called _ _ _) h, hcall⟩

/-- A connection is set up, and what is written takes a block and a byte of the
next. -/
theorem packet_queues_example : ∃ (es : List QueueCall) (s : System),
    Run (fun s a s' => QueueStep s a s' ∧ OnAttached s a ∧ StoresWhole s a) (System.init (fun _ => 0) [] [] 0) es s ∧
    Attached s 0 ∧ (s.allData 0).packetsOut 1 ≠ NOBLOCK ∧ PacketQueues True s := by
  have hcompute : ((uipclientAppcall (prompted (System.init (fun _ => 0) [] [] 0) UIP_CONNECTED 0 0) 0).bind fun s₁ =>
      (attempt s₁ (some 0) 0 (List.replicate 513 1)).map fun x => decide ((s₁.uipConns 0).appstate = some 0 ∧
      (x.1.uipConns 0).appstate = some 0 ∧ (x.1.allData 0).packetsOut 1 ≠ NOBLOCK)) = some true := by
    decide +kernel
  have hs₀ : Sound True (System.init (fun _ => 0) [] [] 0) := init_sound _ _ _ _
  obtain ⟨s₁, hcall, hcompute⟩ := Option.bind_eq_some_iff.mp hcompute
  obtain ⟨⟨s₂, r⟩, hwrite, hcompute⟩ := Option.map_eq_some_iff.mp hcompute
  obtain ⟨hattached, happ, hsecond⟩ := of_decide_eq_true hcompute
  have hwhole : Uncut (prompted (System.init (fun _ => 0) [] [] 0) UIP_CONNECTED 0 0) 0 := by
    rintro u - ⟨hnew, -⟩
    rw [attach_uip] at hnew
    exact absurd hnew (by decide)
  have hstart : Run (fun s a s' => QueueStep s a s' ∧ OnAttached s a ∧ StoresWhole s a) (System.init (fun _ => 0) [] [] 0) []
      (System.init (fun _ => 0) [] [] 0) := .nil
  have hrun := (prompted_run (P := fun s a => OnAttached s a ∧ StoresWhole s a) hs₀ hstart ⟨trivial, trivial⟩
    ⟨trivial, hwhole⟩ hcall).snoc ⟨.write hwrite, ⟨0, hattached⟩, trivial⟩
  exact ⟨_, s₂, hrun, ⟨0, happ⟩, hsecond, packet_queues hrun⟩

/-- Two bytes are received, one is written and offered, and the two are read.
Their block is given to two bytes that lie across the end of the ring. The copy
writes a third one, into the first outgoing block. -/
theorem wrapped_segment : ∃ (es : List QueueCall) (s : System),
    Run (fun s a s' => QueueStep s a s' ∧ OnAttached s a) (System.init (fun _ => 0) [] [] 0) es s ∧ ¬PacketQueues True s := by
  have hcompute : ((uipclientAppcall (prompted (System.init (fun _ => 0) [] [] 0) UIP_CONNECTED 0 0) 0).bind fun s₁ =>
      (uipclientAppcall (prompted s₁ UIP_NEWDATA 0 2) 0).bind fun s₂ =>
      (attempt s₂ (some 0) 0 [7]).bind fun x₃ => (uipclientAppcall (prompted x₃.1 UIP_POLL 0 0) 0).bind fun s₄ =>
      (UIPClient.read s₄ (some 0) 2).bind fun x₅ => (attempt x₅.1 (some 0) 0 [8]).bind fun x₆ =>
      (uipclientAppcall (prompted x₆.1 UIP_NEWDATA 1993 2) 0).map fun s => decide ((s₂.uipConns 0).appstate = some 0 ∧
        (s₄.uipConns 0).appstate = some 0 ∧ (x₅.1.uipConns 0).appstate = some 0 ∧ (s.uipConns 0).appstate = some 0 ∧
        (s.allData 0).packetsOut 0 = 2 ∧ (s.allData 0).packetsOut 1 ≠ NOBLOCK ∧
        ¬(MemoryPool.contents s.net.blocks s.net.ram 2 <:+ writtenTo 0 2 s.history))) = some true := by
    decide +kernel
  have hs₀ : Sound False (System.init (fun _ => 0) [] [] 0) := init_sound _ _ _ _
  obtain ⟨s₁, h₁, hcompute⟩ := Option.bind_eq_some_iff.mp hcompute
  obtain ⟨s₂, h₂, hcompute⟩ := Option.bind_eq_some_iff.mp hcompute
  obtain ⟨⟨s₃, r⟩, h₃, hcompute⟩ := Option.bind_eq_some_iff.mp hcompute
  obtain ⟨s₄, h₄, hcompute⟩ := Option.bind_eq_some_iff.mp hcompute
  obtain ⟨⟨s₅, client, bytes⟩, h₅, hcompute⟩ := Option.bind_eq_some_iff.mp hcompute
  obtain ⟨⟨s₆, r'⟩, h₆, hcompute⟩ := Option.bind_eq_some_iff.mp hcompute
  obtain ⟨s₇, h₇, hcompute⟩ := Option.map_eq_some_iff.mp hcompute
  obtain ⟨happ₂, happ₄, happ₅, happ₇, hfirst, hsecond, hnot⟩ := of_decide_eq_true hcompute
  have hs₁ := hs₀.prompted h₁
  have hs₂ := hs₁.prompted h₂
  have hs₃ : Sound False s₃ := (QueueStep.write h₃).sound hs₂ False.elim
  have hs₄ := hs₃.prompted h₄
  have hs₅ : Sound False s₅ := (QueueStep.read h₅).sound hs₄ False.elim
  have hs₆ : Sound False s₆ := (QueueStep.write h₆).sound hs₅ False.elim
  have hstart : Run (fun s a s' => QueueStep s a s' ∧ OnAttached s a) (System.init (fun _ => 0) [] [] 0) []
      (System.init (fun _ => 0) [] [] 0) := .nil
  have hrun₂ := prompted_run hs₁ (prompted_run hs₀ hstart trivial trivial h₁) trivial trivial h₂
  have hrun₄ := prompted_run hs₃ (hrun₂.snoc ⟨.write h₃, 0, happ₂⟩) trivial trivial h₄
  have hrun₆ := (hrun₄.snoc ⟨.read h₅, trivial⟩).snoc ⟨.write h₆, 0, happ₅⟩
  refine ⟨_, s₇, prompted_run hs₆ hrun₆ trivial trivial h₇, fun hqueues => ?_⟩
  obtain ⟨hs, hl, -, hfull⟩ := hqueues.outgoing 0 ⟨0, happ₇⟩
  have hmore := mt (hl.none_iff 1).mpr hsecond
  cases hs with
  | nil => exact hmore (Nat.zero_le _)
  | cons b rest =>
    rw [hl.head] at hfirst
    have hmem : b ∈ (b :: rest).dropLast := by
      cases rest with
      | nil => exact absurd (Nat.le_refl 1) hmore
      | cons b' rest => exact List.mem_cons_self
    obtain ⟨bytes', hview, hsuffix⟩ := hfull trivial b hmem
    rw [hfirst] at hview hsuffix
    exact hnot ((view_some.mp hview).2 ▸ hsuffix)

end UIPClient

end UIPEthernet
