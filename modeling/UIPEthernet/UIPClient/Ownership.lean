import UIPEthernet.UIPClient.Calls
import UIPEthernet.UIPClient.Queues

/-!
# The callback and the calls of a client keep the blocks

Nothing is done to the blocks of a `UIPUDP` object, and what is in the queues
stays allocated.
-/

namespace UIPEthernet

open Enc28J60Network

namespace System

variable {s s' : System} {u : Fin UIP_CONNS}

/-- A change of an entry that is not about its queues. -/
theorem own_setData_same {d : Userdata} (hstate : d.state = (s.allData u).state) (hin : d.packetsIn = (s.allData u).packetsIn)
    (hout : d.packetsOut = (s.allData u).packetsOut) : (s.setData u d).own = s.own := by
  have hsends : d.sends = (s.allData u).sends := by rw [Userdata.sends, hstate, Userdata.sends]
  funext x
  by_cases hx : x.ofEntry u
  · cases x with
    | packetsIn v i =>
      obtain rfl : v = u := hx
      rw [own_setData_in, hin]
      rfl
    | packetsOut v i =>
      obtain rfl : v = u := hx
      rw [own_setData_out, hsends, hout]
      rfl
    | _ => exact hx.elim
  · exact own_setData_other d hx

end System

namespace UIPClient

open UIPEthernet.System Slot

variable {s s' s₁ s₂ : System} {c u : Fin UIP_CONNS} {data : Option (Fin UIP_CONNS)}

-- ---------------------------------------------------------------------------
-- The callback
-- ---------------------------------------------------------------------------

/-- A callback that is not asked for bytes. -/
theorem serve_keeps (hs : Serving s c u) (ho : s.Owned) (hflags : ¬has s.uip.uipFlags (UIP_POLL ||| UIP_REXMIT))
    (h : serve s c u = some s') : Keeps (ofEntry u) s s' := by
  simp only [serve, Option.bind_eq_bind, Option.pure_def] at h
  obtain ⟨s₁, hnew, h⟩ := Option.bind_eq_some_iff.mp h
  have h₁ := newdata_keeps ho hnew
  have h₂ : Keeps (ofEntry u) s (restart s₁ c u) := h₁.trans (restart_keeps h₁.owned)
  have hs₂ : Serving (restart s₁ c u) c u := restart_serving (newdata_serving hs hnew)
  have hflags₂ : ¬has (restart s₁ c u).uip.uipFlags (UIP_POLL ||| UIP_REXMIT) := by
    rwa [restart_flags (by decide), newdata_uip hnew]
  split at h
  · obtain ⟨s₃, hclosed, h⟩ := Option.bind_eq_some_iff.mp h
    cases h
    have h₃ := h₂.trans (closed_keeps h₂.owned hs₂.sends hclosed)
    exact h₃.trans (finish_keeps h₃.owned 0)
  · obtain ⟨s₃, hack, h⟩ := Option.bind_eq_some_iff.mp h
    have h₃ := h₂.trans (acked_keeps h₂.owned hs₂.sends hack)
    refine h₃.trans (polled_unasked h₃.owned ?_ h).1
    rwa [acked_uip hack]

theorem appcall_keeps (hp : s.tables.Paired) (ho : s.Owned) (hflags : ¬has s.uip.uipFlags (UIP_POLL ||| UIP_REXMIT))
    (h : uipclientAppcall s c = some s') : Keeps ofTcp s s' := by
  have h₁ : Keeps ofTcp s (attach s c) := attach_keeps ho
  simp only [uipclientAppcall] at h
  split at h
  · cases h
    exact h₁.trans (finish_keeps h₁.owned 0)
  · rename_i u hu
    have hs : Serving (attach s c) c u := ⟨attach_paired hp, hu⟩
    refine h₁.trans ((serve_keeps hs h₁.owned ?_ h).mono fun _ => ofEntry.tcp)
    rwa [attach_uip]

/-- A callback that is asked for bytes. -/
theorem appcall_asked (hp : s.tables.Paired) (ho : s.Owned) (hat : AtPayload s)
    (hflags : s.uip.uipFlags = UIP_POLL ∨ s.uip.uipFlags = UIP_REXMIT) (h : uipclientAppcall s c = some s') :
    Keeps ofTcp s s' ∧ (s'.packetstate = s.packetstate ∨
      ∃ u, (s.uipConns c).appstate = some u ∧ Offered (restart s c u) u s') := by
  cases happ : (s.uipConns c).appstate with
  | none =>
    have hattach : attach s c = s := by
      refine if_neg fun h => ?_
      rcases hflags with hf | hf <;> exact absurd (hf ▸ h.2) (by decide)
    simp only [uipclientAppcall, hattach, happ] at h
    cases h
    exact ⟨finish_keeps ho 0, .inl (finish_packetstate s 0)⟩
  | some u =>
    rw [appcall_polled happ hflags] at h
    have h₁ : Keeps (ofEntry u) s (restart s c u) := restart_keeps ho
    have hs : Serving (restart s c u) c u := restart_serving ⟨hp, happ⟩
    have hstate : (restart s c u).packetstate = s.packetstate := by
      unfold restart
      split <;> rfl
    obtain ⟨h₂, hout⟩ := polled_keeps h₁.owned hs.sends (restart_atPayload hat) h
    exact ⟨(h₁.trans h₂).mono fun _ => ofEntry.tcp, hout.imp (·.trans hstate) fun hoffered => ⟨u, rfl, hoffered⟩⟩

-- ---------------------------------------------------------------------------
-- The calls
-- ---------------------------------------------------------------------------

/-- The flags that a call sets put no entry to use. -/
theorem sends_set : ∀ state flag : BitVec 8, flag = UIP_CLIENT_CLOSE ∨ flag = UIP_CLIENT_RESTART →
    ¬has (state ||| flag) UIP_CLIENT_REMOTECLOSED → ¬has state UIP_CLIENT_REMOTECLOSED := by
  rintro state flag hflag h hr
  refine h ?_
  rcases hflag with rfl | rfl <;> rwa [Tables.has_setFlag _ (by decide)]

theorem stop_keeps (ho : s.Owned) (h : stop s data = some s') : Keeps ofTcp s s' := by
  simp only [stop, Option.bind_eq_bind, Option.pure_def] at h
  split at h
  · cases h
    exact .refl ho
  · rename_i u
    split at h
    · cases h
      exact .refl ho
    · rename_i hne
      obtain ⟨s₁, hflush, h⟩ := Option.bind_eq_some_iff.mp h
      cases h
      have h₁ := flushIn_keeps ho hflush
      have hstate : (s₁.allData u).state = (s.allData u).state := congrArg (fun t => t.state u) (flushIn_ok hflush)
      refine (h₁.trans (setState_keeps h₁.owned fun hs => ?_)).mono fun _ => ofEntry.tcp
      split at hs
      · exact absurd rfl hs.1
      · rename_i hr
        exact sends_iff.mpr ⟨hstate ▸ hne, hr⟩

theorem newpacket_keeps {p : Fin UIP_SOCKET_NUMPACKETS} {got : Bool} (ho : s.Owned) (h : newpacket s u p = some (s', got)) :
    Keeps (ofEntry u) s s' := by
  simp only [newpacket, Option.bind_eq_bind, Option.pure_def] at h
  obtain ⟨⟨net, b⟩, halloc, h⟩ := Option.bind_eq_some_iff.mp h
  have hput : ∀ t : System, t.net.blocks = net.blocks → t.net.sent = net.sent →
      t.own = (s.setPacketsOut u (Function.update (s.allData u).packetsOut p b)).own → Keeps (ofEntry u) s t :=
    fun t => ho.entry_out halloc (by decide)
  split at h <;> cases h
  · exact hput _ rfl rfl rfl
  · exact hput _ rfl rfl (own_setData_same rfl rfl rfl)

/-- Bytes are written into a block, and the entry is not touched but for the
position and the timer. -/
theorem fill_keeps (ho : s.Owned) (p : Fin UIP_SOCKET_NUMPACKETS) (buf : List Byte) :
    Keeps (ofEntry u) s (fill s u p buf).1 := by
  have hown : (fill s u p buf).1.own = s.own := own_setData_same rfl rfl rfl
  exact ⟨ho.same (fun x => by rw [hown]) fun _ _ => rfl, rfl⟩

theorem ready_keeps (ho : s.Owned) (now : BitVec 32) (remain : List Byte) :
    Keeps (ofEntry u) s (ready s u now remain).1 := by
  have hown : (ready s u now remain).1.own = s.own := own_setData_same rfl rfl rfl
  exact ⟨ho.same (fun x => by rw [hown]) fun _ _ => rfl, rfl⟩

theorem fillAll_keeps {now : BitVec 32} {slots : List (Fin UIP_SOCKET_NUMPACKETS)} {buf : List Byte} {r : Attempt}
    (ho : s.Owned) (h : fillAll u now slots buf s = some (s', r)) : Keeps (ofEntry u) s s' := by
  induction slots generalizing buf s with
  | nil =>
    cases h
    exact .refl ho
  | cons p rest ih =>
    rw [fillAll] at h
    have h₁ := fill_keeps (u := u) ho p buf
    generalize fill s u p buf = filled at h h₁
    simp only at h
    split at h
    · cases rest with
      | nil =>
        cases h
        exact h₁
      | cons q rest =>
        obtain ⟨⟨s₂, got⟩, hnew, h⟩ := Option.bind_eq_some_iff.mp h
        have h₂ := h₁.trans (newpacket_keeps h₁.owned hnew)
        split at h
        · exact h₂.trans (ih h₂.owned h)
        · cases h
          exact h₂
    · cases h
      exact h₁.trans (ready_keeps h₁.owned now filled.2)

theorem attempt_keeps {now : BitVec 32} {buf : List Byte} {r : Attempt} (ho : s.Owned)
    (h : attempt s data now buf = some (s', r)) : Keeps ofTcp s s' := by
  simp only [attempt, Option.bind_eq_bind, Option.pure_def] at h
  split at h
  · cases h
    exact .refl ho
  · rename_i u
    suffices hkeeps : Keeps (ofEntry u) s s' from hkeeps.mono fun _ => ofEntry.tcp
    split at h
    · cases h
      exact .refl ho
    · split at h
      · obtain ⟨⟨s₁, got⟩, hnew, h⟩ := Option.bind_eq_some_iff.mp h
        have h₁ := newpacket_keeps ho hnew
        split at h
        · exact h₁.trans (fillAll_keeps h₁.owned h)
        · cases h
          exact h₁
      · exact fillAll_keeps ho h

theorem readBlock_keeps {empty : Bool} (ho : s.Owned) (hne : (s.allData u).state ≠ 0)
    (h : readBlock s u = some (s', empty)) : Keeps (ofEntry u) s s' := by
  simp only [readBlock, Option.bind_eq_bind, Option.pure_def] at h
  obtain ⟨s₁, heat, h⟩ := Option.bind_eq_some_iff.mp h
  cases h
  have h₁ := eatIn_keeps ho heat
  have hstate : (s₁.allData u).state = (s.allData u).state := congrArg (fun t => t.state u) (eatIn_ok heat)
  split
  · exact h₁.trans (setState_keeps h₁.owned fun hs =>
      sends_iff.mpr ⟨hstate ▸ hne, sends_set _ _ (.inr rfl) hs.2⟩)
  · exact h₁

theorem readLoop_keeps {fuel remain : Nat} {client : Option (Fin UIP_CONNS)} {bytes : List Byte} (hp : s.tables.Paired)
    (ho : s.Owned) (hin : s.tables.packetsIn u 0 ≠ NOBLOCK) (h : readLoop u fuel remain s = some (s', client, bytes)) :
    Keeps (ofEntry u) s s' := by
  induction fuel generalizing s remain client bytes with
  | zero => cases h
  | succ fuel ih =>
    simp only [readLoop, Option.bind_eq_bind, Option.pure_def] at h
    generalize hrec : s.record _ = s₀ at h
    have h₀ : Keeps (ofEntry u) s s₀ := hrec ▸ ho.aside rfl rfl rfl rfl
    have hp₀ : s₀.tables.Paired := hrec ▸ hp
    have hin₀ : s₀.tables.packetsIn u 0 ≠ NOBLOCK := hrec ▸ hin
    split at h
    · obtain ⟨⟨s₁, empty⟩, hblock, h⟩ := Option.bind_eq_some_iff.mp h
      obtain ⟨hp₁, hempty⟩ := readBlock_ok hp₀ hin₀ hblock
      have hne : (s₀.allData u).state ≠ 0 := fun h0 => hin₀ (hp₀.empty u (.inl h0))
      have h₁ := h₀.trans (readBlock_keeps h₀.owned hne hblock)
      simp only at h
      split at h
      · split at h
        · cases h
          exact h₁.trans (setState_keeps h₁.owned fun hs => absurd rfl hs.1)
        · cases h
          exact h₁
      · rename_i he
        split at h
        · obtain ⟨⟨s₂, client₂, rest⟩, hrest, h⟩ := Option.bind_eq_some_iff.mp h
          cases h
          exact h₁.trans (ih hp₁ h₁.owned (fun h0 => he (hempty.mpr h0)) hrest)
        · cases h
          exact h₁
    · rename_i hrest
      cases h
      subst hrec
      have hkeeps : Keeps (ofEntry u) _ _ := h₀.owned.read_rest (x := .packetsIn u 0) rfl hin₀ rfl hrest
      exact h₀.trans hkeeps

theorem read_keeps {size : Nat} {client : Option (Fin UIP_CONNS)} {bytes : Option (List Byte)} (hp : s.tables.Paired)
    (ho : s.Owned) (h : read s data size = some (s', client, bytes)) : Keeps ofTcp s s' := by
  simp only [read, Option.bind_eq_bind, Option.pure_def] at h
  split at h
  · cases h
    exact .refl ho
  · split at h
    · split at h
      · cases h
        exact .refl ho
      · rename_i hin
        obtain ⟨⟨s₁, client', bytes'⟩, hloop, h⟩ := Option.bind_eq_some_iff.mp h
        cases h
        exact (readLoop_keeps hp ho hin hloop).mono fun _ => ofEntry.tcp
    · cases h
      exact .refl ho

theorem flush_keeps (ho : s.Owned) (h : flush s data = some s') : Keeps ofTcp s s' := by
  unfold flush at h
  split at h
  · cases h
    exact .refl ho
  · split at h
    · exact (flushIn_keeps ho h).mono fun _ => ofEntry.tcp
    · cases h
      exact .refl ho

end UIPClient

end UIPEthernet
