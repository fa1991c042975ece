import UIPEthernet.UIPClient.Correspondence
import UIPEthernet.UIPClient.Offer

/-!
# How the callback leaves an entry

Behind `uipclient_appcall` the entry of the connection is still attached, is
given back, or is kept for what the sketch has not read. No other entry changes
unless it is the one for a new connection.
-/

namespace UIPEthernet

/-- Whether the event sets up a connection or gives it an entry. -/
def Event.isLife : Event → Bool
  | .opened _ | .attached _ _ => true
  | _ => false

namespace System

/-- The connections set up and attached so far. -/
def lives (s : System) : List Event := s.history.filter Event.isLife

theorem record_lives (s : System) (e : Event) (h : e.isLife = false) : (s.record e).lives = s.lives := by
  show List.filter Event.isLife (e :: s.history) = _
  rw [List.filter_cons_of_neg (by rw [h]; exact Bool.false_ne_true)]
  rfl

end System

namespace UIPClient

open UIPEthernet.System

variable {s s' s₁ s₂ : System} {c u : Fin UIP_CONNS}

-- ---------------------------------------------------------------------------
-- What is left alone
-- ---------------------------------------------------------------------------

/-- The other entries stay, and no connection is set up or attached. -/
structure Within (u : Fin UIP_CONNS) (s s' : System) : Prop where
  others : ∀ v ≠ u, s'.allData v = s.allData v
  lives : s'.lives = s.lives

theorem Within.refl (u : Fin UIP_CONNS) (s : System) : Within u s s := ⟨fun _ _ => rfl, rfl⟩

theorem Within.trans (h : Within u s s₁) (h' : Within u s₁ s₂) : Within u s s₂ :=
  ⟨fun v hv => (h'.others v hv).trans (h.others v hv), h'.lives.trans h.lives⟩

theorem Within.of_eq (hdata : s'.allData = s.allData) (hhist : s'.history = s.history) : Within u s s' :=
  ⟨fun v _ => by rw [hdata], by rw [System.lives, hhist]; rfl⟩

theorem Within.entry {d : Userdata} (hdata : s'.allData = Function.update s.allData u d)
    (hhist : s'.history = s.history) : Within u s s' :=
  ⟨fun v hv => by rw [hdata, Function.update_of_ne hv], by rw [System.lives, hhist]; rfl⟩

theorem record_within {e : Event} (h : e.isLife = false) : Within u s (s.record e) :=
  ⟨fun _ _ => rfl, record_lives s e h⟩

theorem eatIn_within (h : eatIn s u = some s') : Within u s s' := by
  simp only [eatIn, Option.bind_eq_bind, Option.bind_eq_some_iff, Prod.exists] at h
  obtain ⟨net, block, -, h⟩ := h
  cases h
  exact .entry rfl rfl

theorem eatOut_within (h : eatOut s u = some s') : Within u s s' := by
  simp only [eatOut, Option.bind_eq_bind, Option.bind_eq_some_iff, Prod.exists] at h
  obtain ⟨net, block, -, h⟩ := h
  cases h
  exact .entry rfl rfl

theorem flushIn_within (h : flushIn s u = some s') : Within u s s' := by
  simp only [flushIn, Option.bind_eq_bind, Option.bind_eq_some_iff, Prod.exists] at h
  obtain ⟨net, block, -, h⟩ := h
  cases h
  exact .entry rfl rfl

theorem flushOut_within (h : flushOut s u = some s') : Within u s s' := by
  simp only [flushOut, Option.bind_eq_bind, Option.bind_eq_some_iff, Prod.exists] at h
  obtain ⟨net, block, -, h⟩ := h
  cases h
  exact .entry rfl rfl

theorem storeData_within {slots : List (Fin UIP_SOCKET_NUMPACKETS)} {stored : Bool}
    (h : storeData c u slots s = some (s', stored)) : Within u s s' := by
  induction slots generalizing s with
  | nil =>
    cases h
    exact .refl u _
  | cons i rest ih =>
    rw [storeData] at h
    split at h
    · simp only [Option.bind_eq_bind, Option.bind_eq_some_iff, Prod.exists] at h
      obtain ⟨net, k, -, h⟩ := h
      have hslot : Within u s ((s.setNet net).setPacketsIn u (Function.update (s.allData u).packetsIn i k)) :=
        .entry rfl rfl
      split at h
      · exact hslot.trans (ih h)
      · simp only [Option.bind_eq_some_iff, Option.pure_def, Option.some.injEq, Prod.mk.injEq] at h
        obtain ⟨net', -, rfl, rfl⟩ := h
        have hstored := hslot.trans (record_within (e := .received c u k) rfl)
        split <;> exact ⟨hstored.others, hstored.lives⟩
    · exact ih h

theorem newdata_within (h : newdata s c u = some s') : Within u s s' := by
  rw [newdata] at h
  split at h
  · simp only [Option.bind_eq_bind, Option.bind_eq_some_iff, Prod.exists] at h
    obtain ⟨s₁, stored, hstore, h⟩ := h
    have h₁ := storeData_within hstore
    split at h <;> cases h
    · exact h₁
    · exact h₁.trans (.of_eq rfl rfl)
  · cases h
    exact .refl u s

theorem restart_within : Within u s (restart s c u) := by
  rw [restart]
  split
  · exact .entry rfl rfl
  · exact .refl u s

theorem closing_within : Within u s (closing s c u) := by
  rw [closing]
  split
  · split
    · exact .entry rfl rfl
    · exact .of_eq rfl rfl
  · exact .refl u s

theorem finish_within (sendLen : Nat) : Within u s (finish s sendLen) := by
  simp only [finish]
  split <;> exact .of_eq rfl rfl

theorem acked_within (h : acked s u = some s') : Within u s s' := by
  rw [acked] at h
  split at h
  · exact eatOut_within h
  · cases h
    exact .refl u s

theorem offer_within {sendLen : Nat} (h : offer s c u = some (s', sendLen)) : Within u s s' := by
  simp only [offer, Option.bind_eq_bind, Option.pure_def] at h
  split at h
  · cases h
    exact .refl u s
  · obtain ⟨s₁, hprep, h⟩ := Option.bind_eq_some_iff.mp h
    cases h
    obtain ⟨net₀, hcut, -⟩ := cutHead_net s u
    rw [hcut] at hprep
    simp only [prepare, Option.bind_eq_bind, Option.pure_def] at hprep
    obtain ⟨⟨net, k⟩, -, hprep⟩ := Option.bind_eq_some_iff.mp hprep
    split at hprep
    · cases hprep
      exact .of_eq rfl rfl
    · obtain ⟨net', -, hprep⟩ := Option.bind_eq_some_iff.mp hprep
      cases hprep
      exact ⟨fun _ _ => rfl, record_lives s (.offered c u ((s.allData u).packetsOut 0) (sendLength s u)) rfl⟩

-- ---------------------------------------------------------------------------
-- How it ends
-- ---------------------------------------------------------------------------

/-- The entry `u` of connection `c` behind the callback: still attached, given
back, or kept for what is unread, under the port of the connection. -/
inductive Outcome (c u : Fin UIP_CONNS) (s s' : System) : Prop
  | kept (hflags : s'.uip.uipFlags = s.uip.uipFlags ∨ s'.uip.uipFlags = s.uip.uipFlags ||| UIP_NEWDATA)
      (hended : ¬has s.uip.uipFlags (UIP_CLOSE ||| UIP_TIMEDOUT)) (happ : (s'.uipConns c).appstate = some u)
  | freed (hstate : (s'.allData u).state = 0) (happ : (s'.uipConns c).appstate = none)
  | leftover (hended : has s.uip.uipFlags (UIP_CLOSE ||| UIP_TIMEDOUT))
      (hremote : has (s'.allData u).state UIP_CLIENT_REMOTECLOSED) (hdata : (s'.allData u).packetsIn 0 ≠ NOBLOCK) (hport : (s'.allData u).lport = (s.uipConns c).lport)
      (happ : (s'.uipConns c).appstate = none)

theorem setData_self (d : Userdata) : (s.setData u d).allData u = d := Function.update_self _ _ _

theorem setAppstate_self (o : Option (Fin UIP_CONNS)) : ((s.setAppstate c o).uipConns c).appstate = o := by
  rw [setAppstate, mapConn_self]

theorem setAppstate_lport {o : Option (Fin UIP_CONNS)} :
    ((s.setAppstate c o).uipConns c).lport = (s.uipConns c).lport := by
  rw [setAppstate, mapConn_self]

theorem setLport_lport (d : Userdata) (port : Nat) : (d.setLport port).lport = port := by
  have hne : (0 : Fin UIP_SOCKET_NUMPACKETS) ≠ 1 := by decide
  simp only [Userdata.lport, Userdata.setLport, Function.update_self, Function.update_of_ne hne]
  exact Nat.mod_add_div port 256

theorem closed_outcome (hended : has s.uip.uipFlags (UIP_CLOSE ||| UIP_TIMEDOUT)) (h : closed s c u = some s') :
    Within u s s' ∧ Outcome c u s s' := by
  simp only [closed, Option.bind_eq_bind, Option.bind_eq_some_iff, Option.pure_def, Option.some.injEq] at h
  obtain ⟨s₁, hflush, rfl⟩ := h
  have hwithin := flushOut_within hflush
  have hlport : (s₁.uipConns c).lport = (s.uipConns c).lport := by rw [(flushOut_calm (c := c) hflush).conn]
  have hremote : ∀ x : BitVec 8, has (x ||| UIP_CLIENT_REMOTECLOSED) UIP_CLIENT_REMOTECLOSED := by decide
  split
  · rename_i hdata
    generalize hd : s₁.allData u = d at hdata ⊢
    generalize hport : (s₁.uipConns c).lport = port at hlport ⊢
    let left : Userdata := { d with packetsOut := (d.setLport port).packetsOut, state := d.state ||| UIP_CLIENT_REMOTECLOSED }
    have hentry : ((s₁.setPacketsOut u (d.setLport port).packetsOut).setState u
        (d.state ||| UIP_CLIENT_REMOTECLOSED)).allData u = left := by
      rw [setState, setData_self, setPacketsOut, setData_self, hd]
    refine ⟨hwithin.trans ⟨fun v hv => ?_, rfl⟩, .leftover hended ?_ ?_ ?_ (setAppstate_self none)⟩
    · exact (Function.update_of_ne hv _ _).trans (Function.update_of_ne hv _ _)
    · exact (congrArg (fun e => has e.state UIP_CLIENT_REMOTECLOSED) hentry).trans (hremote d.state)
    · exact fun h => hdata ((congrArg (fun e => e.packetsIn 0) hentry).symm.trans h)
    · exact (congrArg Userdata.lport hentry).trans ((setLport_lport d port).trans hlport)
  · exact ⟨hwithin.trans (.entry rfl rfl), .freed (congrArg Userdata.state (setData_self _)) (setAppstate_self none)⟩

theorem offer_uip {sendLen : Nat} (h : offer s c u = some (s', sendLen)) : s'.uip = s.uip := by
  simp only [offer, Option.bind_eq_bind, Option.pure_def] at h
  split at h
  · cases h
    rfl
  · obtain ⟨s₁, hprep, h⟩ := Option.bind_eq_some_iff.mp h
    cases h
    obtain ⟨net₀, hcut, -⟩ := cutHead_net s u
    rw [hcut] at hprep
    simp only [prepare, Option.bind_eq_bind, Option.pure_def] at hprep
    obtain ⟨⟨net, k⟩, -, hprep⟩ := Option.bind_eq_some_iff.mp hprep
    split at hprep
    · cases hprep
      rfl
    · obtain ⟨net', -, hprep⟩ := Option.bind_eq_some_iff.mp hprep
      cases hprep
      rfl

theorem finish_flags (sendLen : Nat) : (finish s sendLen).uip.uipFlags = s.uip.uipFlags := by
  simp only [finish]
  split <;> rfl

theorem finish_data (sendLen : Nat) : (finish s sendLen).allData = s.allData := by
  simp only [finish]
  split <;> rfl

theorem finish_conns (sendLen : Nat) : (finish s sendLen).uipConns = s.uipConns := by
  simp only [finish]
  split <;> rfl

/-- The flags behind the callback, while the entry is attached. -/
theorem Outcome.flags (h : Outcome c u s₁ s₂) (happ : (s₂.uipConns c).appstate = some u) :
    ¬has s₁.uip.uipFlags (UIP_CLOSE ||| UIP_TIMEDOUT) ∧
      ∀ f, UIP_NEWDATA &&& f = 0 → has s₂.uip.uipFlags f = has s₁.uip.uipFlags f := by
  cases h with
  | kept hflags hended _ =>
    refine ⟨hended, fun f hf => ?_⟩
    rcases hflags with h | h <;> rw [h]
    exact Tables.has_setFlag _ hf
  | freed _ hnone => exact absurd (hnone.symm.trans happ) (Option.some_ne_none u).symm
  | leftover _ _ _ _ hnone => exact absurd (hnone.symm.trans happ) (Option.some_ne_none u).symm

/-- What `finish` adds. -/
theorem Outcome.finish (h : Outcome c u s s') (sendLen : Nat) : Outcome c u s (finish s' sendLen) := by
  cases h with
  | kept hflags hended happ =>
    refine .kept ?_ hended ?_
    · rwa [finish_flags]
    · rwa [finish_conns]
  | freed hstate happ =>
    refine .freed ?_ ?_
    · rwa [finish_data]
    · rwa [finish_conns]
  | leftover hended hremote hdata hport happ =>
    refine .leftover hended ?_ ?_ ?_ ?_
    · rwa [finish_data]
    · rwa [finish_data]
    · rwa [finish_data]
    · rwa [finish_conns]

theorem closing_outcome (happ : (s.uipConns c).appstate = some u)
    (hended : ¬has s.uip.uipFlags (UIP_CLOSE ||| UIP_TIMEDOUT)) : Outcome c u s (closing s c u) := by
  rw [closing]
  split
  · split
    · exact .freed (congrArg Userdata.state (setData_self _)) (setAppstate_self none)
    · refine .kept (.inl rfl) hended ?_
      rw [uipStop, mapConn_self]
      exact happ
  · exact .kept (.inl rfl) hended happ

theorem polled_outcome (happ : (s.uipConns c).appstate = some u)
    (hended : ¬has s.uip.uipFlags (UIP_CLOSE ||| UIP_TIMEDOUT)) (h : polled s c u = some s') :
    Within u s s' ∧ Outcome c u s s' := by
  simp only [polled, Option.bind_eq_bind, Option.pure_def] at h
  split at h
  · obtain ⟨⟨s₁, sendLen⟩, hoffer, h⟩ := Option.bind_eq_some_iff.mp h
    cases h
    have hkept : Outcome c u s s₁ := by
      refine .kept (.inl ?_) hended ?_
      · rw [offer_uip hoffer]
      · exact (congrFun (congrArg Tables.appstate (offer_ok hoffer)) c).trans happ
    exact ⟨(offer_within hoffer).trans (finish_within _), hkept.finish _⟩
  · cases h
    exact ⟨closing_within.trans (finish_within _), (closing_outcome happ hended).finish _⟩

theorem serve_outcome (hs : Serving s c u) (h : serve s c u = some s') : Within u s s' ∧ Outcome c u s s' := by
  simp only [serve, Option.bind_eq_bind, Option.pure_def] at h
  obtain ⟨s₁, hnew, h⟩ := Option.bind_eq_some_iff.mp h
  have hs₂ := restart_serving (newdata_serving hs hnew)
  have hwithin : Within u s (restart s₁ c u) := (newdata_within hnew).trans restart_within
  have hconn : ((restart s₁ c u).uipConns c).lport = (s.uipConns c).lport := by
    rw [((newdata_calm (c := c) hnew).trans restart_calm).conn]
  have hflags : (restart s₁ c u).uip.uipFlags = s.uip.uipFlags ∨
      (restart s₁ c u).uip.uipFlags = s.uip.uipFlags ||| UIP_NEWDATA := by
    rw [← newdata_uip hnew]
    exact restart_only_flags
  generalize restart s₁ c u = s₂ at h hs₂ hwithin hconn hflags
  have hends : has s₂.uip.uipFlags (UIP_CLOSE ||| UIP_TIMEDOUT) = has s.uip.uipFlags (UIP_CLOSE ||| UIP_TIMEDOUT) := by
    rcases hflags with hf | hf <;> rw [hf]
    exact Tables.has_setFlag _ (by decide)
  split at h
  · rename_i hended
    obtain ⟨s₃, hclosed, h⟩ := Option.bind_eq_some_iff.mp h
    cases h
    obtain ⟨hwithin', houtcome⟩ := closed_outcome hended hclosed
    refine ⟨(hwithin.trans hwithin').trans (finish_within _), Outcome.finish ?_ _⟩
    cases houtcome with
    | kept _ hended _ => contradiction
    | freed hstate happ => exact .freed hstate happ
    | leftover _ hremote hdata hport happ => exact .leftover (hends ▸ hended) hremote hdata (hport.trans hconn) happ
  · rename_i hended
    have hended₀ : ¬has s.uip.uipFlags (UIP_CLOSE ||| UIP_TIMEDOUT) := hends ▸ hended
    obtain ⟨s₃, hack, h⟩ := Option.bind_eq_some_iff.mp h
    have happ : (s₃.uipConns c).appstate = some u :=
      (congrFun (congrArg Tables.appstate (acked_tables hack)) c).trans hs₂.entry
    have hended₃ : ¬has s₃.uip.uipFlags (UIP_CLOSE ||| UIP_TIMEDOUT) := by
      rwa [acked_uip hack]
    obtain ⟨hwithin', houtcome⟩ := polled_outcome happ hended₃ h
    refine ⟨(hwithin.trans (acked_within hack)).trans hwithin', ?_⟩
    have hlport : (s₃.uipConns c).lport = (s.uipConns c).lport := by
      rw [(acked_calm (c := c) hack).conn]
      exact hconn
    cases houtcome with
    | kept hf _ happ' =>
      refine .kept ?_ hended₀ happ'
      rw [acked_uip hack] at hf
      rcases hflags with hf₂ | hf₂ <;> rw [hf₂] at hf
      · exact hf
      · rw [BitVec.or_assoc, BitVec.or_self] at hf
        exact .inr (hf.elim id id)
    | freed hstate happ' => exact .freed hstate happ'
    | leftover hended' _ _ _ _ => exact absurd hended' hended₃

-- ---------------------------------------------------------------------------
-- The callback
-- ---------------------------------------------------------------------------

/-- What a callback for the connection does to it and to the entries: nothing
without an entry, or what it does with the entry that the connection has or has
got. -/
inductive Callback (c : Fin UIP_CONNS) (s s' : System) : Prop
  | unattached (hnone : (s.uipConns c).appstate = none) (hconns : s'.uipConns = s.uipConns) (hdata : s'.allData = s.allData)
      (hlives : s'.lives = s.lives)
  | attached (u : Fin UIP_CONNS) (hentry : (s.uipConns c).appstate = some u) (hwithin : Within u s s')
      (houtcome : Outcome c u s s')
  | fresh (u : Fin UIP_CONNS) (hnone : (s.uipConns c).appstate = none) (hflags : has s.uip.uipFlags UIP_CONNECTED)
      (hfree : (s.allData u).state = 0) (hothers : ∀ v ≠ u, s'.allData v = s.allData v)
      (hlives : s'.lives = .attached c u :: s.lives) (houtcome : Outcome c u s s')

/-- An entry is given to the connection. -/
inductive Attach (c : Fin UIP_CONNS) (s : System) : System → Prop
  | old (h : (s.uipConns c).appstate ≠ none ∨ ¬has s.uip.uipFlags UIP_CONNECTED ∨ allocateData s = none) : Attach c s s
  | new (s₁ : System) (u : Fin UIP_CONNS) (hnone : (s.uipConns c).appstate = none)
      (hflags : has s.uip.uipFlags UIP_CONNECTED) (halloc : allocateData s = some (s₁, u)) : Attach c s ((s₁.setAppstate c u).record (.attached c u))

theorem attach_attach : Attach c s (attach s c) := by
  rw [attach]
  split
  · rename_i h
    split
    · rename_i hnone
      exact .old (.inr (.inr hnone))
    · rename_i s₁ v halloc
      exact .new s₁ v h.1 h.2 halloc
  · rename_i h
    refine .old ?_
    by_cases hnone : (s.uipConns c).appstate = none
    · exact .inr (.inl fun hf => h ⟨hnone, hf⟩)
    · exact .inl hnone

theorem appcall_callback (hp : s.tables.Paired) (h : uipclientAppcall s c = some s') : Callback c s s' := by
  have hpaired := attach_paired (c := c) hp
  simp only [uipclientAppcall] at h
  have hattach := attach_attach (s := s) (c := c)
  generalize attach s c = t at h hattach hpaired
  cases hattach with
  | old hold =>
    split at h
    · rename_i hnone
      cases h
      exact .unattached hnone (finish_conns 0) (finish_data 0) (finish_within (u := 0) 0).lives
    · rename_i u happ
      obtain ⟨hwithin, houtcome⟩ := serve_outcome ⟨hpaired, happ⟩ h
      exact .attached u happ hwithin houtcome
  | new s₁ u hnone hflags halloc =>
    have hentry : (((s₁.setAppstate c u).record (.attached c u)).uipConns c).appstate = some u := setAppstate_self _
    obtain ⟨hfree, -⟩ := allocateData_ok halloc
    rw [hentry] at h
    obtain ⟨hwithin, houtcome⟩ := serve_outcome ⟨hpaired, hentry⟩ h
    simp only [allocateData] at halloc
    split at halloc
    · cases halloc
    · cases halloc
      refine .fresh u hnone hflags hfree (fun v hv => (hwithin.others v hv).trans (Function.update_of_ne hv _ _)) hwithin.lives ?_
      cases houtcome with
      | kept hf hended happ => exact .kept hf hended happ
      | freed hstate happ => exact .freed hstate happ
      | leftover hended hremote hdata hport happ =>
        exact .leftover hended hremote hdata (hport.trans setAppstate_lport) happ

end UIPClient

end UIPEthernet
