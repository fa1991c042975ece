import UIPEthernet.UIPEthernetClass.Steps

/-!
# available of a server

`available` looks for the port of an entry in the slot of `uip_conns` that has
the number of the entry. It serves its own port where that slot has the port of
the connection of the entry. The port of an entry that the remote end has
closed is in the entry.
-/

namespace UIPEthernet

open Lib

-- ---------------------------------------------------------------------------
-- Ports of closed entries
-- ---------------------------------------------------------------------------

namespace UIPClient

open UIPEthernet.System

/-- No entry is closed by the remote end, or gets another port behind that. -/
def Sealed (s s' : System) : Prop :=
  ∀ u, has (s'.allData u).state UIP_CLIENT_REMOTECLOSED →
    has (s.allData u).state UIP_CLIENT_REMOTECLOSED ∧ (s'.allData u).lport = (s.allData u).lport

variable {s s' s₁ : System} {u : Fin UIP_CONNS} {data : Option (Fin UIP_CONNS)}

theorem Sealed.refl (s : System) : Sealed s s := fun _ h => ⟨h, rfl⟩

theorem Sealed.trans (h : Sealed s s₁) (h' : Sealed s₁ s') : Sealed s s' := by
  intro u hu
  obtain ⟨hu₁, hport₁⟩ := h' u hu
  obtain ⟨hu₀, hport₀⟩ := h u hu₁
  exact ⟨hu₀, hport₁.trans hport₀⟩

theorem Sealed.of_data (h : s'.allData = s.allData) : Sealed s s' := by
  intro u hu
  rw [h] at hu ⊢
  exact ⟨hu, rfl⟩

theorem setData_sealed {d : Userdata} (hstate : has d.state UIP_CLIENT_REMOTECLOSED →
    has (s.allData u).state UIP_CLIENT_REMOTECLOSED ∧ d.packetsOut = (s.allData u).packetsOut) :
    Sealed s (s.setData u d) := by
  intro v hv
  by_cases hvu : v = u
  · subst hvu
    rw [setData_self] at hv ⊢
    obtain ⟨hremote, hout⟩ := hstate hv
    exact ⟨hremote, by rw [Userdata.lport, hout]; rfl⟩
  · have hsame : (s.setData u d).allData v = s.allData v := Function.update_of_ne hvu _ _
    rw [hsame] at hv ⊢
    exact ⟨hv, rfl⟩

theorem eatIn_sealed (h : eatIn s u = some s') : Sealed s s' := by
  simp only [eatIn, Option.bind_eq_bind, Option.bind_eq_some_iff, Prod.exists] at h
  obtain ⟨net, block, -, h⟩ := h
  cases h
  exact setData_sealed (s := s.setNet net) fun h => ⟨h, rfl⟩

theorem flushIn_sealed (h : flushIn s u = some s') : Sealed s s' := by
  simp only [flushIn, Option.bind_eq_bind, Option.bind_eq_some_iff, Prod.exists] at h
  obtain ⟨net, block, -, h⟩ := h
  cases h
  exact setData_sealed (s := s.setNet net) fun h => ⟨h, rfl⟩

/-- A flag that is not the remote end's. -/
theorem setState_sealed {state : BitVec 8} (h : has state UIP_CLIENT_REMOTECLOSED → has (s.allData u).state UIP_CLIENT_REMOTECLOSED) :
    Sealed s (s.setState u state) := setData_sealed fun hremote => ⟨h hremote, rfl⟩

theorem stop_sealed (h : stop s data = some s') : Sealed s s' := by
  cases data with
  | none =>
    cases h
    exact .refl s
  | some u =>
    simp only [stop, Option.bind_eq_bind, Option.pure_def] at h
    split at h
    · cases h
      exact .refl s
    · obtain ⟨s₁, hflush, h⟩ := Option.bind_eq_some_iff.mp h
      cases h
      refine (flushIn_sealed hflush).trans (setState_sealed fun hremote => ?_)
      split at hremote
      · exact absurd hremote (by decide)
      · rwa [Tables.has_setFlag _ (by decide)] at hremote

theorem readBlock_sealed {empty : Bool} (h : readBlock s u = some (s', empty)) : Sealed s s' := by
  simp only [readBlock, Option.bind_eq_bind, Option.pure_def] at h
  obtain ⟨s₁, heat, h⟩ := Option.bind_eq_some_iff.mp h
  cases h
  refine (eatIn_sealed heat).trans ?_
  split
  · refine setState_sealed fun hremote => ?_
    rwa [Tables.has_setFlag _ (by decide)] at hremote
  · exact .refl s₁

theorem readLoop_sealed {fuel remain : Nat} {client : Option (Fin UIP_CONNS)} {bytes : List Byte}
    (h : readLoop u fuel remain s = some (s', client, bytes)) : Sealed s s' := by
  induction fuel generalizing remain s client bytes with
  | zero => cases h
  | succ fuel ih =>
    rw [readLoop] at h
    simp only [Option.bind_eq_bind, Option.pure_def] at h
    split at h
    · obtain ⟨⟨s₁, empty⟩, hblock, h⟩ := Option.bind_eq_some_iff.mp h
      have hrecord : ∀ e, Sealed s (s.record e) := fun e => .of_data rfl
      have h₁ : Sealed s s₁ := (hrecord _).trans (readBlock_sealed hblock)
      split at h
      · split at h <;> cases h
        · exact h₁.trans (setState_sealed fun h => absurd h (by decide))
        · exact h₁
      · split at h
        · obtain ⟨⟨s₂, client', rest⟩, hloop, h⟩ := Option.bind_eq_some_iff.mp h
          cases h
          exact h₁.trans (ih hloop)
        · cases h
          exact h₁
    · cases h
      exact .of_data rfl

theorem read_sealed {size : Nat} {client : Option (Fin UIP_CONNS)} {bytes : Option (List Byte)}
    (h : read s data size = some (s', client, bytes)) : Sealed s s' := by
  simp only [read, Option.bind_eq_bind, Option.pure_def] at h
  split at h
  · cases h
    exact .refl s
  · split at h
    · split at h
      · cases h
        exact .refl s
      · obtain ⟨⟨s₁, client', bytes'⟩, hloop, h⟩ := Option.bind_eq_some_iff.mp h
        cases h
        exact readLoop_sealed hloop
    · cases h
      exact .refl s

theorem flush_sealed (h : flush s data = some s') : Sealed s s' := by
  unfold flush at h
  split at h
  · cases h
    exact .refl s
  · split at h
    · exact flushIn_sealed h
    · cases h
      exact .refl s

/-- `_write` leaves an entry alone that is closed. -/
theorem attempt_sealed {now : BitVec 32} {buf : List Byte} {r : Attempt} (h : attempt s data now buf = some (s', r)) :
    Sealed s s' := by
  have hown := attempt_own h
  have htables := attempt_tables h
  intro v hv
  have hstate : (s'.allData v).state = (s.allData v).state := congrFun (congrArg Tables.state htables) v
  rw [hstate] at hv
  refine ⟨hv, ?_⟩
  by_cases hdata : data = some v
  · subst hdata
    have hclosed : has (s.allData v).state (UIP_CLIENT_CLOSE ||| UIP_CLIENT_REMOTECLOSED) := by
      rw [Tables.has_or, hv, Bool.or_true]
    rw [attempt, if_pos hclosed] at h
    cases h
    rfl
  · rw [hown.others v hdata]

end UIPClient

namespace System

variable {s s' : System}

theorem own_sealed {a : Action} (ha : a.isOwn) (h : s.step a = some s') : UIPClient.Sealed s s' := by
  cases a with
  | stop data => exact UIPClient.stop_sealed h
  | write data now buf =>
    obtain ⟨⟨s₁, r⟩, hattempt, rfl⟩ := Option.map_eq_some_iff.mp h
    exact UIPClient.attempt_sealed hattempt
  | read data size =>
    obtain ⟨⟨s₁, r⟩, hread, rfl⟩ := Option.map_eq_some_iff.mp h
    exact UIPClient.read_sealed hread
  | flush data => exact UIPClient.flush_sealed h
  | _ => cases ha

theorem own_paired {a : Action} (ha : a.isOwn) (h : s.step a = some s') (hp : s.tables.Paired) : s'.tables.Paired := by
  cases a with
  | stop data => exact UIPClient.stop_paired hp h
  | write data now buf =>
    obtain ⟨⟨s₁, r⟩, hattempt, rfl⟩ := Option.map_eq_some_iff.mp h
    rwa [UIPClient.attempt_tables hattempt]
  | read data size =>
    obtain ⟨⟨s₁, r⟩, hread, rfl⟩ := Option.map_eq_some_iff.mp h
    exact UIPClient.read_paired hp hread
  | flush data => exact UIPClient.flush_paired hp h
  | _ => cases ha

theorem PieceStep.paired {p : Piece} (h : PieceStep s p s') (hp : s.tables.Paired) : s'.tables.Paired := by
  by_cases hown : ∃ a, p = .call a ∧ a.isOwn
  · obtain ⟨a, rfl, ha⟩ := hown
    cases h with
    | call _ h => exact own_paired ha h hp
  · exact (h.session (fun a ha => Bool.eq_false_iff.mpr fun h => hown ⟨a, ha, h⟩) hp).2

/-- In every run from the start the connections and the entries are paired. -/
theorem run_paired {ps : List Piece} (h0 : s.tables = Tables.zero) (h : Run PieceStep s ps s') : s'.tables.Paired :=
  h.invariant (I := fun t => t.tables.Paired) (fun hp hs => hs.paired hp) (h0 ▸ Tables.zero_paired)

end System

-- ---------------------------------------------------------------------------
-- The ports of the entries
-- ---------------------------------------------------------------------------

/-- The system with the local port of the connection that has each entry, or
had it last. -/
structure Served where
  sys : System
  port : Fin UIP_CONNS → Nat

namespace Served

open UIPEthernet.System

def follow (t : Served) (s : System) : Served where
  sys := s
  port u := match s.holder u with
    | some c => (s.uipConns c).lport
    | none => t.port u

def Step (t : Served) (p : Piece) (t' : Served) : Prop := ∃ s, PieceStep t.sys p s ∧ t' = t.follow s

/-- The port of an entry is the one of its connection, or the one in it. -/
structure Named (t : Served) : Prop where
  paired : t.sys.tables.Paired
  attached : ∀ c u, (t.sys.uipConns c).appstate = some u → t.port u = (t.sys.uipConns c).lport
  closed : ∀ u, has (t.sys.allData u).state UIP_CLIENT_REMOTECLOSED → (t.sys.allData u).lport = t.port u

variable {t t' : Served} {s : System}

/-- The invariant behind a step, from what it does to the entries that the
remote end has closed. -/
theorem Named.follow (hp : s.tables.Paired)
    (hclosed : ∀ u, has (s.allData u).state UIP_CLIENT_REMOTECLOSED → (s.allData u).lport = t.port u) : (t.follow s).Named := by
  refine ⟨hp, fun c u happ => ?_, fun u hremote => ?_⟩
  · simp only [Served.follow, holder_some hp happ]
  · have hnone : s.holder u = none := holder_none (hp.unattached (.inr hremote))
    simp only [Served.follow, hnone]
    exact hclosed u hremote

theorem Named.turned {c : Fin UIP_CONNS} {rst : Prop} (hn : t.Named) (h : Turned c rst t.sys s) (hp : s.tables.Paired) :
    (t.follow s).Named := by
  refine .follow hp fun u hremote => ?_
  obtain ⟨-, -, hlife⟩ := h
  cases hlife with
  | idle _ hdata _ _ =>
    rw [hdata] at hremote ⊢
    exact hn.closed u hremote
  | attached v hentry hwithin hfate =>
    by_cases huv : u = v
    · subst huv
      cases hfate with
      | kept happ _ => exact absurd hremote (hp.attached c u happ).2
      | freed hstate _ =>
        rw [hstate] at hremote
        exact absurd hremote (by decide)
      | leftover _ _ hport _ => rw [hport, hn.attached c u hentry]
    · rw [hwithin.others u huv] at hremote ⊢
      exact hn.closed u hremote
  | fresh v _ _ hothers _ hnew =>
    by_cases huv : u = v
    · subst huv
      rcases hnew with ⟨happ, -⟩ | ⟨hstate, -⟩
      · exact absurd hremote (hp.attached c u happ).2
      · rw [hstate] at hremote
        exact absurd hremote (by decide)
    · rw [hothers u huv] at hremote ⊢
      exact hn.closed u hremote

theorem Named.step {p : Piece} (hn : t.Named) (h : Step t p t') : t'.Named := by
  obtain ⟨s, h, rfl⟩ := h
  by_cases hown : ∃ a, p = .call a ∧ a.isOwn
  · obtain ⟨a, rfl, ha⟩ := hown
    cases h with
    | call _ h =>
      refine .follow (own_paired ha h hn.paired) fun u hremote => ?_
      obtain ⟨hremote₀, hport⟩ := own_sealed ha h u hremote
      exact hport.trans (hn.closed u hremote₀)
  · obtain ⟨hs, hp⟩ := h.session (fun a ha => Bool.eq_false_iff.mpr fun h => hown ⟨a, ha, h⟩) hn.paired
    cases hs with
    | idle h =>
      refine .follow hp fun u hremote => ?_
      rw [h.data] at hremote ⊢
      exact hn.closed u hremote
    | turn c h => exact hn.turned h hp
    | opened c h =>
      refine .follow hp fun u hremote => ?_
      rw [h.data] at hremote ⊢
      exact hn.closed u hremote

theorem named_zero (h0 : t.sys.tables = Tables.zero) : t.Named := by
  have happ : ∀ c, (t.sys.uipConns c).appstate = none := congrFun (congrArg Tables.appstate h0)
  have hstate : ∀ u, (t.sys.allData u).state = 0 := congrFun (congrArg Tables.state h0)
  refine ⟨h0 ▸ Tables.zero_paired, fun c u h => ?_, fun u h => ?_⟩
  · exact absurd (h.symm.trans (happ c)) (Option.some_ne_none u)
  · rw [hstate] at h
    exact absurd h (by decide)

/-- Of the entries with unread data, those of connections with the port are
the ones with the port in the slot of their number; the remote end has closed
the others of them. -/
def Placed (t : Served) (port : Nat) : Prop :=
  ∀ u, (t.sys.allData u).packetsIn 0 ≠ NOBLOCK →
    ((t.sys.uipConns u).lport = port → t.port u = port) ∧
    (t.port u = port → (t.sys.uipConns u).lport = port ∨ has (t.sys.allData u).state UIP_CLIENT_REMOTECLOSED)

/-- What `available` looks for: the number of an entry in use is its index. -/
theorem Named.looked {u : Fin UIP_CONNS} {port : Nat} (hn : t.Named) (hdata : (t.sys.allData u).packetsIn 0 ≠ NOBLOCK) :
    (t.sys.uipConns (Fin.ofNat UIP_CONNS ((t.sys.allData u).state &&& UIP_CLIENT_SOCKETS).toNat)).lport = port ↔
      (t.sys.uipConns u).lport = port := by
  have hused : (t.sys.allData u).state ≠ 0 := fun h => hdata (hn.paired.empty u (.inl h))
  have hnumber : (t.sys.allData u).state &&& UIP_CLIENT_SOCKETS = BitVec.ofNat 8 u := hn.paired.number u hused
  have hsmall : ∀ u : Fin UIP_CONNS, Fin.ofNat UIP_CONNS (BitVec.ofNat 8 u).toNat = u := by decide
  rw [hnumber, hsmall]

/-- A server gets an entry with unread data of a connection with its port, and
gets one whenever there is one. -/
theorem available_serves {ps : List Piece} {port : Nat} (h0 : t.sys.tables = Tables.zero) (h : Run Step t ps t')
    (hplaced : t'.Placed port) :
    (∀ u, UIPServer.available t'.sys port = some u →
      (t'.sys.allData u).packetsIn 0 ≠ NOBLOCK ∧ t'.port u = port) ∧
    ((∃ u, (t'.sys.allData u).packetsIn 0 ≠ NOBLOCK ∧ t'.port u = port) →
      ∃ u, UIPServer.available t'.sys port = some u) := by
  have hn : t'.Named := h.invariant (fun hn hs => hn.step hs) (named_zero h0)
  constructor
  · intro u hfind
    have hserved := List.find?_some hfind
    simp only [decide_eq_true_eq] at hserved
    obtain ⟨hdata, hport⟩ := hserved
    refine ⟨hdata, ?_⟩
    rw [hn.looked hdata] at hport
    rcases hport with ⟨-, hport⟩ | ⟨hremote, hport⟩
    · exact (hplaced u hdata).1 hport
    · exact (hn.closed u hremote).symm.trans hport
  · rintro ⟨u, hdata, hport⟩
    refine Option.isSome_iff_exists.mp (List.find?_isSome.mpr ⟨u, List.mem_finRange u, ?_⟩)
    simp only [decide_eq_true_eq]
    refine ⟨hdata, ?_⟩
    rw [hn.looked hdata]
    by_cases hremote : has (t'.sys.allData u).state UIP_CLIENT_REMOTECLOSED
    · exact .inr ⟨hremote, (hn.closed u hremote).trans hport⟩
    · have hused : (t'.sys.allData u).state ≠ 0 := fun h => hdata (hn.paired.empty u (.inl h))
      obtain ⟨c, happ⟩ := hn.paired.held u hused hremote
      exact .inl ⟨(hn.paired.attached c u happ).1, ((hplaced u hdata).2 hport).resolve_right hremote⟩

-- ---------------------------------------------------------------------------
-- Two servers
-- ---------------------------------------------------------------------------

/-- Servers on the ports 7 and 8. -/
def twoServers : System :=
  (((System.init (fun _ => 0) [] [1, 2, 3, 4, 5, 6] 0).configure 0x0a000001 0 0xff000000).uipListen (htons 7)).uipListen (htons 8)

/-- A connection to port 7 with a byte of data. -/
def oneClient : System :=
  twoServers.arrive (ringSlot 70 (peerFrame 7 TCP_SYN 100 0 [0x99, 0x6e] []) ++
    ringSlot 140 (peerFrame 7 TCP_ACK 101 1 [0x21, 0x5d] [0x78])) 2

/-- The handshake of a connection to port 7 is behind that of one to port 8. -/
def overtaken : System :=
  twoServers.arrive (ringSlot 70 (peerFrame 7 TCP_SYN 100 0 [0x99, 0x6e] []) ++
    ringSlot 140 (peerFrame 8 TCP_SYN 100 0 [0x99, 0x6d] []) ++
    ringSlot 210 (peerFrame 8 TCP_ACK 101 1 [0x21, 0x5c] [0x78])) 3

/-- Behind the last of the pieces the entry is held by the connection. -/
theorem follow_held {c u : Fin UIP_CONNS} (hholder : s.holder u = some c) : (t.follow s).port u = (s.uipConns c).lport := by
  simp only [Served.follow, hholder]

theorem available_serves_example : ∃ (t t' : Served) (ps : List Piece), Run Step t ps t' ∧
    t'.port 0 = htons 7 ∧ UIPServer.available t'.sys (htons 7) = some 0 := by
  have hcompute : (oneClient.tickInput.bind fun s₁ => s₁.tickInput.map fun s₂ =>
      decide (s₂.holder 0 = some 0 ∧ (s₂.uipConns 0).lport = htons 7 ∧ (s₂.allData 0).packetsIn 0 ≠ NOBLOCK ∧
        ∀ u ≠ 0, (s₂.allData u).packetsIn 0 = NOBLOCK)) = some true := by
    decide +kernel
  have h0 : oneClient.tables = Tables.zero := rfl
  generalize oneClient = s at hcompute h0
  obtain ⟨s₁, h₁, hcompute⟩ := Option.bind_eq_some_iff.mp hcompute
  obtain ⟨s₂, h₂, hcompute⟩ := Option.map_eq_some_iff.mp hcompute
  obtain ⟨hholder, hlport, hdata, hothers⟩ := of_decide_eq_true hcompute
  let t : Served := ⟨s, fun _ => 0⟩
  have hrun : Run Step t [.input, .input] ((t.follow s₁).follow s₂) :=
    .snoc (.snoc .nil ⟨s₁, .input h₁, rfl⟩) ⟨s₂, .input h₂, rfl⟩
  have hport : ((t.follow s₁).follow s₂).port 0 = htons 7 := (follow_held hholder).trans hlport
  have hplaced : Placed ((t.follow s₁).follow s₂) (htons 7) := by
    intro u hu
    by_cases hzero : u = 0
    · subst hzero
      exact ⟨fun _ => hport, fun _ => .inl hlport⟩
    · exact absurd (hothers u hzero) hu
  obtain ⟨hsound, hcomplete⟩ := available_serves h0 hrun hplaced
  obtain ⟨u, hfound⟩ := hcomplete ⟨0, hdata, hport⟩
  have hzero : u = 0 := by
    by_contra hne
    exact (hsound u hfound).1 (hothers u hne)
  exact ⟨t, _, _, hrun, hport, hzero ▸ hfound⟩

/-- The connection to port 8 has the entry 0 and the slot 1: its data goes to
the server on port 7. -/
theorem available_other_port : ∃ (t t' : Served) (ps : List Piece) (u : Fin UIP_CONNS),
    t.sys.tables = Tables.zero ∧ Run Step t ps t' ∧ (t'.sys.allData u).packetsIn 0 ≠ NOBLOCK ∧ t'.port u = htons 8 ∧
    UIPServer.available t'.sys (htons 8) = none ∧ UIPServer.available t'.sys (htons 7) = some u := by
  have hcompute : (overtaken.tickInput.bind fun s₁ => s₁.tickInput.bind fun s₂ => s₂.tickInput.map fun s₃ =>
      decide (s₃.holder 0 = some 1 ∧ (s₃.uipConns 1).lport = htons 8 ∧ (s₃.allData 0).packetsIn 0 ≠ NOBLOCK ∧
        UIPServer.available s₃ (htons 8) = none ∧ UIPServer.available s₃ (htons 7) = some 0)) = some true := by
    decide +kernel
  have h0 : overtaken.tables = Tables.zero := rfl
  generalize overtaken = s at hcompute h0
  obtain ⟨s₁, h₁, hcompute⟩ := Option.bind_eq_some_iff.mp hcompute
  obtain ⟨s₂, h₂, hcompute⟩ := Option.bind_eq_some_iff.mp hcompute
  obtain ⟨s₃, h₃, hcompute⟩ := Option.map_eq_some_iff.mp hcompute
  obtain ⟨hholder, hlport, hdata, hnone, hsome⟩ := of_decide_eq_true hcompute
  let t : Served := ⟨s, fun _ => 0⟩
  have hrun : Run Step t [.input, .input, .input] (((t.follow s₁).follow s₂).follow s₃) :=
    .snoc (.snoc (.snoc .nil ⟨s₁, .input h₁, rfl⟩) ⟨s₂, .input h₂, rfl⟩) ⟨s₃, .input h₃, rfl⟩
  exact ⟨t, _, _, 0, h0, hrun, hdata, (follow_held hholder).trans hlport, hnone, hsome⟩

end Served

end UIPEthernet
