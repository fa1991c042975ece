import UIPEthernet.UIPClient.Tables
import UIPEthernet.UIPEthernetClass
import UIPEthernet.Lib.Run

/-!
# Connections and userdata entries correspond

Every piece of `uipclient_appcall`, and `read`, `flush` and `stop` with any
handle, keeps `Tables.Paired`, whatever the pool, the flags and the lengths
are. The rest of the stack may change everything else in between.
-/

namespace UIPEthernet.UIPClient

variable {s s' : System} {c u : Fin UIP_CONNS} {data : Option (Fin UIP_CONNS)}

/-- The tables while the callback serves the entry `u` of connection `c`. -/
structure Serving (s : System) (c u : Fin UIP_CONNS) : Prop where
  paired : s.tables.Paired
  entry : s.tables.appstate c = some u

theorem Serving.congr (h : Serving s c u) (ht : s'.tables = s.tables) : Serving s' c u :=
  ⟨ht ▸ h.paired, ht ▸ h.entry⟩

theorem eatIn_ok (h : eatIn s u = some s') :
    s'.tables = s.tables.setIn u (shift (s.tables.packetsIn u)) := by
  simp only [eatIn, eatBlock, Option.bind_eq_bind, Option.bind_eq_some_iff, Option.pure_def,
    Option.some.injEq, Prod.exists] at h
  obtain ⟨_, _, ⟨_, -, h₁⟩, rfl⟩ := h
  cases h₁
  exact System.tables_setPacketsIn _ _ _

theorem eatOut_ok (h : eatOut s u = some s') : s'.tables = s.tables := by
  simp only [eatOut, Option.bind_eq_bind, Option.bind_eq_some_iff, Option.pure_def,
    Option.some.injEq, Prod.exists] at h
  obtain ⟨_, _, -, rfl⟩ := h
  simp

theorem flushIn_ok (h : flushIn s u = some s') : s'.tables = s.tables.setIn u fun _ => NOBLOCK := by
  simp only [flushIn, flushBlocks, Option.bind_eq_bind, Option.bind_eq_some_iff, Option.pure_def,
    Option.some.injEq, Prod.exists] at h
  obtain ⟨_, _, ⟨_, -, h₁⟩, rfl⟩ := h
  cases h₁
  simp

theorem flushOut_ok (h : flushOut s u = some s') : s'.tables = s.tables := by
  simp only [flushOut, Option.bind_eq_bind, Option.bind_eq_some_iff, Option.pure_def,
    Option.some.injEq, Prod.exists] at h
  obtain ⟨_, _, -, rfl⟩ := h
  simp

-- ---------------------------------------------------------------------------
-- The callback
-- ---------------------------------------------------------------------------

theorem allocateData_ok (h : allocateData s = some (s', u)) :
    s.tables.state u = 0 ∧
      s'.tables = (s.tables.setState u (BitVec.ofNat 8 u ||| UIP_CLIENT_CONNECTED)).setIn u
        fun _ => NOBLOCK := by
  simp only [allocateData] at h
  split at h
  · cases h
  · rename_i sock hfind
    cases h
    have hfree := List.find?_some hfind
    exact ⟨of_decide_eq_true hfree, System.tables_setData _ _ _⟩

theorem attach_paired (h : s.tables.Paired) : (attach s c).tables.Paired := by
  simp only [attach]
  split
  · rename_i hnone
    split
    · exact h
    · rename_i hall
      obtain ⟨hfree, ht⟩ := allocateData_ok hall
      rw [System.tables_record, System.tables_setAppstate, ht]
      exact h.attach hfree hnone.1
  · exact h

theorem storeData_ok {slots : List (Fin UIP_SOCKET_NUMPACKETS)} {stored : Bool}
    (h : storeData c u slots s = some (s', stored)) : ∃ p, s'.tables = s.tables.setIn u p := by
  induction slots generalizing s with
  | nil =>
    obtain ⟨rfl, -⟩ := Prod.mk.inj (Option.some.inj h)
    exact ⟨s.tables.packetsIn u, by simp⟩
  | cons i rest ih =>
    rw [storeData] at h
    split at h
    · simp only [Option.bind_eq_bind, Option.bind_eq_some_iff, Prod.exists] at h
      obtain ⟨net, k, -, h⟩ := h
      split at h
      · obtain ⟨p, hp⟩ := ih h
        exact ⟨p, by simpa using hp⟩
      · simp only [Option.bind_eq_some_iff, Option.pure_def, Option.some.injEq, Prod.mk.injEq] at h
        obtain ⟨net', -, rfl, rfl⟩ := h
        refine ⟨Function.update (s.allData u).packetsIn i k, ?_⟩
        split <;> simp
    · exact ih h

theorem newdata_serving (hs : Serving s c u) (h : newdata s c u = some s') : Serving s' c u := by
  rw [newdata] at h
  split at h
  · rename_i hnew
    have hflags : ¬has (s.tables.state u) UIP_CLIENT_CLOSE := by
      have hnot := hnew.2.2
      rw [Tables.has_or] at hnot
      exact fun hc => hnot (by rw [show has (s.allData u).state UIP_CLIENT_CLOSE = true from hc]; rfl)
    simp only [Option.bind_eq_bind, Option.bind_eq_some_iff, Prod.exists] at h
    obtain ⟨s₁, stored, hstore, h⟩ := h
    obtain ⟨p, hp⟩ := storeData_ok hstore
    have hin : Serving s₁ c u := by
      refine ⟨hp ▸ hs.paired.setIn fun hu => ?_, hp ▸ hs.entry⟩
      exact absurd hu (not_or.mpr ⟨hs.paired.ne_zero hs.entry, hflags⟩)
    split at h
    · cases h
      exact hin
    · cases h
      exact hin.congr (System.tables_uipStop _ _)
  · cases h
    exact hs

theorem restart_serving (hs : Serving s c u) : Serving (restart s c u) c u := by
  rw [restart]
  split
  · have hne := hs.paired.ne_zero hs.entry
    have hstill : Tables.Paired (s.tables.setState u (s.tables.state u &&& ~~~UIP_CLIENT_RESTART)) := by
      refine hs.paired.setState hne (Tables.has_clearFlag _ (by decide))
        (Tables.has_clearFlag _ (by decide)) (Tables.clearFlag_other _ (by decide)) fun h => ?_
      rcases h with h0 | hclose
      · have hconn := (hs.paired.attached c u hs.entry).1
        have hsame := Tables.has_clearFlag (s.tables.state u)
          (show UIP_CLIENT_RESTART &&& UIP_CLIENT_CONNECTED = 0 by decide)
        rw [← hsame, h0] at hconn
        exact absurd hconn (by decide)
      · rw [Tables.has_clearFlag _ (by decide)] at hclose
        exact hs.paired.empty u (.inr hclose)
    exact ⟨by rw [System.tables_uipRestart, System.tables_setState]; exact hstill,
      by rw [System.tables_uipRestart, System.tables_setState]; exact hs.entry⟩
  · exact hs

theorem closed_paired (hs : Serving s c u) (h : closed s c u = some s') : s'.tables.Paired := by
  simp only [closed, Option.bind_eq_bind, Option.bind_eq_some_iff, Option.pure_def,
    Option.some.injEq] at h
  obtain ⟨s₁, hflush, rfl⟩ := h
  have ht := flushOut_ok hflush
  have hs₁ : Serving s₁ c u := hs.congr ht
  split
  · rename_i hin
    have hremote : ∀ x : BitVec 8, has (x ||| UIP_CLIENT_REMOTECLOSED) UIP_CLIENT_REMOTECLOSED := by decide
    rw [System.tables_setAppstate, System.tables_setState, System.tables_setPacketsOut]
    refine hs₁.paired.detach hs₁.entry (.inr (hremote _))
      (fun _ => Tables.setFlag_other _ (by decide)) fun h => ?_
    rcases h with h0 | hclose
    · exact absurd h0 (Tables.has_ne_zero (hremote _))
    · rw [Tables.has_setFlag _ (by decide)] at hclose
      exact hs₁.paired.empty u (.inr hclose)
  · rename_i hin
    rw [System.tables_setAppstate, System.tables_setState]
    exact hs₁.paired.detach hs₁.entry (.inl rfl) (fun h => absurd rfl h) fun _ => not_not.mp hin

theorem prepare_ok {sendLen : Nat} (h : prepare s c u sendLen = some s') : s'.tables = s.tables := by
  simp only [prepare, Option.bind_eq_bind, Option.pure_def] at h
  obtain ⟨⟨net, k⟩, -, h⟩ := Option.bind_eq_some_iff.mp h
  split at h
  · cases h
    rfl
  · obtain ⟨net', -, h⟩ := Option.bind_eq_some_iff.mp h
    cases h
    rfl

theorem cutHead_tables (s : System) (u : Fin UIP_CONNS) : (cutHead s u).tables = s.tables := by
  simp only [cutHead]
  split <;> rfl

theorem offer_ok {sendLen : Nat} (h : offer s c u = some (s', sendLen)) : s'.tables = s.tables := by
  simp only [offer, Option.bind_eq_bind, Option.pure_def] at h
  split at h
  · cases h
    rfl
  · obtain ⟨s₁, hprep, h⟩ := Option.bind_eq_some_iff.mp h
    cases h
    exact (prepare_ok hprep).trans (cutHead_tables s u)

@[simp] theorem finish_tables (s : System) (sendLen : Nat) : (finish s sendLen).tables = s.tables := by
  simp only [finish]
  split <;> rfl

theorem closing_paired (hs : Serving s c u) : (closing s c u).tables.Paired := by
  rw [closing]
  split
  · rename_i hclose
    split
    · rw [System.tables_setFlags, System.tables_setAppstate, System.tables_setState]
      exact hs.paired.detach hs.entry (.inl rfl) (fun h => absurd rfl h)
        fun _ => hs.paired.empty u (.inr hclose)
    · rw [System.tables_uipStop]
      exact hs.paired
  · exact hs.paired

theorem acked_tables (h : acked s u = some s') : s'.tables = s.tables := by
  rw [acked] at h
  split at h
  · exact eatOut_ok h
  · cases h
    rfl

theorem polled_paired (hs : Serving s c u) (h : polled s c u = some s') : s'.tables.Paired := by
  simp only [polled, Option.bind_eq_bind, Option.pure_def] at h
  split at h
  · obtain ⟨⟨s₁, sendLen⟩, hoffer, h⟩ := Option.bind_eq_some_iff.mp h
    cases h
    rw [finish_tables, offer_ok hoffer]
    exact hs.paired
  · cases h
    rw [finish_tables]
    exact closing_paired hs

theorem serve_paired (hs : Serving s c u) (h : serve s c u = some s') : s'.tables.Paired := by
  simp only [serve, Option.bind_eq_bind, Option.pure_def] at h
  obtain ⟨s₁, hnew, h⟩ := Option.bind_eq_some_iff.mp h
  have hs₁ := restart_serving (newdata_serving hs hnew)
  split at h
  · obtain ⟨s₂, hclosed, h⟩ := Option.bind_eq_some_iff.mp h
    cases h
    rw [finish_tables]
    exact closed_paired hs₁ hclosed
  · obtain ⟨s₂, hack, h⟩ := Option.bind_eq_some_iff.mp h
    exact polled_paired (hs₁.congr (acked_tables hack)) h

theorem appcall_paired (hp : s.tables.Paired) (h : uipclientAppcall s c = some s') :
    s'.tables.Paired := by
  have ha := attach_paired (c := c) hp
  simp only [uipclientAppcall] at h
  split at h
  · cases h
    rw [finish_tables]
    exact ha
  · rename_i u hu
    exact serve_paired ⟨ha, hu⟩ h

-- ---------------------------------------------------------------------------
-- The calls of the sketch
-- ---------------------------------------------------------------------------

theorem stop_paired (hp : s.tables.Paired) (h : stop s data = some s') : s'.tables.Paired := by
  cases data with
  | none =>
    cases h
    exact hp
  | some u =>
    rw [stop] at h
    split at h
    · cases h
      exact hp
    · rename_i hne
      simp only [Option.bind_eq_bind, Option.bind_eq_some_iff, Option.pure_def, Option.some.injEq] at h
      obtain ⟨s₁, hflush, rfl⟩ := h
      have ht := flushIn_ok hflush
      have hp₁ : s₁.tables.Paired := ht ▸ hp.setIn fun _ => rfl
      have hempty : s₁.tables.packetsIn u 0 = NOBLOCK := by rw [ht]; simp [Tables.setIn]
      have hne₁ : s₁.tables.state u ≠ 0 := by rw [ht]; exact hne
      rw [System.tables_setState]
      split
      · rename_i hr
        exact hp₁.release hr hempty
      · exact hp₁.setState hne₁ (Tables.has_setFlag _ (by decide)) (Tables.has_setFlag _ (by decide))
          (Tables.setFlag_other _ (by decide)) fun _ => hempty

theorem flush_paired (hp : s.tables.Paired) (h : flush s data = some s') : s'.tables.Paired := by
  cases data with
  | none =>
    cases h
    exact hp
  | some u =>
    rw [flush] at h
    split at h
    · rw [flushIn_ok h]
      exact hp.setIn fun _ => rfl
    · cases h
      exact hp

/-- The head block of an entry in use is taken away. -/
theorem readBlock_ok {empty : Bool} (hp : s.tables.Paired) (hin : s.tables.packetsIn u 0 ≠ NOBLOCK)
    (h : readBlock s u = some (s', empty)) :
    s'.tables.Paired ∧ (empty = true ↔ s'.tables.packetsIn u 0 = NOBLOCK) := by
  simp only [readBlock, Option.bind_eq_bind, Option.bind_eq_some_iff, Option.pure_def,
    Option.some.injEq, Prod.mk.injEq] at h
  obtain ⟨s₁, heat, rfl, rfl⟩ := h
  have hflags := fun hx => hin (hp.empty u hx)
  have hp₁ : s₁.tables.Paired := eatIn_ok heat ▸ hp.setIn fun hx => absurd hx hflags
  have hstate : s₁.tables.state = s.tables.state := by rw [eatIn_ok heat]; rfl
  refine ⟨?_, decide_eq_true_iff⟩
  split
  · rw [System.tables_setState]
    have hclose : ¬has (s₁.tables.state u) UIP_CLIENT_CLOSE := fun hc => hflags (.inr (hstate ▸ hc))
    have hne : s₁.tables.state u ≠ 0 := fun h0 => hflags (.inl (hstate ▸ h0))
    have hconn : ∀ x : BitVec 8, x ||| UIP_CLIENT_RESTART ≠ 0 := by decide
    refine hp₁.setState hne (Tables.has_setFlag _ (by decide)) (Tables.has_setFlag _ (by decide))
      (Tables.setFlag_other _ (by decide)) fun hx => ?_
    rcases hx with h0 | hc
    · exact absurd h0 (hconn _)
    · rw [Tables.has_setFlag _ (by decide)] at hc
      exact absurd hc hclose
  · exact hp₁

theorem readLoop_paired {fuel remain : Nat} {client : Option (Fin UIP_CONNS)} {bytes : List Byte}
    (hp : s.tables.Paired) (hin : s.tables.packetsIn u 0 ≠ NOBLOCK)
    (h : readLoop u fuel remain s = some (s', client, bytes)) : s'.tables.Paired := by
  induction fuel generalizing s remain client bytes with
  | zero => cases h
  | succ fuel ih =>
    simp only [readLoop, Option.bind_eq_bind, Option.pure_def] at h
    split at h
    · obtain ⟨⟨s₁, empty⟩, hblock, h⟩ := Option.bind_eq_some_iff.mp h
      obtain ⟨hp₁, hempty⟩ := readBlock_ok (s := s.record _) hp hin hblock
      simp only at h
      split at h
      · rename_i he
        split at h
        · rename_i hr
          cases h
          rw [System.tables_setState]
          exact hp₁.release hr (hempty.mp he)
        · cases h
          exact hp₁
      · rename_i he
        split at h
        · obtain ⟨⟨s₂, client₂, rest⟩, hrest, h⟩ := Option.bind_eq_some_iff.mp h
          cases h
          exact ih hp₁ (fun h0 => he (hempty.mpr h0)) hrest
        · cases h
          exact hp₁
    · cases h
      exact hp

theorem read_paired {size : Nat} {client : Option (Fin UIP_CONNS)} {bytes : Option (List Byte)}
    (hp : s.tables.Paired) (h : read s data size = some (s', client, bytes)) : s'.tables.Paired := by
  cases data with
  | none =>
    cases h
    exact hp
  | some u =>
    simp only [read] at h
    split at h
    · split at h
      · cases h
        exact hp
      · rename_i hin
        simp only [Option.bind_eq_bind, Option.bind_eq_some_iff, Option.pure_def, Option.some.injEq,
          Prod.mk.injEq, Prod.exists] at h
        obtain ⟨s₁, client₁, bytes₁, hloop, rfl, -, -⟩ := h
        exact readLoop_paired hp hin hloop
    · cases h
      exact hp

-- ---------------------------------------------------------------------------
-- Runs
-- ---------------------------------------------------------------------------

inductive Call
  | appcall (c : Fin UIP_CONNS)
  | read (data : Option (Fin UIP_CONNS)) (size : Nat)
  | flush (data : Option (Fin UIP_CONNS))
  | stop (data : Option (Fin UIP_CONNS))
deriving DecidableEq, Repr

def call (s : System) : Call → Option System
  | .appcall c => uipclientAppcall s c
  | .read data size => (read s data size).map (·.1)
  | .flush data => flush s data
  | .stop data => stop s data

/-- A call, after anything else has happened to what the tables do not hold:
the pool, the flags and lengths of uIP, the other fields of the connections. -/
def CallStep (s : System) (x : Call) (s' : System) : Prop :=
  ∃ t : System, t.tables = s.tables ∧ call t x = some s'

theorem CallStep.paired {x : Call} (hp : s.tables.Paired) (h : CallStep s x s') : s'.tables.Paired := by
  obtain ⟨t, ht, hcall⟩ := h
  rw [← ht] at hp
  cases x with
  | appcall c => exact appcall_paired hp hcall
  | read data size =>
    obtain ⟨⟨t', client, bytes⟩, hread, rfl⟩ := Option.map_eq_some_iff.mp hcall
    exact read_paired hp hread
  | flush data => exact flush_paired hp hcall
  | stop data => exact stop_paired hp hcall

theorem correspondence {es : List Call} (h0 : s.tables = Tables.zero) (h : Lib.Run CallStep s es s') :
    (∀ c c' u, (s'.uipConns c).appstate = some u → (s'.uipConns c').appstate = some u → c = c') ∧
    (∀ c u, (s'.uipConns c).appstate = some u →
      (s'.allData u).state ≠ 0 ∧ has (s'.allData u).state UIP_CLIENT_CONNECTED ∧
        ¬has (s'.allData u).state UIP_CLIENT_REMOTECLOSED) ∧
    (∀ u, (s'.allData u).state ≠ 0 → ¬has (s'.allData u).state UIP_CLIENT_REMOTECLOSED →
      ∃! c, (s'.uipConns c).appstate = some u) ∧
    (∀ u, (s'.allData u).state ≠ 0 →
      (s'.allData u).state &&& UIP_CLIENT_SOCKETS = BitVec.ofNat 8 u) := by
  have hp : s'.tables.Paired := h.invariant (fun hp hs => CallStep.paired hp hs) (h0 ▸ Tables.zero_paired)
  refine ⟨hp.distinct, fun c u hc => ⟨hp.ne_zero hc, hp.attached c u hc⟩, fun u hne hr => ?_, hp.number⟩
  obtain ⟨c, hc⟩ := hp.held u hne hr
  exact ⟨c, hc, fun c' hc' => hp.distinct c' c u hc' hc⟩

/-- Two connections get an entry each. The first is stopped and closed, and a
third one gets its entry. -/
theorem correspondence_example : ∃ s s' : System, Lib.Run CallStep s [.appcall 0, .appcall 1, .stop (some 0), .appcall 0, .appcall 2] s' ∧
    (s'.uipConns 0).appstate = none ∧ (s'.uipConns 1).appstate = some 1 ∧ (s'.uipConns 2).appstate = some 0 ∧
    ∀ u, (s'.allData u).state ≠ 0 → ¬has (s'.allData u).state UIP_CLIENT_REMOTECLOSED →
      ∃! c, (s'.uipConns c).appstate = some u := by
  let s : System := System.init (fun _ => 0) [] [] 0
  have hcompute : (uipclientAppcall (s.setFlags UIP_CONNECTED) 0).bind (fun s₁ => (uipclientAppcall (s₁.setFlags UIP_CONNECTED) 1).bind
      fun s₂ => (stop s₂ (some 0)).bind fun s₃ => (uipclientAppcall (s₃.setFlags UIP_CLOSE) 0).bind fun s₄ =>
      (uipclientAppcall (s₄.setFlags UIP_CONNECTED) 2).map fun s' => ((s'.uipConns 0).appstate, (s'.uipConns 1).appstate,
        (s'.uipConns 2).appstate)) = some (none, some 1, some 0) := by
    decide +kernel
  obtain ⟨s₁, h₁, hcompute⟩ := Option.bind_eq_some_iff.mp hcompute
  obtain ⟨s₂, h₂, hcompute⟩ := Option.bind_eq_some_iff.mp hcompute
  obtain ⟨s₃, h₃, hcompute⟩ := Option.bind_eq_some_iff.mp hcompute
  obtain ⟨s₄, h₄, hcompute⟩ := Option.bind_eq_some_iff.mp hcompute
  obtain ⟨s', h₅, hentries⟩ := Option.map_eq_some_iff.mp hcompute
  obtain ⟨hnone, hentries⟩ := Prod.mk.inj hentries
  obtain ⟨hsecond, hthird⟩ := Prod.mk.inj hentries
  have hrun : Lib.Run CallStep s ([] ++ [.appcall 0] ++ [.appcall 1] ++ [.stop (some 0)] ++ [.appcall 0] ++ [.appcall 2]) s' :=
    .snoc (.snoc (.snoc (.snoc (.snoc .nil ⟨s.setFlags UIP_CONNECTED, rfl, h₁⟩) ⟨s₁.setFlags UIP_CONNECTED, rfl, h₂⟩) ⟨s₂, rfl, h₃⟩)
      ⟨s₃.setFlags UIP_CLOSE, rfl, h₄⟩) ⟨s₄.setFlags UIP_CONNECTED, rfl, h₅⟩
  exact ⟨s, s', hrun, hnone, hsecond, hthird, (correspondence rfl hrun).2.2.1⟩

end UIPEthernet.UIPClient
