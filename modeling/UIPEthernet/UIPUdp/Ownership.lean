import UIPEthernet.UIPEthernetClass.Slots
import UIPEthernet.UIPUdp.Lengths

/-!
# The blocks of a socket

The calls of a `UIPUDP` object allocate, pass on and free its own blocks only.
The block in `packet_out` has room for the longest packet while it is written,
and is cut behind the bytes for as long as it is being sent.
-/

namespace UIPEthernet

open Enc28J60Network Lib

namespace Slot

variable {k : Nat} {x y : Slot}

/-- The blocks for received datagrams change places. -/
def swap (k : Nat) : Slot → Slot
  | packetNext j => if j = k then packetIn j else packetNext j
  | packetIn j => if j = k then packetNext j else packetIn j
  | x => x

theorem swap_swap : (x.swap k).swap k = x := by
  cases x with
  | packetNext j =>
    by_cases hj : j = k
    · simp only [swap, if_pos hj]
    · simp only [swap, if_neg hj]
  | packetIn j =>
    by_cases hj : j = k
    · simp only [swap, if_pos hj]
    · simp only [swap, if_neg hj]
  | _ => rfl

theorem swap_inj (h : x.swap k = y.swap k) : x = y := by
  rw [← swap_swap (x := x), h, swap_swap]

theorem swap_isOut (x : Slot) : (x.swap k).isOut = x.isOut := by
  cases x with
  | packetNext j =>
    rw [swap]
    split <;> rfl
  | packetIn j =>
    rw [swap]
    split <;> rfl
  | _ => rfl

theorem swap_other (hx : ¬x.ofSocket k) : x.swap k = x := by
  cases x with
  | packetNext j => exact if_neg hx
  | packetIn j => exact if_neg hx
  | _ => rfl

end Slot

namespace System

variable {s t : System} {k : Nat}

theorem own_beside (hdata : t.allData = s.allData) (hothers : ∀ j ≠ k, t.sockets j = s.sockets j) {x : Slot}
    (hx : ¬x.ofSocket k) : t.own x = s.own x := by
  cases x with
  | packetsIn u i => simp only [own, hdata]
  | packetsOut u i => simp only [own, hdata]
  | packetNext j => simp only [own, hothers j hx]
  | packetIn j => simp only [own, hothers j hx]
  | packetOut j => simp only [own, hothers j hx]

/-- Blocks of a socket are freed, and others passed on. -/
theorem Owned.socket (ho : s.Owned) (gone : Slot → Prop) (source : Slot → Slot) (hdata : t.allData = s.allData)
    (hothers : ∀ j ≠ k, t.sockets j = s.sockets j)
    (hsize : ∀ j, (∀ x, gone x → s.own x ≠ j) → t.sizeAt j = s.sizeAt j)
    (hself : ∀ x : Slot, x.ofSocket k → t.own x ≠ NOBLOCK → t.own x = s.own (source x) ∧ ¬gone (source x))
    (hinj : ∀ x y, source x = source y → x = y) (hkind : ∀ x, (source x).isOut = x.isOut)
    (hgone : ∀ x, gone x → x.ofSocket k) (hother : ∀ x : Slot, ¬x.ofSocket k → source x = x) :
    Retains (Slot.ofSocket k) s t := by
  refine ho.freed gone source hsize (fun x hx => ?_) hinj hkind fun x hx =>
    ⟨own_beside hdata hothers hx, fun hg => hx (hgone x hg)⟩
  by_cases hmine : x.ofSocket k
  · exact hself x hmine hx
  · rw [hother x hmine]
    exact ⟨own_beside hdata hothers hmine, fun hg => hmine (hgone x hg)⟩

/-- A slot of a socket gets a new block. -/
theorem Owned.socket_new {net : Enc28J60Network} {h : Handle} {n : Nat} {x : Slot} (ho : s.Owned)
    (halloc : s.net.allocBlock n = some (net, h)) (hn : n ≠ 0) (hx : x.ofSocket k) (hdata : t.allData = s.allData)
    (hothers : ∀ j ≠ k, t.sockets j = s.sockets j) (hblocks : t.net.blocks = net.blocks) (hsent : t.net.sent = net.sent)
    (hself : t.own x = h) (hrest : ∀ y : Slot, y.ofSocket k → y ≠ x → t.own y = s.own y) : Keeps (Slot.ofSocket k) s t := by
  refine ho.allocated halloc hn hx hblocks hsent hself fun y hy => ?_
  by_cases hmine : y.ofSocket k
  · exact hrest y hmine hy
  · exact own_beside hdata hothers hmine

end System

namespace UIPUDP

open UIPEthernet.System Slot

-- ---------------------------------------------------------------------------
-- Between two pieces of a run
-- ---------------------------------------------------------------------------

/-- The size of the block of a packet that is written or sent. -/
structure WellSized (data : UdpUserdata) (size : Nat) : Prop where
  idle : data.packetOut = NOBLOCK → data.send = false
  pos : data.packetOut ≠ NOBLOCK → UIP_UDP_PHYH_LEN + UIP_SENDBUFFER_OFFSET ≤ data.outPos ∧ data.outPos ≤ packetSize
  writing : data.packetOut ≠ NOBLOCK → data.send = false → size = packetSize
  sending : data.packetOut ≠ NOBLOCK → data.send = true →
    size = data.outPos + UIP_SENDBUFFER_PADDING ∧ data.outPos ≠ UIP_UDP_PHYH_LEN + UIP_SENDBUFFER_OFFSET

/-- The connection of a socket is in use, and points back to it. -/
def Bound (s : System) : Prop := ∀ k i, (s.sockets k).uipUdpConn = some i →
  (s.uipUdpConns i).lport ≠ 0 ∧ (s.uipUdpConns i).appstate = some k

/-- No packet is set up, and the blocks are where they belong. -/
structure Settled (s : System) : Prop where
  paired : s.tables.Paired
  owned : s.Owned
  sized : ∀ k, WellSized (s.sockets k).appdata (s.sizeAt (s.sockets k).appdata.packetOut)
  bound : Bound s
  unset : ¬has s.packetstate UIPETHERNET_SENDPACKET

variable {s s' s₁ : System} {i : Fin UIP_UDP_CONNS} {k : Nat}

theorem WellSized.congr {data : UdpUserdata} {size size' : Nat} (h : WellSized data size)
    (hsize : data.packetOut ≠ NOBLOCK → size' = size) : WellSized data size' :=
  ⟨h.idle, h.pos, fun hout hsend => (hsize hout).trans (h.writing hout hsend), fun hout hsend =>
    ⟨(hsize hout).trans (h.sending hout hsend).1, (h.sending hout hsend).2⟩⟩

theorem WellSized.empty {data : UdpUserdata} {size : Nat} (hout : data.packetOut = NOBLOCK) (hsend : data.send = false) :
    WellSized data size :=
  ⟨fun _ => hsend, fun h => absurd hout h, fun h => absurd hout h, fun h => absurd hout h⟩

/-- What happens to one socket. -/
theorem Settled.step (hs : Settled s) (hk : Retains (ofSocket k) s s') (htables : s'.tables.Paired)
    (hothers : ∀ j ≠ k, (s'.sockets j).appdata = (s.sockets j).appdata)
    (hself : WellSized (s'.sockets k).appdata (s'.sizeAt (s'.sockets k).appdata.packetOut)) (hbound : Bound s')
    (hunset : ¬has s'.packetstate UIPETHERNET_SENDPACKET) : Settled s' := by
  refine ⟨htables, hk.owned, fun j => ?_, hbound, hunset⟩
  by_cases hj : j = k
  · rw [hj]
    exact hself
  · rw [hothers j hj]
    exact (hs.sized j).congr fun hout => hk.size (.packetOut j) hj hout

/-- What happens to none. -/
theorem Settled.beside {mine : Slot → Prop} (hs : Settled s) (hk : Retains mine s s') (htables : s'.tables.Paired)
    (hmine : ∀ j, ¬mine (.packetOut j)) (hsockets : s'.sockets = s.sockets) (hconns : s'.uipUdpConns = s.uipUdpConns)
    (hunset : ¬has s'.packetstate UIPETHERNET_SENDPACKET) : Settled s' := by
  refine ⟨htables, hk.owned, fun j => ?_, fun j n hn => ?_, hunset⟩
  · rw [hsockets]
    exact (hs.sized j).congr fun hout => hk.size _ (hmine j) hout
  · rw [hsockets] at hn
    rw [hconns]
    exact hs.bound j n hn

-- ---------------------------------------------------------------------------
-- Connections
-- ---------------------------------------------------------------------------

/-- The connection becomes the socket's. -/
theorem Bound.attach (hb : Bound s) (hconn : (s'.sockets k).uipUdpConn = some i) (hport : (s'.uipUdpConns i).lport ≠ 0)
    (happ : (s'.uipUdpConns i).appstate = some k) (hothers : ∀ j ≠ k, s'.sockets j = s.sockets j)
    (hconns : ∀ j ≠ i, s'.uipUdpConns j = s.uipUdpConns j) (hfree : ∀ j ≠ k, (s.sockets j).uipUdpConn ≠ some i) :
    Bound s' := by
  intro j n hn
  by_cases hj : j = k
  · subst hj
    obtain rfl := Option.some.inj (hconn.symm.trans hn)
    exact ⟨hport, happ⟩
  · rw [hothers j hj] at hn
    have hne : n ≠ i := by
      rintro rfl
      exact hfree j hj hn
    rw [hconns n hne]
    exact hb j n hn

/-- The socket gives its connection up. -/
theorem Bound.detach (hb : Bound s) (hconn : (s'.sockets k).uipUdpConn = none)
    (hothers : ∀ j ≠ k, s'.sockets j = s.sockets j)
    (hconns : ∀ j n, j ≠ k → (s.sockets j).uipUdpConn = some n → s'.uipUdpConns n = s.uipUdpConns n) : Bound s' := by
  intro j n hn
  by_cases hj : j = k
  · subst hj
    exact absurd (hn.symm.trans hconn) (Option.some_ne_none n)
  · rw [hothers j hj] at hn
    rw [hconns j n hj hn]
    exact hb j n hn

/-- No other socket has the connection. -/
theorem Bound.alone (hb : Bound s) (hconn : (s.sockets k).uipUdpConn = some i) {j : Nat} (hj : j ≠ k) :
    (s.sockets j).uipUdpConn ≠ some i :=
  fun h => hj (Option.some.inj ((hb _ _ h).2.symm.trans (hb _ _ hconn).2))

theorem localPort_unused {inUse : Nat → Bool} {fuel lastport port : Nat} (h : localPort inUse fuel lastport = some port) :
    inUse (htons port) = false := by
  induction fuel generalizing lastport with
  | zero => cases h
  | succ fuel ih =>
    simp only [localPort] at h
    split at h
    · exact ih h
    · rename_i hfree
      cases h
      exact Bool.eq_false_iff.mpr hfree

/-- Only the connection of the socket may change. -/
structure Rebound (k : Nat) (s s' : System) : Prop where
  net : s'.net = s.net
  allData : s'.allData = s.allData
  packetstate : s'.packetstate = s.packetstate
  others : ∀ j ≠ k, s'.sockets j = s.sockets j
  appdata : (s'.sockets k).appdata = (s.sockets k).appdata

theorem Rebound.data (h : Rebound k s s') (j : Nat) : (s'.sockets j).appdata = (s.sockets j).appdata := by
  by_cases hj : j = k
  · rw [hj, h.appdata]
  · rw [h.others j hj]

theorem Rebound.own (h : Rebound k s s') : s'.own = s.own := by
  funext x
  cases x <;> simp only [System.own, h.allData, h.data]

theorem Settled.rebound (hs : Settled s) (h : Rebound k s s') (htables : s'.tables.Paired) (hbound : Bound s') :
    Settled s' := by
  refine ⟨htables, ?_, fun j => ?_, hbound, ?_⟩
  · have hretains : Retains (fun _ => False) s s' :=
      hs.owned.same (fun x => by rw [h.own]) fun x _ => by rw [sizeAt, sizeAt, h.net]
    exact hretains.owned
  · rw [h.data, sizeAt, h.net]
    exact hs.sized j
  · rw [h.packetstate]
    exact hs.unset

/-- A free connection for a socket that has none, or no connection. -/
theorem newConn_rebound {ripaddr : Option (BitVec 32)} {rport : Nat} (h : newConn s k ripaddr rport = some s') :
    Rebound k s s' ∧ ((s'.sockets k).uipUdpConn = none ∧ s'.uipUdpConns = s.uipUdpConns ∨
      ∃ i, (s'.sockets k).uipUdpConn = some i ∧ (s.uipUdpConns i).lport = 0 ∧ (s'.uipUdpConns i).lport ≠ 0 ∧
        ∀ j ≠ i, s'.uipUdpConns j = s.uipUdpConns j) := by
  simp only [newConn, uipUdpNew, Option.bind_eq_bind, Option.pure_def] at h
  obtain ⟨⟨s₁, conn⟩, hnew, h⟩ := Option.bind_eq_some_iff.mp h
  obtain ⟨port, hport, hnew⟩ := Option.bind_eq_some_iff.mp hnew
  have hsocket : ∀ (t : System) f, (t.mapSocket k f).sockets k = f (t.sockets k) := fun t f => Function.update_self ..
  have hothers : ∀ (t : System) f, ∀ j ≠ k, (t.mapSocket k f).sockets j = t.sockets j :=
    fun t f j hj => Function.update_of_ne hj ..
  split at hnew
  · cases hnew
    cases h
    refine ⟨⟨rfl, rfl, rfl, hothers _ _, ?_⟩, .inl ⟨?_, rfl⟩⟩
    · rw [hsocket]
    · rw [hsocket]
  · rename_i n hfind
    have hfree : (s.uipUdpConns n).lport = 0 := of_decide_eq_true (List.find?_some (p := fun j => decide ((s.uipUdpConns j).lport = 0)) hfind)
    cases hnew
    cases h
    refine ⟨⟨rfl, rfl, rfl, hothers _ _, ?_⟩, .inr ⟨n, ?_, hfree, ?_, fun j hj => Function.update_of_ne hj ..⟩⟩
    · rw [hsocket]
    · rw [hsocket]
    · -- a port that is free is not that of a free connection
      have hlport : (Function.update s.uipUdpConns n { s.uipUdpConns n with
          lport := htons port, rport, ripaddr := ripaddr.getD 0, ttl := UIP_TTL } n).lport = htons port := by
        rw [Function.update_self]
      refine fun h0 => ?_
      have hunused := localPort_unused hport
      have hused : (List.finRange UIP_UDP_CONNS).any (fun i => decide ((s.uipUdpConns i).lport = htons port)) = true :=
        List.any_eq_true.mpr ⟨n, List.mem_finRange n, decide_eq_true (hfree.trans (hlport.symm.trans h0).symm)⟩
      exact absurd (hused.symm.trans hunused) (by decide)

theorem begin_settled {port : Nat} {success : Bool} (hs : Settled s) (hport : htons port ≠ 0)
    (h : begin s k port = some (s', success)) : Settled s' ∧ s'.net.sent = s.net.sent := by
  have htables : s'.tables.Paired := by
    rw [(begin_aside h).tables]
    exact hs.paired
  have hattach : ∀ {t : System} {n}, Rebound k s t → (t.sockets k).uipUdpConn = some n →
      (∀ j ≠ n, t.uipUdpConns j = s.uipUdpConns j) → (∀ j ≠ k, (s.sockets j).uipUdpConn ≠ some n) →
      s' = t.mapUdpConn n (fun conn => { conn with lport := htons port, appstate := some k }) →
      Settled s' ∧ s'.net.sent = s.net.sent := by
    rintro t n hr hconn hconns hfree rfl
    refine ⟨hs.rebound ⟨hr.net, hr.allData, hr.packetstate, hr.others, hr.appdata⟩ htables ?_, by rw [← hr.net]; rfl⟩
    have hself : (t.mapUdpConn n fun conn => { conn with lport := htons port, appstate := some k }).uipUdpConns n =
        { t.uipUdpConns n with lport := htons port, appstate := some k } := Function.update_self ..
    refine hs.bound.attach hconn ?_ ?_ hr.others (fun j hj => (Function.update_of_ne hj ..).trans (hconns j hj)) hfree
    · rw [hself]
      exact hport
    · rw [hself]
  simp only [begin, Option.bind_eq_bind, Option.pure_def] at h
  split at h
  · rename_i hnone
    obtain ⟨s₁, hnew, h⟩ := Option.bind_eq_some_iff.mp h
    obtain ⟨hr, hconn⟩ := newConn_rebound hnew
    split at h
    · rename_i hnone₁
      cases h
      refine ⟨hs.rebound hr htables (hs.bound.detach hnone₁ hr.others fun j n _ hn => ?_), by rw [hr.net]⟩
      obtain ⟨-, hconns⟩ | ⟨m, hm, -⟩ := hconn
      · rw [hconns]
      · exact absurd (hm.symm.trans hnone₁) (Option.some_ne_none m)
    · rename_i n hn
      obtain ⟨hnone₁, -⟩ | ⟨m, hm, hfree, -, hconns⟩ := hconn
      · exact absurd (hn.symm.trans hnone₁) (Option.some_ne_none n)
      · obtain rfl := Option.some.inj (hm.symm.trans hn)
        cases h
        exact hattach hr hm hconns (fun j _ hj => (hs.bound j m hj).1 hfree) rfl
  · rename_i hopen
    rw [Option.bind_some] at h
    split at h
    · rename_i hnone
      exact absurd hnone hopen
    · rename_i n hn
      cases h
      exact hattach ⟨rfl, rfl, rfl, fun _ _ => rfl, rfl⟩ hn (fun _ _ => rfl) (fun j hj => hs.bound.alone hn hj) rfl

/-- A remote end does not matter. -/
theorem mapUdpConn_remote (hb : Bound s) (f : UdpConn → UdpConn) (hport : (f (s.uipUdpConns i)).lport = (s.uipUdpConns i).lport)
    (happ : (f (s.uipUdpConns i)).appstate = (s.uipUdpConns i).appstate) : Bound (s.mapUdpConn i f) := by
  intro j n hn
  by_cases hni : n = i
  · subst hni
    have hself : (s.mapUdpConn n f).uipUdpConns n = f (s.uipUdpConns n) := Function.update_self ..
    rw [hself, hport, happ]
    exact hb j n hn
  · have hother : (s.mapUdpConn i f).uipUdpConns n = s.uipUdpConns n := Function.update_of_ne hni ..
    rw [hother]
    exact hb j n hn

theorem setRemote_rebound {ip : BitVec 32} {port : Nat} (hb : Bound s) (h : setRemote s k ip port = some s') :
    Rebound k s s' ∧ Bound s' := by
  have hrefl : Rebound k s s := ⟨rfl, rfl, rfl, fun _ _ => rfl, rfl⟩
  simp only [setRemote] at h
  split at h
  · simp only [connectTo, Option.bind_eq_bind, Option.pure_def] at h
    split at h
    · cases h
      exact ⟨⟨rfl, rfl, rfl, fun _ _ => rfl, rfl⟩, mapUdpConn_remote hb _ rfl rfl⟩
    · obtain ⟨s₁, hnew, h⟩ := Option.bind_eq_some_iff.mp h
      obtain ⟨hr, hconn⟩ := newConn_rebound hnew
      split at h
      · rename_i hnone
        cases h
        refine ⟨hr, hb.detach hnone hr.others fun j n _ _ => ?_⟩
        obtain ⟨-, hconns⟩ | ⟨m, hm, -⟩ := hconn
        · rw [hconns]
        · exact absurd (hm.symm.trans hnone) (Option.some_ne_none m)
      · rename_i n hn
        obtain ⟨hnone, -⟩ | ⟨m, hm, hfree, hport, hconns⟩ := hconn
        · exact absurd (hn.symm.trans hnone) (Option.some_ne_none n)
        · obtain rfl := Option.some.inj (hm.symm.trans hn)
          cases h
          have hself : (s₁.mapUdpConn m fun conn => { conn with appstate := some k }).uipUdpConns m =
              { s₁.uipUdpConns m with appstate := some k } := Function.update_self ..
          refine ⟨⟨hr.net, hr.allData, hr.packetstate, hr.others, hr.appdata⟩, hb.attach hm ?_ ?_ hr.others
            (fun j hj => (Function.update_of_ne hj ..).trans (hconns j hj)) fun j _ hj => (hb j m hj).1 hfree⟩
          · rw [hself]
            exact hport
          · rw [hself]
  · cases h
    exact ⟨hrefl, hb⟩

-- ---------------------------------------------------------------------------
-- The calls that do not send
-- ---------------------------------------------------------------------------

section
variable (s : System) (k : Nat) (f : UdpUserdata → UdpUserdata)

theorem mapAppdata_others : ∀ j ≠ k, (s.mapAppdata k f).sockets j = s.sockets j := fun _ hj => Function.update_of_ne hj ..

theorem mapAppdata_bound (hb : Bound s) : Bound (s.mapAppdata k f) := by
  intro j n hn
  refine hb j n ?_
  by_cases hj : j = k
  · rw [hj] at hn ⊢
    rwa [mapAppdata_conn] at hn
  · rwa [mapAppdata_others s k f j hj] at hn

end

/-- The handles of the socket stay. -/
theorem own_mapAppdata {f : UdpUserdata → UdpUserdata}
    (hnext : (f (s.sockets k).appdata).packetNext = (s.sockets k).appdata.packetNext)
    (hin : (f (s.sockets k).appdata).packetIn = (s.sockets k).appdata.packetIn)
    (hout : (f (s.sockets k).appdata).packetOut = (s.sockets k).appdata.packetOut) : (s.mapAppdata k f).own = s.own := by
  funext x
  by_cases hx : x.ofSocket k
  · cases x with
    | packetNext j =>
      obtain rfl : j = k := hx
      simp only [own, mapAppdata_appdata, hnext]
    | packetIn j =>
      obtain rfl : j = k := hx
      simp only [own, mapAppdata_appdata, hin]
    | packetOut j =>
      obtain rfl : j = k := hx
      simp only [own, mapAppdata_appdata, hout]
    | _ => exact hx.elim
  · exact own_beside (s := s) (t := s.mapAppdata k f) rfl (mapAppdata_others s k f) hx

theorem beginPacket_settled {ip : BitVec 32} {port : Nat} {success : Bool} (hs : Settled s)
    (h : beginPacket s k ip port = some (s', success)) : Settled s' ∧ s'.net.sent = s.net.sent := by
  have htables : s'.tables.Paired := by
    rw [(beginPacket_aside h).tables]
    exact hs.paired
  simp only [beginPacket, Option.bind_eq_bind, Option.pure_def] at h
  obtain ⟨s₁, hremote, h⟩ := Option.bind_eq_some_iff.mp h
  obtain ⟨hr, hb⟩ := setRemote_rebound hs.bound hremote
  have htables₁ : s₁.tables.Paired := by
    have haside : s₁.tables = s.tables := by
      simp only [setRemote] at hremote
      split at hremote
      · exact (connectTo_aside hremote).tables
      · cases hremote
        rfl
    rw [haside]
    exact hs.paired
  have hs₁ := hs.rebound hr htables₁ hb
  have hroom : UIP_UDP_PHYH_LEN + UIP_SENDBUFFER_OFFSET ≤ packetSize := by decide
  split at h
  · rename_i hopen
    obtain ⟨⟨net, b⟩, halloc, h⟩ := Option.bind_eq_some_iff.mp h
    cases h
    have hkeeps : System.Keeps (ofSocket k) s₁ ((s₁.setNet net).mapAppdata k fun data =>
        { data with packetOut := b, outPos := UIP_UDP_PHYH_LEN + UIP_SENDBUFFER_OFFSET }) := by
      refine hs₁.owned.socket_new (x := .packetOut k) halloc (by decide) rfl rfl (mapAppdata_others _ k _) rfl rfl ?_ ?_
      · simp only [own, mapAppdata_appdata]
      · rintro y hy hne
        cases y with
        | packetNext j =>
          obtain rfl : j = k := hy
          simp only [own, mapAppdata_appdata, setNet_sockets]
        | packetIn j =>
          obtain rfl : j = k := hy
          simp only [own, mapAppdata_appdata, setNet_sockets]
        | packetOut j =>
          obtain rfl : j = k := hy
          exact absurd rfl hne
        | _ => exact hy.elim
    refine ⟨hs₁.step hkeeps.toRetains htables (fun j hj => by rw [mapAppdata_others _ k _ j hj]; rfl) ?_
      (mapAppdata_bound _ k _ hs₁.bound) hs₁.unset, by rw [hkeeps.sent, hr.net]⟩
    rw [mapAppdata_appdata]
    have hsend : (s₁.sockets k).appdata.send = false := (hs₁.sized k).idle hopen.2
    refine ⟨fun _ => hsend, fun _ => ⟨Nat.le_refl _, hroom⟩, fun hb _ => allocBlock_new halloc hb, fun _ hset => ?_⟩
    exact absurd (hsend.symm.trans hset) Bool.false_ne_true
  · cases h
    exact ⟨hs₁, by rw [hr.net]⟩

/-- A packet that is being sent must not be written to. -/
theorem write_settled {buffer : List Byte} (hs : Settled s) (hwrite : (s.sockets k).appdata.send = false ∨ buffer = []) :
    Settled (write s k buffer).1 ∧ (write s k buffer).1.net.sent = s.net.sent := by
  have htables : (write s k buffer).1.tables.Paired := by
    rw [(write_aside buffer).tables]
    exact hs.paired
  simp only [write] at htables ⊢
  split
  · exact ⟨hs, rfl⟩
  · rename_i hout
    rw [if_neg hout] at htables
    dsimp only at htables ⊢
    have hmax : packetSize = 1550 := rfl
    obtain ⟨hlow, hhigh⟩ := (hs.sized k).pos hout
    let ret := (s.net.writePacket (s.sockets k).appdata.packetOut (s.sockets k).appdata.outPos buffer).2
    have hret : ret = clip (s.net.blocks (s.sockets k).appdata.packetOut) (s.sockets k).appdata.outPos buffer.length := rfl
    have hkept : buffer = [] → add16 (s.sockets k).appdata.outPos ret = (s.sockets k).appdata.outPos := by
      rintro rfl
      have hnone : ret = 0 := by
        rw [hret, clip]
        exact if_neg (Nat.not_lt_zero _)
      rw [hnone]
      exact add16_eq (by omega)
    have hfits : (s.sockets k).appdata.send = false → (s.sockets k).appdata.outPos ≤ add16 (s.sockets k).appdata.outPos ret ∧
        add16 (s.sockets k).appdata.outPos ret ≤ packetSize := by
      intro hsend
      have hsize : (s.net.blocks (s.sockets k).appdata.packetOut).size = packetSize := (hs.sized k).writing hout hsend
      have hle : ret ≤ packetSize - (s.sockets k).appdata.outPos := by
        rw [hret, clip, hsize, sub16_eq hhigh (by omega)]
        split <;> omega
      rw [add16_eq (by omega)]
      omega
    have hbound : Bound (s.setNet (s.net.writePacket (s.sockets k).appdata.packetOut (s.sockets k).appdata.outPos buffer).1) :=
      hs.bound
    refine ⟨hs.step (hs.owned.same ?_ fun _ _ => rfl) htables
      (fun j hj => by rw [mapAppdata_others _ k _ j hj]; rfl) ?_ (mapAppdata_bound _ k _ hbound) hs.unset, rfl⟩
    · exact fun x => by rw [own_mapAppdata rfl rfl rfl]; rfl
    · rw [mapAppdata_appdata]
      refine ⟨(hs.sized k).idle, fun hout => ?_, fun hout hsend => ?_, fun hout hsend => ?_⟩
      · rcases hwrite with hsend | hbuffer
        · obtain ⟨hle, hle'⟩ := hfits hsend
          exact ⟨hlow.trans hle, hle'⟩
        · exact (hkept hbuffer).symm ▸ ⟨hlow, hhigh⟩
      · exact (hs.sized k).writing hout hsend
      · have hbuffer := hwrite.resolve_left fun h => absurd (h.symm.trans hsend) Bool.false_ne_true
        exact (hkept hbuffer).symm ▸ (hs.sized k).sending hout hsend

theorem stop_settled (hs : Settled s) (h : stop s k = some s') : Settled s' ∧ s'.net.sent = s.net.sent := by
  have htables : s'.tables.Paired := by
    rw [(stop_aside h).tables]
    exact hs.paired
  simp only [stop, Option.bind_eq_bind, Option.pure_def] at h
  split at h
  · cases h
    exact ⟨hs, rfl⟩
  · rename_i n hn
    obtain ⟨net₁, hin, h⟩ := Option.bind_eq_some_iff.mp h
    obtain ⟨net₂, hnext, h⟩ := Option.bind_eq_some_iff.mp h
    obtain ⟨net₃, hout, h⟩ := Option.bind_eq_some_iff.mp h
    cases h
    generalize ht : ((s.mapUdpConn n fun conn => { conn with lport := 0, appstate := none }).setNet net₃).mapSocket k
      (fun _ => ⟨none, start⟩) = t at htables ⊢
    have hnet : t.net = net₃ := by rw [← ht]; rfl
    have hself : t.sockets k = ⟨none, start⟩ := by
      rw [← ht]
      exact Function.update_self ..
    have hothers : ∀ j ≠ k, t.sockets j = s.sockets j := fun j hj => by
      rw [← ht]
      exact Function.update_of_ne hj ..
    have hconns : ∀ j ≠ n, t.uipUdpConns j = s.uipUdpConns j := fun j hj => by
      rw [← ht]
      exact Function.update_of_ne hj ..
    have hnone : ∀ x : Slot, x.ofSocket k → t.own x = NOBLOCK := by
      intro x hx
      cases x with
      | packetNext j =>
        obtain rfl : j = k := hx
        simp only [own, hself, start]
      | packetIn j =>
        obtain rfl : j = k := hx
        simp only [own, hself, start]
      | packetOut j =>
        obtain rfl : j = k := hx
        simp only [own, hself, start]
      | _ => exact hx.elim
    have hretains : Retains (ofSocket k) s t := by
      refine hs.owned.socket (ofSocket k) id (by rw [← ht]; rfl) hothers (fun j hj => ?_)
        (fun x hx hne => absurd (hnone x hx) hne) (fun _ _ h => h) (fun _ => rfl) (fun _ h => h) fun _ _ => rfl
      rw [sizeAt, hnet, freeBlock_size hout (hj (.packetOut k) rfl).symm, freeBlock_size hnext (hj (.packetNext k) rfl).symm]
      exact freeBlock_size hin (hj (.packetIn k) rfl).symm
    refine ⟨hs.step hretains htables (fun j hj => by rw [hothers j hj]) ?_ ?_ ?_, ?_⟩
    · rw [hself]
      exact .empty rfl rfl
    · refine hs.bound.detach (by rw [hself]) hothers fun j m hj hm => hconns m ?_
      rintro rfl
      exact hs.bound.alone hn hj hm
    · rw [← ht]
      exact hs.unset
    · rw [hnet, freeBlock_sent hout, freeBlock_sent hnext]
      exact freeBlock_sent hin

/-- What happens to the received blocks of a socket. -/
theorem Settled.received (hs : Settled s) {net : Enc28J60Network} {f : UdpUserdata → UdpUserdata}
    (hk : Retains (ofSocket k) s ((s.setNet net).mapAppdata k f)) (htables : ((s.setNet net).mapAppdata k f).tables.Paired)
    (hout : (f (s.sockets k).appdata).packetOut = (s.sockets k).appdata.packetOut)
    (hpos : (f (s.sockets k).appdata).outPos = (s.sockets k).appdata.outPos)
    (hsend : (f (s.sockets k).appdata).send = (s.sockets k).appdata.send)
    (hsize : (s.sockets k).appdata.packetOut ≠ NOBLOCK →
      (net.blocks (s.sockets k).appdata.packetOut).size = s.sizeAt (s.sockets k).appdata.packetOut) :
    Settled ((s.setNet net).mapAppdata k f) := by
  refine hs.step hk htables (fun j hj => by rw [mapAppdata_others _ k _ j hj]; rfl) ?_
    (mapAppdata_bound _ k _ hs.bound) hs.unset
  rw [mapAppdata_appdata, setNet_sockets, hout]
  obtain ⟨hidle, hpos', hwriting, hsending⟩ := (hs.sized k).congr hsize
  exact ⟨fun h => hsend.trans (hidle (hout.symm.trans h)), fun h => hpos.symm ▸ hpos' (hout ▸ h),
    fun h hset => hwriting (hout ▸ h) (hsend.symm.trans hset),
    fun h hset => hpos.symm ▸ hsending (hout ▸ h) (hsend.symm.trans hset)⟩

theorem out_ne_in (ho : s.Owned) (hout : (s.sockets k).appdata.packetOut ≠ NOBLOCK) :
    (s.sockets k).appdata.packetOut ≠ (s.sockets k).appdata.packetIn := by
  have hown : s.own (.packetOut k) ≠ NOBLOCK := hout
  refine ho.ne (y := .packetIn k) hown ?_
  rintro ⟨⟩

/-- The block in `packet_in` is freed. -/
theorem freed_in {net : Enc28J60Network} (ho : s.Owned) (hfree : s.net.freeBlock (s.sockets k).appdata.packetIn = some net)
    (hout : (s.sockets k).appdata.packetOut ≠ NOBLOCK) :
    (net.blocks (s.sockets k).appdata.packetOut).size = s.sizeAt (s.sockets k).appdata.packetOut :=
  freeBlock_size hfree (out_ne_in ho hout)

theorem dropIn_settled {net : Enc28J60Network} (hs : Settled s)
    (hfree : s.net.freeBlock (s.sockets k).appdata.packetIn = some net) :
    Settled ((s.setNet net).mapAppdata k fun data => { data with packetIn := NOBLOCK }) := by
  refine hs.received ?_ hs.paired rfl rfl rfl (freed_in hs.owned hfree)
  refine hs.owned.socket (fun x => x = .packetIn k) id rfl (mapAppdata_others _ k _)
    (fun j hj => freeBlock_size hfree (hj _ rfl).symm) (fun x hx hne => ?_) (fun _ _ h => h) (fun _ => rfl) ?_ fun _ _ => rfl
  · cases x with
    | packetNext j =>
      obtain rfl : j = k := hx
      refine ⟨by simp only [own, mapAppdata_appdata, setNet_sockets, id], ?_⟩
      rintro ⟨⟩
    | packetIn j =>
      obtain rfl : j = k := hx
      simp only [own, mapAppdata_appdata] at hne
      exact absurd rfl hne
    | packetOut j =>
      obtain rfl : j = k := hx
      refine ⟨by simp only [own, mapAppdata_appdata, setNet_sockets, id], ?_⟩
      rintro ⟨⟩
    | _ => exact hx.elim
  · rintro x rfl
    exact rfl

theorem parsePacket_settled {size : Nat} (hs : Settled s) (h : parsePacket s k = some (s', size)) :
    Settled s' ∧ s'.net.sent = s.net.sent := by
  simp only [parsePacket, Option.bind_eq_bind, Option.pure_def] at h
  obtain ⟨net, hfree, h⟩ := Option.bind_eq_some_iff.mp h
  cases h
  refine ⟨hs.received ?_ hs.paired rfl rfl rfl (freed_in hs.owned hfree), freeBlock_sent hfree⟩
  refine hs.owned.socket (fun x => x = .packetIn k) (swap k) rfl (mapAppdata_others _ k _)
    (fun j hj => freeBlock_size hfree (hj _ rfl).symm) (fun x hx hne => ?_) (fun _ _ => swap_inj) swap_isOut ?_
    fun _ => swap_other
  · cases x with
    | packetNext j =>
      obtain rfl : j = k := hx
      simp only [own, mapAppdata_appdata] at hne
      exact absurd rfl hne
    | packetIn j =>
      obtain rfl : j = k := hx
      refine ⟨by simp only [own, mapAppdata_appdata, setNet_sockets, swap, if_true], ?_⟩
      simp only [swap, if_true]
      rintro ⟨⟩
    | packetOut j =>
      obtain rfl : j = k := hx
      refine ⟨by simp only [own, mapAppdata_appdata, setNet_sockets, swap], ?_⟩
      rintro ⟨⟩
    | _ => exact hx.elim
  · rintro x rfl
    exact rfl

theorem read_settled {len : Nat} {bytes : List Byte} (hs : Settled s) (h : read s k len = some (s', bytes)) :
    Settled s' ∧ s'.net.sent = s.net.sent := by
  simp only [read, Option.bind_eq_bind, Option.pure_def] at h
  split at h
  · cases h
    exact ⟨hs, rfl⟩
  · rename_i hin
    split at h
    · obtain ⟨net, hfree, h⟩ := Option.bind_eq_some_iff.mp h
      cases h
      exact ⟨dropIn_settled hs hfree, freeBlock_sent hfree⟩
    · rename_i hrest
      cases h
      have hkeeps : System.Keeps (ofSocket k) s _ := hs.owned.read_rest (x := .packetIn k) rfl hin rfl hrest
      refine ⟨hs.step hkeeps.toRetains hs.paired (fun _ _ => rfl) ?_ hs.bound hs.unset, hkeeps.sent⟩
      have hne : (s.sockets k).appdata.packetOut ≠ NOBLOCK → _ := out_ne_in (s := s) hs.owned
      exact (hs.sized k).congr fun hout => resizeBlock_other _ (hne hout)

theorem flush_settled (hs : Settled s) (h : flush s k = some s') : Settled s' ∧ s'.net.sent = s.net.sent := by
  simp only [flush, Option.bind_eq_bind, Option.pure_def] at h
  obtain ⟨net, hfree, h⟩ := Option.bind_eq_some_iff.mp h
  cases h
  exact ⟨dropIn_settled hs hfree, freeBlock_sent hfree⟩

-- ---------------------------------------------------------------------------
-- A datagram that comes in
-- ---------------------------------------------------------------------------

/-- An empty datagram gets no block of its own. -/
theorem queue_settled {size : Nat} (hs : Settled s) (hsize : size ≠ 0) (h : queue s k size = some s') :
    Settled s' ∧ s'.net.sent = s.net.sent := by
  simp only [queue, Option.bind_eq_bind, Option.pure_def] at h
  obtain ⟨⟨net, b⟩, halloc, h⟩ := Option.bind_eq_some_iff.mp h
  have hkept : (s.sockets k).appdata.packetOut ≠ NOBLOCK →
      (net.blocks (s.sockets k).appdata.packetOut).size = s.sizeAt (s.sockets k).appdata.packetOut := fun hout =>
    (allocBlock_size halloc (hs.owned.live (x := .packetOut k) hout) hout).2
  have hput : ∀ net' : Enc28J60Network, net'.blocks = net.blocks → net'.sent = net.sent →
      Settled ((s.setNet net').mapAppdata k fun data => { data with packetNext := b }) ∧ net'.sent = s.net.sent := by
    intro net' hblocks hsent
    refine ⟨hs.received ?_ hs.paired rfl rfl rfl (by rwa [hblocks]), hsent.trans (allocBlock_sent halloc)⟩
    suffices hkeeps : System.Keeps (ofSocket k) s _ from hkeeps.toRetains
    refine hs.owned.socket_new (x := .packetNext k) halloc hsize rfl rfl (mapAppdata_others _ k _) hblocks hsent ?_ ?_
    · simp only [own, mapAppdata_appdata]
    · rintro y hy hne
      cases y with
      | packetNext j =>
        obtain rfl : j = k := hy
        exact absurd rfl hne
      | packetIn j =>
        obtain rfl : j = k := hy
        simp only [own, mapAppdata_appdata, setNet_sockets]
      | packetOut j =>
        obtain rfl : j = k := hy
        simp only [own, mapAppdata_appdata, setNet_sockets]
      | _ => exact hy.elim
  split at h
  · cases h
    exact hput net rfl rfl
  · obtain ⟨net', hcopy, h⟩ := Option.bind_eq_some_iff.mp h
    cases h
    exact hput net' (copyPacket_blocks hcopy) (copyPacket_sent hcopy)

theorem received_settled (hs : Settled s)
    (hsize : (s.sockets k).appdata.packetNext = NOBLOCK → payloadSize s ≠ 0) (h : received s i k = some s') :
    Settled s' ∧ s'.net.sent = s.net.sent := by
  simp only [received] at h
  split at h
  · rename_i hnew
    let s₁ := s.mapUdpConn i fun conn =>
      { conn with rport := s.uip.uipBuf.u16 Offset.srcport, ripaddr := s.uip.uipBuf.be32 Offset.srcipaddr }
    have hs₁ : Settled s₁ := ⟨hs.paired, hs.owned, hs.sized, mapUdpConn_remote hs.bound _ rfl rfl, hs.unset⟩
    have hq : queue s₁ k (payloadSize s) = some s' := h
    have hqueued := queue_settled hs₁ (hsize hnew.2) hq
    exact hqueued
  · cases h
    exact ⟨hs, rfl⟩

theorem appcall_settled (hs : Settled s) (hflags : s.uip.uipFlags = UIP_NEWDATA)
    (hsize : ∀ k, (s.uipUdpConns i).appstate = some k → (s.sockets k).appdata.packetNext = NOBLOCK → payloadSize s ≠ 0)
    (h : uipudpAppcall s i = some s') : Settled s' ∧ s'.net.sent = s.net.sent := by
  unfold uipudpAppcall at h
  split at h
  · cases h
    exact ⟨hs, rfl⟩
  · rename_i k happ
    simp only [Option.bind_eq_bind, Option.pure_def] at h
    obtain ⟨s₁, hreceived, h⟩ := Option.bind_eq_some_iff.mp h
    cases h
    rw [polled_newdata (received_next hflags hreceived).1]
    exact received_settled hs (hsize k happ) hreceived

-- ---------------------------------------------------------------------------
-- The calls that send
-- ---------------------------------------------------------------------------

/-- No connection, entry or socket changes. -/
structure Still (s s' : System) : Prop extends Unmoved s s' where
  sockets : s'.sockets = s.sockets
  udpConns : s'.uipUdpConns = s.uipUdpConns

theorem Still.trans (h : Still s s₁) (h' : Still s₁ s') : Still s s' :=
  ⟨h.toUnmoved.trans h'.toUnmoved, h'.sockets.trans h.sockets, h'.udpConns.trans h.udpConns⟩

theorem OnlyUip.still (h : OnlyUip s s') : Still s s' := ⟨h.unmoved, h.sockets, h.uipUdpConns⟩

theorem OnlySent.still (h : OnlySent s s') : Still s s' := ⟨h.unmoved, h.sockets, h.uipUdpConns⟩

theorem prepared_still : Still s (prepared s k) := ⟨⟨rfl, rfl, rfl⟩, rfl, rfl⟩

theorem Settled.still {mine : Slot → Prop} (hs : Settled s) (h : Still s s') (hk : Retains mine s s')
    (hmine : ∀ j, ¬mine (.packetOut j)) (hunset : ¬has s'.packetstate UIPETHERNET_SENDPACKET) : Settled s' := by
  refine hs.beside hk ?_ hmine h.sockets h.udpConns hunset
  rw [h.tables]
  exact hs.paired

theorem Settled.onlyUip (hs : Settled s) (h : OnlyUip s s') : Settled s' := by
  have hkeeps : System.Keeps (fun _ => False) s s' := h.keeps hs.owned
  refine hs.still (OnlyUip.still h) hkeeps.toRetains (fun _ => id) ?_
  rw [h.packetstate]
  exact hs.unset

/-- A packet of the socket is set up, with its headers in `uip_buf`. -/
structure Ready (s : System) (k : Nat) (s₁ : System) : Prop where
  only : OnlyUip (prepared s k) s₁
  out : (s.sockets k).appdata.packetOut ≠ NOBLOCK
  send : (s.sockets k).appdata.send = true
  len : s₁.uip.uipLen + UIP_LLH_LEN + 1 = (s.sockets k).appdata.outPos
  data : s₁.uip.uipLen ≠ UIP_IPUDPH_LEN

theorem timer_ready (hs : Settled s) (h : s.uipUdpTimer i = some s₁) : OnlyUip s s₁ ∧ s₁.uip.uipLen = 0 ∨
    ∃ k, (s.uipUdpConns i).appstate = some k ∧ Ready s k s₁ := by
  simp only [uipUdpTimer, Option.bind_eq_bind] at h
  split at h
  · generalize hs₀ : (((s.setAppdata (UIP_LLH_LEN + UIP_IPUDPH_LEN)).setLen 0).setSlen 0).setFlags UIP_POLL = s₀ at h
    have h₀ : OnlyUip s s₀ := by rw [← hs₀]; rfl
    have hflags : s₀.uip.uipFlags = UIP_POLL := by rw [← hs₀]; rfl
    have hslen : s₀.uip.uipSlen = 0 := by rw [← hs₀]; rfl
    obtain ⟨s₂, hcall, h⟩ := Option.bind_eq_some_iff.mp h
    obtain ⟨honly, hlen⟩ := udpSend_only h
    have hquiet : s₂ = s₀ → OnlyUip s s₁ ∧ s₁.uip.uipLen = 0 := by
      rintro rfl
      exact ⟨h₀.trans honly, hlen.trans (if_pos hslen)⟩
    cases happ : (s.uipUdpConns i).appstate with
    | none =>
      have happ₀ : (s₀.uipUdpConns i).appstate = none := by rw [h₀.uipUdpConns, happ]
      simp only [uipudpAppcall, happ₀] at hcall
      cases hcall
      exact .inl (hquiet rfl)
    | some k =>
      have happ₀ : (s₀.uipUdpConns i).appstate = some k := by rw [h₀.uipUdpConns, happ]
      rw [appcall_poll happ₀ hflags] at hcall
      obtain rfl := Option.some.inj hcall
      by_cases hsend : (s.sockets k).appdata.send = true
      · have hset : has s₀.uip.uipFlags UIP_POLL ∧ (s₀.sockets k).appdata.send := by
          rw [hflags, h₀.sockets]
          exact ⟨by decide, hsend⟩
        have hpolled : polled s₀ k = (prepared s₀ k).setSlen
          (sub16 (s₀.sockets k).appdata.outPos (UIP_UDP_PHYH_LEN + UIP_SENDBUFFER_OFFSET)) := if_pos hset
        have hout : (s.sockets k).appdata.packetOut ≠ NOBLOCK := fun hnone =>
          Bool.false_ne_true (((hs.sized k).idle hnone).symm.trans hsend)
        obtain ⟨hlow, hhigh⟩ := (hs.sized k).pos hout
        have hne := ((hs.sized k).sending hout hsend).2
        have hroom : UIP_UDP_PHYH_LEN + UIP_SENDBUFFER_OFFSET = 43 := rfl
        have hmax : packetSize = 1550 := rfl
        have hip : UIP_IPUDPH_LEN = 28 := rfl
        have hllh : UIP_LLH_LEN = 14 := rfl
        have hslen₂ : (polled s₀ k).uip.uipSlen = (s.sockets k).appdata.outPos - 43 := by
          rw [hpolled, h₀.sockets]
          exact sub16_eq hlow (by omega)
        have hprep : OnlyUip (prepared s k) (prepared s₀ k) := by
          rw [← hs₀]
          rfl
        rw [hslen₂, if_neg (by omega), add16_eq (by omega)] at hlen
        refine .inr ⟨k, rfl, (hprep.trans ?_).trans honly, hout, hsend, by omega, by omega⟩
        rw [hpolled]
        exact setSlen_only _
      · have hunset : ¬(has s₀.uip.uipFlags UIP_POLL ∧ (s₀.sockets k).appdata.send) := fun hset =>
          hsend (h₀.sockets ▸ hset.2)
        exact .inl (hquiet (if_neg hunset))
  · cases h
    exact .inl ⟨rfl, rfl⟩

/-- The block of a packet that has gone out is given back. -/
theorem sent_settled {s₂ : System} (hs : Settled s) (hstill : Still s s₂) (hunset : ¬has s₂.packetstate UIPETHERNET_SENDPACKET)
    (hsize : ∀ j, j ≠ (s.sockets k).appdata.packetOut → s₂.sizeAt j = s.sizeAt j) :
    Settled (s₂.mapAppdata k fun data => { data with send := false, packetOut := NOBLOCK }) := by
  have hothers : ∀ j ≠ k, (s₂.mapAppdata k fun data => { data with send := false, packetOut := NOBLOCK }).sockets j =
      s.sockets j := fun j hj => by rw [mapAppdata_others _ k _ j hj, hstill.sockets]
  have hdata : (s₂.mapAppdata k fun data => { data with send := false, packetOut := NOBLOCK }).allData = s.allData :=
    hstill.data
  have htables : (s₂.mapAppdata k fun data => { data with send := false, packetOut := NOBLOCK }).tables.Paired := by
    have haside : (s₂.mapAppdata k fun data => { data with send := false, packetOut := NOBLOCK }).tables = s.tables :=
      hstill.tables
    rw [haside]
    exact hs.paired
  have hretains : Retains (ofSocket k) s (s₂.mapAppdata k fun data => { data with send := false, packetOut := NOBLOCK }) := by
    refine hs.owned.socket (fun x => x = .packetOut k) id hdata hothers (fun j hj => hsize j (hj _ rfl).symm)
      (fun x hx hne => ?_) (fun _ _ h => h) (fun _ => rfl) ?_ fun _ _ => rfl
    · cases x with
      | packetNext j =>
        obtain rfl : j = k := hx
        refine ⟨by simp only [own, mapAppdata_appdata, hstill.sockets, id], ?_⟩
        rintro ⟨⟩
      | packetIn j =>
        obtain rfl : j = k := hx
        refine ⟨by simp only [own, mapAppdata_appdata, hstill.sockets, id], ?_⟩
        rintro ⟨⟩
      | packetOut j =>
        obtain rfl : j = k := hx
        simp only [own, mapAppdata_appdata] at hne
        exact absurd rfl hne
      | _ => exact hx.elim
    · rintro x rfl
      exact rfl
  have hbound : Bound s₂ := fun j n hn => by
    rw [hstill.sockets] at hn
    rw [hstill.udpConns]
    exact hs.bound j n hn
  refine hs.step hretains htables (fun j hj => by rw [hothers j hj]) ?_ (mapAppdata_bound _ k _ hbound) hunset
  rw [mapAppdata_appdata]
  exact .empty rfl rfl

/-- The packet is as long as the block says, and an ARP request in its place
goes out of `uip_buf`. -/
theorem send_settled (hs : Settled s) (hr : Ready s k s₁) (h : send s₁ k = some s') : Settled s' ∧ Exact s s' := by
  have hroom : UIP_UDP_PHYH_LEN + UIP_SENDBUFFER_OFFSET = 43 := rfl
  have hmax : packetSize = 1550 := rfl
  have hpad : UIP_SENDBUFFER_PADDING = 7 := rfl
  have hframe : UIP_SENDBUFFER_OFFSET + UIP_SENDBUFFER_PADDING = 8 := rfl
  have hllh : UIP_LLH_LEN = 14 := rfl
  have hip : UIP_IPUDPH_LEN = 28 := rfl
  have harphdr : UIP_ARPHDRSIZE = 42 := rfl
  obtain ⟨hlow, hhigh⟩ := (hs.sized k).pos hr.out
  obtain ⟨hsize, -⟩ := (hs.sized k).sending hr.out hr.send
  have hlen := hr.len
  have harp := arpOut_cases s₁.uip
  simp only [send, Option.bind_eq_bind, Option.pure_def] at h
  generalize hs₂ : s₁.mapUip Uip.arpOut = s₂ at h
  have honly : OnlyUip (prepared s k) s₂ := by
    rw [← hs₂]
    exact hr.only.trans (mapUip_only _)
  have huip : s₂.uip = s₁.uip.arpOut := by
    rw [← hs₂]
    rfl
  have hstill : Still s s₂ := prepared_still.trans (OnlyUip.still honly)
  have hnet : s₂.net = s.net := honly.net
  have hkeeps : System.Keeps (fun _ => False) s s₂ :=
    hs.owned.aside hstill.data hstill.sockets (by rw [hnet]) (by rw [hnet])
  rw [← huip] at harp
  split at h
  · rename_i hrequest
    generalize hs₃ : (s₂.setUipPacket NOBLOCK).setPacketstate (s₂.packetstate &&& ~~~UIPETHERNET_SENDPACKET) = s₃ at h
    have hclear : OnlySent s₂ s₃ := by
      rw [← hs₃]
      rfl
    have hunset : ¬has s₃.packetstate UIPETHERNET_SENDPACKET := by
      rw [← hs₃]
      exact fun h => Bool.false_ne_true ((has_clear _).symm.trans h)
    have hnet₃ : s₃.net = s.net := by
      rw [← hs₃]
      exact hnet
    have hlen₃ : s₃.uip.uipLen = 42 := by
      rw [← hs₃]
      exact hrequest
    have hstill₃ : Still s s₃ := hstill.trans (OnlySent.still hclear)
    have hkeeps₃ : System.Keeps (fun _ => False) s s₃ :=
      hs.owned.aside hstill₃.data hstill₃.sockets (by rw [hnet₃]) (by rw [hnet₃])
    obtain ⟨⟨s₄, ok⟩, hsend, h⟩ := Option.bind_eq_some_iff.mp h
    cases h
    have hexact : Exact s₃ s₄ := by
      refine networkSend_exact hsend ?_
      rw [frameLength, if_neg hunset, hlen₃]
    refine ⟨hs.still (hstill₃.trans (OnlySent.still (networkSend_only hsend)))
      (hkeeps₃.toRetains.trans (networkSend_retains hkeeps₃.owned hsend fun hset => absurd hset hunset)) (fun _ => id)
      (networkSend_state hsend).2, hexact.before hkeeps₃.sent⟩
  · rename_i hdata
    obtain ⟨hlen₂, -⟩ | ⟨hrequest, -⟩ := harp
    · rw [add16_eq (by omega)] at hlen₂
      have hset : has s₂.packetstate UIPETHERNET_SENDPACKET := by
        rw [honly.packetstate]
        exact has_set _
      have hpacket : s₂.uipPacket = (s.sockets k).appdata.packetOut := honly.uipPacket
      obtain ⟨⟨s₃, ok⟩, hsend, h⟩ := Option.bind_eq_some_iff.mp h
      have hexact : Exact s₂ s₃ := by
        refine networkSend_exact hsend ?_
        have hblock : (s₂.net.blocks s₂.uipPacket).size = s.sizeAt (s.sockets k).appdata.packetOut := by
          rw [hnet, hpacket]
          rfl
        rw [frameLength, if_pos hset, hblock, hsize, sub16_eq (by omega) (by omega)]
        omega
      have hstill₃ : Still s s₃ := hstill.trans (OnlySent.still (networkSend_only hsend))
      have hunset := (networkSend_state hsend).2
      split at h
      · cases h
        refine ⟨sent_settled hs hstill₃ hunset fun j hj => ?_, hexact.before hkeeps.sent⟩
        rw [networkSend_others hsend hset (hpacket ▸ hj), sizeAt, hnet]
        rfl
      · rename_i hfailed
        cases h
        exact ⟨hs.still hstill₃ (hkeeps.toRetains.trans (networkSend_retains hkeeps.owned hsend fun _ hok => absurd hok hfailed))
          (fun _ => id) hunset, hexact.before hkeeps.sent⟩
    · exact absurd hrequest hdata

/-- A packet without payload would be set up and never sent. -/
theorem ended_settled (hs : Settled s) (hout : (s.sockets k).appdata.packetOut ≠ NOBLOCK)
    (hdata : (s.sockets k).appdata.outPos ≠ UIP_UDP_PHYH_LEN + UIP_SENDBUFFER_OFFSET) :
    Settled ((s.setNet (s.net.resizeBlockTo (s.sockets k).appdata.packetOut 0
      (add16 (s.sockets k).appdata.outPos UIP_SENDBUFFER_PADDING))).mapAppdata k fun data => { data with send := true }) := by
  have hmax : packetSize = 1550 := rfl
  have hpad : UIP_SENDBUFFER_PADDING = 7 := rfl
  obtain ⟨hlow, hhigh⟩ := (hs.sized k).pos hout
  have hsize : add16 (s.sockets k).appdata.outPos UIP_SENDBUFFER_PADDING =
      (s.sockets k).appdata.outPos + UIP_SENDBUFFER_PADDING := add16_eq (by omega)
  rw [hsize]
  have hown : ((s.setNet (s.net.resizeBlockTo (s.sockets k).appdata.packetOut 0
      ((s.sockets k).appdata.outPos + UIP_SENDBUFFER_PADDING))).mapAppdata k fun data => { data with send := true }).own =
      s.own := (own_mapAppdata rfl rfl rfl).trans rfl
  have hself : ((s.net.resizeBlockTo (s.sockets k).appdata.packetOut 0
      ((s.sockets k).appdata.outPos + UIP_SENDBUFFER_PADDING)).blocks (s.sockets k).appdata.packetOut).size =
      (s.sockets k).appdata.outPos + UIP_SENDBUFFER_PADDING := resizeBlockTo_self 0
  refine hs.step (hs.owned.resized (x := .packetOut k) rfl hown (fun _ => ?_)
    fun j hj => resizeBlockTo_other 0 hj) hs.paired (fun j hj => by rw [mapAppdata_others _ k _ j hj]; rfl) ?_
    (mapAppdata_bound _ k _ hs.bound) hs.unset
  · exact ⟨hself.trans_ne (by omega), fun _ => hself.trans_lt (by omega)⟩
  · rw [mapAppdata_appdata]
    refine ⟨fun hnone => absurd hnone hout, fun _ => ⟨hlow, hhigh⟩, fun _ hset => ?_, fun _ _ => ⟨hself, hdata⟩⟩
    exact absurd hset.symm Bool.false_ne_true

theorem endPacket_settled {success : Bool} (hs : Settled s)
    (hdata : (s.sockets k).appdata.packetOut ≠ NOBLOCK →
      (s.sockets k).appdata.outPos ≠ UIP_UDP_PHYH_LEN + UIP_SENDBUFFER_OFFSET)
    (h : endPacket s k = some (s', success)) : Settled s' ∧ Exact s s' := by
  simp only [endPacket, Option.bind_eq_bind, Option.pure_def] at h
  split at h
  · cases h
    exact ⟨hs, .none rfl⟩
  · rename_i n hn
    split at h
    · cases h
      exact ⟨hs, .none rfl⟩
    · rename_i hout
      have hs₁ := ended_settled hs hout (hdata hout)
      generalize ht : (s.setNet (s.net.resizeBlockTo (s.sockets k).appdata.packetOut 0
        (add16 (s.sockets k).appdata.outPos UIP_SENDBUFFER_PADDING))).mapAppdata k (fun data => { data with send := true }) = t
        at hs₁ h
      have hsent : t.net.sent = s.net.sent := by rw [← ht]; rfl
      have hconn : (t.sockets k).uipUdpConn = some n := by
        rw [← ht, mapAppdata_conn]
        exact hn
      have happ : (t.uipUdpConns n).appstate = some k := (hs₁.bound k n hconn).2
      obtain ⟨s₁, htimer, h⟩ := Option.bind_eq_some_iff.mp h
      obtain ⟨honly, hlen⟩ | ⟨j, hj, hready⟩ := timer_ready hs₁ htimer
      · have hnone : ¬0 < s₁.uip.uipLen := by omega
        simp only [if_neg hnone] at h
        cases h
        exact ⟨hs₁.onlyUip honly, .none (by rw [honly.net, hsent])⟩
      · obtain rfl := Option.some.inj (happ.symm.trans hj)
        split at h
        · obtain ⟨s₂, hsend, h⟩ := Option.bind_eq_some_iff.mp h
          cases h
          obtain ⟨hs₂, hexact⟩ := send_settled hs₁ hready hsend
          exact ⟨hs₂, hexact.before hsent⟩
        · rename_i hnone
          have hip : UIP_IPUDPH_LEN = 28 := rfl
          have hdata₁ := (hs₁.sized k).sending hready.out hready.send
          have hlow := ((hs₁.sized k).pos hready.out).1
          have hroom : UIP_UDP_PHYH_LEN + UIP_SENDBUFFER_OFFSET = 43 := rfl
          have hllh : UIP_LLH_LEN = 14 := rfl
          have hlen := hready.len
          omega

/-- The turn of `tick` for a UDP connection. -/
theorem tickUdp_settled (hs : Settled s) (h : s.tickUdp i = some s') : Settled s' ∧ Exact s s' := by
  simp only [tickUdp, Option.bind_eq_bind, Option.pure_def] at h
  obtain ⟨s₁, htimer, h⟩ := Option.bind_eq_some_iff.mp h
  obtain ⟨honly, hlen⟩ | ⟨k, hk, hready⟩ := timer_ready hs htimer
  · rw [if_neg (by omega)] at h
    cases h
    exact ⟨hs.onlyUip honly, .none (by rw [honly.net])⟩
  · have hroom : UIP_UDP_PHYH_LEN + UIP_SENDBUFFER_OFFSET = 43 := rfl
    have hllh : UIP_LLH_LEN = 14 := rfl
    have hlow := ((hs.sized k).pos hready.out).1
    have hlen := hready.len
    have happ : (s₁.uipUdpConns i).appstate = some k := by
      rw [hready.only.uipUdpConns]
      exact hk
    rw [if_pos (by omega)] at h
    simp only [happ] at h
    exact send_settled hs hready h

end UIPUDP

end UIPEthernet
