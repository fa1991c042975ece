import UIPEthernet.UIPEthernetClass
import UIPEthernet.Enc28J60Network.Sharing

/-!
# A UDP socket is a mailbox

`Mailbox` says what the receiving side of a socket is for: it queues one
datagram, hands it out with `parsePacket`, and lets the sketch read it once
from its start. The two handles of the socket refine it as long as no copy out
of the receive buffer passes the end of the ring.
-/

namespace UIPEthernet.UIPUDP

open Enc28J60Network Lib

structure Mailbox where
  /-- The datagram in `packet_next`, `[]` for none. -/
  queued : List Byte
  /-- What is left of the datagram in `packet_in`. -/
  rest : List Byte
  /-- The datagrams handed out by `parsePacket`, in order. -/
  delivered : List (List Byte)

inductive SocketEvent
  | arrive (payload : List Byte) (room : Bool)
  | parsePacket (size : Nat)
  | available (n : Nat)
  | read (len : Nat) (bytes : List Byte)
  | peek (c : Option Byte)
  | flush
  | other
deriving DecidableEq, Repr

namespace Mailbox

def empty : Mailbox := ⟨[], [], []⟩

/-- The queued datagram as a list of at most one. -/
def waiting (m : Mailbox) : List (List Byte) := if m.queued = [] then [] else [m.queued]

inductive Step (m : Mailbox) : SocketEvent → Mailbox → Prop
  | store (hfree : m.queued = []) : Step m (.arrive payload true) { m with queued := payload }
  | drop (hfull : m.queued ≠ [] ∨ room = false) : Step m (.arrive payload room) m
  | parsePacket :
    Step m (.parsePacket m.queued.length) ⟨[], m.queued, m.delivered ++ m.waiting⟩
  | available : Step m (.available m.rest.length) m
  | read : Step m (.read len (m.rest.take len)) { m with rest := m.rest.drop len }
  | peek : Step m (.peek m.rest.head?) m
  | flush : Step m .flush { m with rest := [] }
  | other : Step m .other m

end Mailbox

def SocketEvent.payload : SocketEvent → List (List Byte)
  | .arrive payload _ => [payload]
  | _ => []

def arrivals (es : List SocketEvent) : List (List Byte) := es.flatMap SocketEvent.payload

theorem arrivals_snoc (es : List SocketEvent) (e : SocketEvent) :
    arrivals (es ++ [e]) = arrivals es ++ e.payload := by
  simp [arrivals]

/-- Datagrams are handed out in the order of their arrival, each at most once. -/
theorem Mailbox.delivered_sublist {es : List SocketEvent} {m : Mailbox}
    (h : Run Mailbox.Step Mailbox.empty es m) :
    (m.delivered ++ m.waiting).Sublist (arrivals es) := by
  induction h with
  | nil => exact List.Sublist.refl []
  | snoc _ hs ih =>
    rw [arrivals_snoc]
    cases hs with
    | store hfree =>
      rw [waiting, if_pos hfree, List.append_nil] at ih
      refine ih.append ?_
      simp only [waiting]
      split
      · exact List.nil_sublist _
      · exact List.Sublist.refl _
    | drop => exact ih.trans (List.sublist_append_left _ _)
    | parsePacket =>
      simpa [waiting, SocketEvent.payload] using ih
    | _ => simpa [waiting, SocketEvent.payload] using ih

-- ---------------------------------------------------------------------------
-- The socket
-- ---------------------------------------------------------------------------

/-- `n` bytes of the receive ring. -/
def ringBytes (ram : Nat → Byte) (a n : Nat) : List Byte :=
  (List.range n).map fun i => ram ((a + i) % (RXSTOP_INIT + 1))

/-- The frame in the receive buffer is a datagram with the given payload, and
`uip_buf` holds its headers. -/
structure Datagram (s : System) (payload : List Byte) : Prop where
  handle : s.inPacket = UIP_RECEIVEBUFFERHANDLE
  begin : s.net.receivePkt.begin ≤ RXSTOP_INIT
  udplen : s.uip.uipBuf.be16 Offset.udplen = UIP_UDPH_LEN + payload.length
  nonempty : payload ≠ []
  bytes : ringBytes s.net.ram (s.net.receivePkt.begin + UIP_UDP_PHYH_LEN) payload.length = payload

/-- The copy of a payload of the given length does not pass the end of the
ring. -/
def InOnePiece (s : System) (len : Nat) : Prop :=
  s.net.receivePkt.begin + UIP_UDP_PHYH_LEN + len ≤ RXSTOP_INIT + 1

/-- Whether a block of the size could be allocated now. -/
def room (s : System) (size : Nat) : Bool := (s.net.allocBlock size).any fun (_, h) => h ≠ NOBLOCK

/-- Everything but the receiving side of the socket may change. -/
def Elsewhere (k : Nat) (s s' : System) : Prop :=
  (s'.sockets k).appdata.packetIn = (s.sockets k).appdata.packetIn ∧
  (s'.sockets k).appdata.packetNext = (s.sockets k).appdata.packetNext ∧
  Others [(s.sockets k).appdata.packetIn, (s.sockets k).appdata.packetNext] s.net s'.net

inductive SocketStep (k : Nat) (s : System) : SocketEvent → System → Prop
  | arrive (hconn : (s.uipUdpConns i).appstate = some k) (hflags : s.uip.uipFlags = UIP_NEWDATA)
      (hd : Datagram s payload) (hcall : uipudpAppcall s i = some s') :
    SocketStep k s (.arrive payload (room s payload.length)) s'
  | parsePacket (hcall : parsePacket s k = some (s', size)) : SocketStep k s (.parsePacket size) s'
  | available : SocketStep k s (.available (available s k)) s
  | read (hcall : read s k len = some (s', bytes)) : SocketStep k s (.read len bytes) s'
  | peek : SocketStep k s (.peek (peek s k)) s
  | flush (hcall : flush s k = some s') : SocketStep k s .flush s'
  | other (helse : Elsewhere k s s') : SocketStep k s .other s'

/-- The copy of an arriving datagram does not pass the end of the ring, if there
is one: the last datagram has been taken, and there is room. -/
def Unwrapped (k : Nat) (s : System) : SocketEvent → Prop
  | .arrive payload room => (s.sockets k).appdata.packetNext = NOBLOCK → room = true → InOnePiece s payload.length
  | _ => True

/-- The two handles hold what the mailbox says. -/
structure Keeps (s : System) (k : Nat) (m : Mailbox) : Prop where
  valid : s.net.Valid
  next : Holds s.net (s.sockets k).appdata.packetNext m.queued
  current : Holds s.net (s.sockets k).appdata.packetIn m.rest
  distinct : m.queued ≠ [] → (s.sockets k).appdata.packetIn ≠ (s.sockets k).appdata.packetNext

variable {s s' : System} {k : Nat} {m : Mailbox} {i : Fin UIP_UDP_CONNS}

theorem Keeps.elsewhere (hk : Keeps s k m) (helse : Elsewhere k s s') : Keeps s' k m := by
  obtain ⟨hin, hnext, hothers⟩ := helse
  refine ⟨hothers.1, ?_, ?_, ?_⟩
  · rw [hnext]
    exact hk.next.congr (hothers.view (by simp))
  · rw [hin]
    exact hk.current.congr (hothers.view (by simp))
  · rw [hin, hnext]
    exact hk.distinct

/-- Giving back the block of `packet_in` leaves the queued datagram. -/
theorem Keeps.freed (hk : Keeps s k m) : ∃ net,
    s.net.freeBlock (s.sockets k).appdata.packetIn = some net ∧ net.Valid ∧
      Holds net (s.sockets k).appdata.packetNext m.queued := by
  obtain ⟨net, hfree, hch, -⟩ := freeBlock_ok hk.valid (s.sockets k).appdata.packetIn
  refine ⟨net, hfree, hch.valid, hk.next.congr fun hlive => ?_⟩
  have hne : m.queued ≠ [] := fun h0 => hlive (by rw [hk.next.noblock_iff.mpr h0, view_noblock])
  rw [hch.view, Function.update_of_ne (hk.distinct hne).symm]

/-- The socket with the block of `packet_in` given back. -/
theorem Keeps.drained {net : Enc28J60Network} (hv : net.Valid)
    (hnext : Holds net (s.sockets k).appdata.packetNext m.queued) :
    Keeps ((s.setNet net).mapAppdata k fun data => { data with packetIn := NOBLOCK }) k
      { m with rest := [] } := by
  refine ⟨hv, ?_, ?_, fun hne => ?_⟩
  · rw [System.mapAppdata_appdata]
    exact hnext
  · rw [System.mapAppdata_appdata]
    exact .inl ⟨rfl, rfl⟩
  · rw [System.mapAppdata_appdata]
    exact fun h0 => hne (hnext.noblock_iff.mp h0.symm)

theorem parsePacket_ok (hk : Keeps s k m) :
    ∃ s', parsePacket s k = some (s', m.queued.length) ∧
      Keeps s' k ⟨[], m.queued, m.delivered ++ m.waiting⟩ := by
  obtain ⟨net, hfree, hv, hnext⟩ := hk.freed
  let s' := (s.setNet net).mapAppdata k fun data =>
    { data with packetIn := data.packetNext, packetNext := NOBLOCK }
  have hin : (s'.sockets k).appdata =
      { (s.sockets k).appdata with
        packetIn := (s.sockets k).appdata.packetNext, packetNext := NOBLOCK } := by simp [s']
  have hsize : s'.net.blockSize (s'.sockets k).appdata.packetIn = m.queued.length := by
    rw [hin]
    exact blockSize_eq hnext
  refine ⟨s', by simp [parsePacket, hfree, ← hsize, s'], hv, ?_, ?_, ?_⟩
  · rw [hin]
    exact .inl ⟨rfl, rfl⟩
  · rw [hin]
    exact hnext
  · exact fun h => absurd rfl h

theorem flush_ok (hk : Keeps s k m) :
    ∃ s', flush s k = some s' ∧ Keeps s' k { m with rest := [] } := by
  obtain ⟨net, hfree, hv, hnext⟩ := hk.freed
  exact ⟨_, by simp [flush, hfree], Keeps.drained hv hnext⟩

theorem read_ok (hk : Keeps s k m) (len : Nat) :
    ∃ s', read s k len = some (s', m.rest.take len) ∧ Keeps s' k { m with rest := m.rest.drop len } := by
  by_cases hrest : m.rest = []
  · have hin := hk.current.noblock_iff.mpr hrest
    refine ⟨s, by simp [read, hin, hrest], hk.valid, hk.next, .inl ⟨?_, hin⟩, hk.distinct⟩
    simp [hrest]
  · have hview := hk.current.view hrest
    have hin := (view_ne hview).1
    have hbytes : s.net.readPacket (s.sockets k).appdata.packetIn 0 len = m.rest.take len := by
      rw [readPacket_ok hk.valid hview (Nat.zero_le _), List.drop_zero]
    have hsize := blockSize_eq hk.current
    by_cases hall : m.rest.length ≤ len
    · -- the block is read up to its end
      obtain ⟨net, hfree, hv, hnext⟩ := hk.freed
      have hdrop : m.rest.drop len = [] := List.drop_eq_nil_of_le hall
      refine ⟨_, ?_, hdrop ▸ Keeps.drained hv hnext⟩
      simp [read, hin, hbytes, hsize, hall, hfree]
    · have hch := resizeBlock_ok hk.valid hview (show len < m.rest.length by omega)
      have hlen : (m.rest.take len).length = len := List.length_take_of_le (by omega)
      refine ⟨s.setNet (s.net.resizeBlock (s.sockets k).appdata.packetIn len), ?_, hch.valid, ?_, ?_,
        hk.distinct⟩
      · simp only [read, if_neg hin, hbytes, hsize, hlen]
        rw [if_neg (by omega)]
        rfl
      · refine hk.next.congr fun hlive => ?_
        have hne : m.queued ≠ [] := fun h0 => hlive (by rw [hk.next.noblock_iff.mpr h0, view_noblock])
        exact (congrFun hch.view _).trans (Function.update_of_ne (hk.distinct hne).symm _ _)
      · exact .inr ((congrFun hch.view _).trans (Function.update_self _ _ _))

theorem peek_eq (hk : Keeps s k m) : peek s k = m.rest.head? := by
  by_cases hrest : m.rest = []
  · simp [peek, hk.current.noblock_iff.mpr hrest, hrest]
  · have hview := hk.current.view hrest
    rw [peek, if_neg (view_ne hview).1, readPacket_ok hk.valid hview (Nat.zero_le _), List.drop_zero]
    cases m.rest <;> simp

-- ---------------------------------------------------------------------------
-- Arriving datagrams
-- ---------------------------------------------------------------------------

theorem readStart_ring {e : Enc28J60Network} {position : Nat}
    (h : e.receivePkt.begin + position ≤ RXSTOP_INIT) :
    e.readStart UIP_RECEIVEBUFFERHANDLE position = e.receivePkt.begin + position := by
  have hr : RXSTOP_INIT = 2047 := rfl
  simp only [readStart, packet, if_true, true_and]
  rw [add16_eq (by omega), if_neg (by omega)]

theorem ringBytes_length {ram : Nat → Byte} {a n : Nat} : (ringBytes ram a n).length = n := by
  simp [ringBytes]

theorem ringBytes_eq {ram : Nat → Byte} {a n : Nat} (h : a + n ≤ RXSTOP_INIT + 1) :
    ringBytes ram a n = load ram a n :=
  List.map_congr_left fun i hi => by
    rw [Nat.mod_eq_of_lt (by have := List.mem_range.mp hi; omega)]

/-- A datagram is put into a new block, or dropped without one. -/
theorem queue_ok {payload : List Byte} (hk : Keeps s k m) (hfree : m.queued = [])
    (hd : Datagram s payload) (hone : room s payload.length = true → InOnePiece s payload.length) :
    ∃ s' m', queue s k payload.length = some s' ∧ s'.uip = s.uip ∧
      m.Step (.arrive payload (room s payload.length)) m' ∧ Keeps s' k m' := by
  have hpos : 1 ≤ payload.length := List.length_pos_iff.mpr hd.nonempty
  obtain ⟨net, h, halloc, hres, hnet⟩ := allocBlock_ok hk.valid hpos
  have hroom : room s payload.length = decide (h ≠ NOBLOCK) := by simp [room, halloc]
  let s₁ := (s.setNet net).mapAppdata k fun data => { data with packetNext := h }
  have hdata : (s₁.sockets k).appdata = { (s.sockets k).appdata with packetNext := h } := by simp [s₁]
  cases hres with
  | failed _ hch =>
    refine ⟨s₁, m, by simp [queue, halloc, s₁], rfl, .drop (.inr (by simp [hroom])), hch.valid, ?_, ?_, ?_⟩
    · rw [hdata]
      exact .inl ⟨hfree, rfl⟩
    · rw [hdata]
      exact hk.current.congr fun _ => congrFun hch.view _
    · exact fun h => absurd hfree h
  | placed _ hfresh hlen hch =>
    rename_i c _
    have hview : net.view h = some c := by rw [hch.view, Function.update_self]
    have hh := view_ne hview
    -- the copy reads the payload where it lies in the ring
    have hring : s.net.receivePkt.begin + UIP_UDP_PHYH_LEN + payload.length ≤ RXSTOP_INIT + 1 :=
      hone (hroom.trans (decide_eq_true hh.1))
    have hpkt : net.receivePkt = s.net.receivePkt := by rw [hnet]
    have hstart : net.readStart s.inPacket UIP_UDP_PHYH_LEN =
        s.net.receivePkt.begin + UIP_UDP_PHYH_LEN := by
      rw [hd.handle, ← hpkt]
      exact readStart_ring (by rw [hpkt]; omega)
    have hmem : RXSTOP_INIT + 1 ≤ MEMORY_SIZE := by decide
    have hload : load net.ram (s.net.receivePkt.begin + UIP_UDP_PHYH_LEN) payload.length = payload := by
      rw [← hd.bytes, ringBytes_length, ringBytes_eq hring]
      refine load_congr fun i hi => hch.below _ ?_
      exact Nat.lt_of_lt_of_le (show _ < RXSTOP_INIT + 1 by omega) (by decide)
    have hb := hch.valid.bounds hview
    obtain ⟨net', hcopy, hch', -⟩ := copyPacket_ok hch.valid hview hpos
      (show 0 + payload.length ≤ c.length by omega) (hstart ▸ .inr hring)
      (show net.readStart s.inPacket UIP_UDP_PHYH_LEN + _ ≤ _ by omega)
      (.inr (by omega))
    rw [hstart, hload] at hch'
    have hsplice : splice c 0 payload = payload := by simp [splice, hlen]
    have hsize : net.blockSize h = payload.length := by rw [blockSize_eq (.inr hview), hlen]
    have hkept : s.net.view (s.sockets k).appdata.packetIn ≠ none →
        (s.sockets k).appdata.packetIn ≠ h := by
      rintro hlive rfl
      exact hlive hfresh
    refine ⟨s₁.setNet net', { m with queued := payload }, ?_, rfl, ?_, hch'.valid, ?_, ?_, fun _ => ?_⟩
    · have hcopy₁ : s₁.net.copyPacket h 0 s₁.inPacket UIP_UDP_PHYH_LEN (s₁.net.blockSize h) = some net' := by
        rw [show s₁.net.blockSize h = payload.length from hsize]
        exact hcopy
      simp only [queue, halloc, Option.bind_eq_bind, Option.bind_some, if_neg hh.1]
      exact Option.bind_eq_some_iff.mpr ⟨net', hcopy₁, rfl⟩
    · rw [hroom, decide_eq_true hh.1]
      exact .store hfree
    · rw [System.setNet_sockets, hdata]
      exact .inr (by rw [System.setNet_net, hch'.view, Function.update_self, hsplice])
    · rw [System.setNet_sockets, hdata]
      refine hk.current.congr fun hlive => ?_
      have hne := hkept hlive
      rw [System.setNet_net, hch'.view, Function.update_of_ne hne, hch.view, Function.update_of_ne hne]
    · rw [System.setNet_sockets, hdata]
      rintro he
      have hne : (s.sockets k).appdata.packetIn ≠ NOBLOCK := he ▸ hh.1
      have hrest := fun h0 => hne (hk.current.noblock_iff.mpr h0)
      exact hkept (by simp [hk.current.view hrest]) he

/-- The callback with a datagram for the socket. -/
theorem appcall_ok {payload : List Byte} (hk : Keeps s k m)
    (hconn : (s.uipUdpConns i).appstate = some k) (hflags : s.uip.uipFlags = UIP_NEWDATA)
    (hd : Datagram s payload) (hone : Unwrapped k s (.arrive payload (room s payload.length))) :
    ∃ s' m', uipudpAppcall s i = some s' ∧
      m.Step (.arrive payload (room s payload.length)) m' ∧ Keeps s' k m' := by
  have hpolled : ∀ t : System, t.uip = s.uip → polled t k = t := by
    intro t ht
    rw [polled, ht, hflags]
    exact if_neg (by rintro ⟨h, -⟩; exact absurd h (by decide))
  by_cases hfull : m.queued = []
  · have hnext := hk.next.noblock_iff.mpr hfull
    let t := s.mapUdpConn i fun conn =>
      { conn with rport := s.uip.uipBuf.u16 Offset.srcport, ripaddr := s.uip.uipBuf.be32 Offset.srcipaddr }
    have hkt : Keeps t k m := ⟨hk.valid, hk.next, hk.current, hk.distinct⟩
    have hdt : Datagram t payload := ⟨hd.handle, hd.begin, hd.udplen, hd.nonempty, hd.bytes⟩
    obtain ⟨s', m', hqueue, huip, hstep, hk'⟩ := queue_ok hkt hfull hdt (hone hnext)
    have hlt := s.uip.uipBuf.be16_lt Offset.udplen
    have hlen : sub16 (s.uip.uipBuf.be16 Offset.udplen) UIP_UDPH_LEN = payload.length := by
      rw [sub16_eq (by rw [hd.udplen]; omega) hlt, hd.udplen]
      omega
    have hreceived : received s i k = some s' := by
      rw [received, if_pos ⟨by rw [hflags]; decide, hnext⟩]
      simp only [hlen]
      exact hqueue
    refine ⟨s', m', ?_, hstep, hk'⟩
    simp [uipudpAppcall, hconn, hreceived, hpolled s' huip]
  · have hnext := fun h0 => hfull (hk.next.noblock_iff.mp h0)
    refine ⟨s, m, ?_, .drop (.inl hfull), hk⟩
    have hreceived : received s i k = some s := if_neg (by rintro ⟨-, h⟩; exact hnext h)
    simp [uipudpAppcall, hconn, hreceived, hpolled s rfl]

-- ---------------------------------------------------------------------------
-- Runs
-- ---------------------------------------------------------------------------

theorem SocketStep.ok {ev : SocketEvent} (hk : Keeps s k m) (h : SocketStep k s ev s')
    (hu : Unwrapped k s ev) : ∃ m', m.Step ev m' ∧ Keeps s' k m' := by
  cases h with
  | arrive hconn hflags hd hcall =>
    obtain ⟨t, m', ht, hstep, hk'⟩ := appcall_ok hk hconn hflags hd hu
    obtain rfl : t = s' := Option.some.inj (ht.symm.trans hcall)
    exact ⟨m', hstep, hk'⟩
  | parsePacket hcall =>
    obtain ⟨t, ht, hk'⟩ := parsePacket_ok hk
    obtain ⟨rfl, rfl⟩ := Prod.mk.inj (Option.some.inj (ht.symm.trans hcall))
    exact ⟨_, .parsePacket, hk'⟩
  | available =>
    have hsize : UIPUDP.available s k = m.rest.length := blockSize_eq hk.current
    exact ⟨m, hsize ▸ .available, hk⟩
  | read hcall =>
    obtain ⟨t, ht, hk'⟩ := read_ok hk _
    obtain ⟨rfl, rfl⟩ := Prod.mk.inj (Option.some.inj (ht.symm.trans hcall))
    exact ⟨_, .read, hk'⟩
  | peek => exact ⟨m, peek_eq hk ▸ .peek, hk⟩
  | flush hcall =>
    obtain ⟨t, ht, hk'⟩ := flush_ok hk
    obtain rfl : t = s' := Option.some.inj (ht.symm.trans hcall)
    exact ⟨_, .flush, hk'⟩
  | other helse => exact ⟨m, .other, hk.elsewhere helse⟩

/-- In every run of the socket whose datagrams are copied in one piece, the
calls give what the mailbox gives and all come back. -/
theorem datagrams {es : List SocketEvent} (hv : s.net.Valid)
    (hin : (s.sockets k).appdata.packetIn = NOBLOCK) (hnext : (s.sockets k).appdata.packetNext = NOBLOCK)
    (h : Run (fun s ev s' => SocketStep k s ev s' ∧ Unwrapped k s ev) s es s') :
    (∃ m, Run Mailbox.Step Mailbox.empty es m ∧ (m.delivered ++ m.waiting).Sublist (arrivals es)) ∧
    (∃ t size, parsePacket s' k = some (t, size)) ∧
    (∀ len, ∃ t bytes, read s' k len = some (t, bytes)) ∧
    (∃ t, flush s' k = some t) ∧
    ∀ i payload, (s'.uipUdpConns i).appstate = some k → s'.uip.uipFlags = UIP_NEWDATA →
      Datagram s' payload → Unwrapped k s' (.arrive payload (room s' payload.length)) → ∃ t, uipudpAppcall s' i = some t := by
  have h0 : Keeps s k Mailbox.empty := ⟨hv, .inl ⟨rfl, hnext⟩, .inl ⟨rfl, hin⟩, fun hne => absurd rfl hne⟩
  obtain ⟨m, hrun, hk⟩ := h.simulation (R := fun s m => Keeps s k m)
    (fun hk hs => SocketStep.ok hk hs.1 hs.2) h0
  refine ⟨⟨m, hrun, Mailbox.delivered_sublist hrun⟩, ?_, fun len => ?_, ?_, ?_⟩
  · obtain ⟨t, ht, -⟩ := parsePacket_ok hk
    exact ⟨t, _, ht⟩
  · obtain ⟨t, ht, -⟩ := read_ok hk len
    exact ⟨t, _, ht⟩
  · obtain ⟨t, ht, -⟩ := flush_ok hk
    exact ⟨t, ht⟩
  · intro i payload hconn hflags hd hone
    obtain ⟨t, -, ht, -⟩ := appcall_ok hk hconn hflags hd hone
    exact ⟨t, ht⟩

-- ---------------------------------------------------------------------------
-- A payload at the end of the ring
-- ---------------------------------------------------------------------------

/-- The memory has a 7 where the payload of a frame at 0 or at 2006 starts, and
an 8 everywhere else. -/
def emptySystem : System := .init (fun a => if a = 0 ∨ a = 42 then 7 else 8) [] [] 0

/-- A datagram of one byte for the first socket, in a frame at `begin`. -/
def frameAt (begin : Nat) : System :=
  { emptySystem with
    net := { emptySystem.net with receivePkt := ⟨begin, 43, NOBLOCK⟩ }
    uip := { emptySystem.uip with
      uipBuf := emptySystem.uip.uipBuf.putBe16 Offset.udplen 9, uipFlags := UIP_NEWDATA }
    uipUdpConns := fun _ => ⟨0, 0, 0, 0, some 0⟩
    inPacket := UIP_RECEIVEBUFFERHANDLE }

/-- The steps of `frameAt`, with the condition on the one copy. -/
def FrameStep (begin : Nat) (s : System) (ev : SocketEvent) (s' : System) : Prop :=
  SocketStep 0 s ev s' ∧ (InOnePiece (frameAt begin) 1 → Unwrapped 0 s ev)

/-- The datagram arrives, is parsed and read. -/
theorem frameAt_run {begin : Nat} {bytes : List Byte} (hb : begin ≤ RXSTOP_INIT)
    (hd : ringBytes emptySystem.net.ram (begin + UIP_UDP_PHYH_LEN) 1 = [7])
    (hroom : room (frameAt begin) 1 = true)
    (hcompute : ((uipudpAppcall (frameAt begin) 0).bind fun s => (parsePacket s 0).bind fun x =>
      (read x.1 0 1).map fun y => (x.2, y.2)) = some (1, bytes)) :
    ∃ s', Run (FrameStep begin) emptySystem
      [.other, .arrive [7] true, .parsePacket 1, .read 1 bytes] s' := by
  obtain ⟨s₁, h₁, hcompute⟩ := Option.bind_eq_some_iff.mp hcompute
  obtain ⟨⟨s₂, size⟩, h₂, hcompute⟩ := Option.bind_eq_some_iff.mp hcompute
  obtain ⟨⟨s₃, data⟩, h₃, hcompute⟩ := Option.map_eq_some_iff.mp hcompute
  obtain ⟨rfl, rfl⟩ := Prod.mk.inj hcompute
  have hvalid : (frameAt begin).net.Valid := init_valid emptySystem.net.ram []
  have helse : Elsewhere 0 emptySystem (frameAt begin) :=
    ⟨rfl, rfl, hvalid, .allocBlock 0, .handle NOBLOCK, .exhausted, fun _ _ _ h => by cases h⟩
  have hlen : (emptySystem.uip.uipBuf.putBe16 Offset.udplen 9).be16 Offset.udplen = 9 := by decide
  have hdata : Datagram (frameAt begin) [7] := ⟨rfl, hb, hlen, by simp, hd⟩
  have harrive : SocketStep 0 (frameAt begin) (.arrive [7] true) s₁ := by
    rw [← hroom]
    exact .arrive (i := 0) rfl rfl hdata h₁
  have r₁ : Run (FrameStep begin) emptySystem ([] ++ [.other]) (frameAt begin) :=
    .snoc .nil ⟨.other helse, fun _ => trivial⟩
  exact ⟨s₃, .snoc (.snoc (.snoc r₁ ⟨harrive, fun hone _ _ => hone⟩) ⟨.parsePacket h₂, fun _ => trivial⟩)
    ⟨.read h₃, fun _ => trivial⟩⟩

/-- A frame at the start of the ring. -/
theorem datagrams_example : ∃ s', Run (FrameStep 0) emptySystem
      [.other, .arrive [7] true, .parsePacket 1, .read 1 [7]] s' ∧
    ∃ m, Run Mailbox.Step Mailbox.empty [.other, .arrive [7] true, .parsePacket 1, .read 1 [7]] m := by
  obtain ⟨s', hrun⟩ := frameAt_run (show 0 ≤ RXSTOP_INIT by decide) (by decide) (by decide)
    (show _ = some (1, [7]) by decide)
  obtain ⟨⟨m, hm, -⟩, -⟩ := datagrams (k := 0) (init_valid _ _) rfl rfl
    (hrun.mono fun h => ⟨h.1, h.2 (by unfold InOnePiece; decide)⟩)
  exact ⟨s', hrun, m, hm⟩

/-- The payload of a frame at 2006 starts at the first byte of the ring, and
the second is delivered. -/
theorem wrapped_payload_shifted : ∃ (es : List SocketEvent) (s' : System),
    Run (SocketStep 0) emptySystem es s' ∧ ¬∃ m, Run Mailbox.Step Mailbox.empty es m := by
  obtain ⟨s', hrun⟩ := frameAt_run (show 2006 ≤ RXSTOP_INIT by decide) (by decide) (by decide)
    (show _ = some (1, [8]) by decide)
  refine ⟨_, s', hrun.mono fun h => h.1, ?_⟩
  rintro ⟨m, hm⟩
  have hsplit : ([.other, .arrive [7] true, .parsePacket 1, .read 1 [8]] : List SocketEvent) =
      ((([] ++ [.other]) ++ [.arrive [7] true]) ++ [.parsePacket 1]) ++ [.read 1 [8]] := rfl
  rw [hsplit] at hm
  obtain ⟨m₃, hm, hread⟩ := hm.snoc_inv
  obtain ⟨m₂, hm, hparse⟩ := hm.snoc_inv
  obtain ⟨m₁, hm, harrive⟩ := hm.snoc_inv
  obtain ⟨m₀, hm, hother⟩ := hm.snoc_inv
  obtain rfl := hm.nil_inv
  cases hother
  cases harrive with
  | store =>
    cases hparse
    generalize hb : ([8] : List Byte) = bytes at hread
    cases hread
    exact absurd hb (by decide)
  | drop hfull => exact absurd hfull (by decide)

end UIPEthernet.UIPUDP
