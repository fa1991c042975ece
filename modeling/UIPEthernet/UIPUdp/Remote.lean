import UIPEthernet.UIPUdp.Listening
import UIPEthernet.NetworkSend

/-!
# remoteIP and remotePort

The sender of a datagram is kept in the remote end of the connection, which the
next datagram and the next packet to send overwrite. `Senders` are history
variables: who sent the queued datagram, and who the one that `parsePacket`
gave out last.
-/

namespace UIPEthernet.UIPUDP

open UIPEthernet.System Lib

def remoteIP (s : System) (k : Nat) : BitVec 32 :=
  match (s.sockets k).uipUdpConn with
  | some i => (s.uipUdpConns i).ripaddr
  | none => 0

def remotePort (s : System) (k : Nat) : Nat :=
  match (s.sockets k).uipUdpConn with
  | some i => htons (s.uipUdpConns i).rport
  | none => 0

abbrev Address := BitVec 32 × Nat

def remote (s : System) (k : Nat) : Address := (remoteIP s k, remotePort s k)

/-- The source of the datagram in `uip_buf`. -/
def source (s : System) : Address :=
  (s.uip.uipBuf.be32 Offset.srcipaddr, s.uip.uipBuf.be16 Offset.srcport)

structure Senders where
  queued : Option Address
  current : Option Address
deriving DecidableEq, Repr

namespace Senders

def none : Senders := ⟨Option.none, Option.none⟩

/-- The datagram of the sender is queued, or not. -/
def arrive (g : Senders) (sender : Address) (queued : Bool) : Senders :=
  if queued then { g with queued := some sender } else g

/-- The queued datagram is given out, if there is one. -/
def parsePacket (g : Senders) (size : Nat) : Senders := ⟨Option.none, if 0 < size then g.queued else Option.none⟩

end Senders

inductive RemoteEvent
  | arrive (sender : Address)
  | parsePacket (size : Nat)
  | begin (port : Nat)
  | stop
  | beginPacket (ip : BitVec 32) (port : Nat)
  | write (buffer : List Byte)
  | endPacket
  | poll
  | read (len : Nat)
  | available
  | peek
  | flush
  | other
deriving DecidableEq, Repr

/-- Everything but the socket's connection and its remote end may change. -/
structure Remains (k : Nat) (s s' : System) : Prop where
  conn : (s'.sockets k).uipUdpConn = (s.sockets k).uipUdpConn
  remote : remote s' k = remote s k

inductive RemoteStep (k : Nat) (x : System × Senders) : RemoteEvent → System × Senders → Prop
  | arrive (hconn : (x.1.sockets k).uipUdpConn = some i) (happ : (x.1.uipUdpConns i).appstate = some k)
      (hflags : x.1.uip.uipFlags = UIP_NEWDATA) (hcall : uipudpAppcall x.1 i = some s') :
    RemoteStep k x (.arrive (source x.1))
      (s', x.2.arrive (source x.1)
        ((x.1.sockets k).appdata.packetNext = NOBLOCK ∧ (s'.sockets k).appdata.packetNext ≠ NOBLOCK))
  | parsePacket (hcall : parsePacket x.1 k = some (s', size)) :
    RemoteStep k x (.parsePacket size) (s', x.2.parsePacket size)
  | begin (hcall : begin x.1 k port = some (s', success)) : RemoteStep k x (.begin port) (s', x.2)
  | stop (hcall : stop x.1 k = some s') : RemoteStep k x .stop (s', Senders.none)
  | beginPacket (hport : port < 65536) (hcall : beginPacket x.1 k ip port = some (s', success)) :
    RemoteStep k x (.beginPacket ip port) (s', x.2)
  | write (hcall : write x.1 k buffer = (s', n)) : RemoteStep k x (.write buffer) (s', x.2)
  | endPacket (hcall : endPacket x.1 k = some (s', success)) : RemoteStep k x .endPacket (s', x.2)
  | poll (hcall : tickUdp x.1 i = some s') : RemoteStep k x .poll (s', x.2)
  | read (hcall : read x.1 k len = some (s', bytes)) : RemoteStep k x (.read len) (s', x.2)
  | available : RemoteStep k x .available x
  | peek : RemoteStep k x .peek x
  | flush (hcall : flush x.1 k = some s') : RemoteStep k x .flush (s', x.2)
  | other (hother : Remains k x.1 s') : RemoteStep k x .other (s', x.2)

/-- The connection's remote end is not overwritten with another one than the
sender that it has to name. -/
def Unchanged (k : Nat) (x : System × Senders) : RemoteEvent → Prop
  | .arrive sender => (x.1.sockets k).appdata.packetNext = NOBLOCK →
      x.2.current = none ∨ x.2.current = some sender
  | .beginPacket ip port => ip ≠ 0 ∧ port ≠ 0 → x.2.current = none ∨ x.2.current = some (ip, port)
  | .parsePacket _ => x.2.queued = none ∨ x.2.queued = some (remote x.1 k)
  | _ => True

/-- The current sender is the remote end of the connection, which is there as
long as there is a sender. -/
structure Names (k : Nat) (x : System × Senders) : Prop where
  conn : x.2.queued ≠ none ∨ x.2.current ≠ none → (x.1.sockets k).uipUdpConn ≠ none
  current : ∀ a, x.2.current = some a → remote x.1 k = a

variable {s s' : System} {k : Nat} {i : Fin UIP_UDP_CONNS} {x x' : System × Senders} {e : RemoteEvent}

-- ---------------------------------------------------------------------------
-- What the calls do to the remote end
-- ---------------------------------------------------------------------------

theorem Remains.refl (k : Nat) (s : System) : Remains k s s := ⟨rfl, rfl⟩

/-- The connections of UDP are not touched, nor which one is the socket's. -/
structure SameConn (k : Nat) (s s' : System) : Prop where
  conn : (s'.sockets k).uipUdpConn = (s.sockets k).uipUdpConn
  conns : s'.uipUdpConns = s.uipUdpConns

theorem SameConn.refl (k : Nat) (s : System) : SameConn k s s := ⟨rfl, rfl⟩

theorem SameConn.trans {s'' : System} (h : SameConn k s s') (h' : SameConn k s' s'') : SameConn k s s'' :=
  ⟨h'.conn.trans h.conn, h'.conns.trans h.conns⟩

theorem SameConn.remains (h : SameConn k s s') : Remains k s s' := by
  refine ⟨h.conn, ?_⟩
  simp only [UIPUDP.remote, remoteIP, remotePort, h.conn, h.conns]

theorem sent_same (h : OnlySent s s') : SameConn k s s' := ⟨by rw [h.sockets], h.uipUdpConns⟩

theorem mapAppdata_same (j : Nat) (f : UdpUserdata → UdpUserdata) : SameConn k s (s.mapAppdata j f) := by
  refine ⟨?_, rfl⟩
  by_cases hk : k = j
  · rw [hk, mapAppdata_conn]
  · exact congrArg UIPUDP.uipUdpConn (Function.update_of_ne hk _ _)

theorem setNet_same (net : Enc28J60Network) : SameConn k s (s.setNet net) := ⟨rfl, rfl⟩

theorem send_same {j : Nat} (h : UIPUDP.send s j = some s') : SameConn k s s' := by
  have harp : SameConn k s (s.mapUip Uip.arpOut) := ⟨rfl, rfl⟩
  simp only [send, Option.bind_eq_bind, Option.pure_def] at h
  split at h
  · obtain ⟨⟨s₁, ok⟩, hsend, h⟩ := Option.bind_eq_some_iff.mp h
    cases h
    have hclear : SameConn k (s.mapUip Uip.arpOut) (((s.mapUip Uip.arpOut).setUipPacket NOBLOCK).setPacketstate
        ((s.mapUip Uip.arpOut).packetstate &&& ~~~UIPETHERNET_SENDPACKET)) := ⟨rfl, rfl⟩
    exact (harp.trans hclear).trans (sent_same (networkSend_only hsend))
  · obtain ⟨⟨s₁, ok⟩, hsend, h⟩ := Option.bind_eq_some_iff.mp h
    have h₁ := harp.trans (sent_same (networkSend_only hsend))
    split at h
    · cases h
      exact h₁.trans (mapAppdata_same j _)
    · cases h
      exact h₁

theorem polled_same {j : Nat} : SameConn k s (polled s j) := by
  simp only [polled]
  split
  · have hset : SameConn k s (((s.setUipPacket (s.sockets j).appdata.packetOut).setPacketstate
        (s.packetstate ||| UIPETHERNET_SENDPACKET)).setHdrlen UIP_UDP_PHYH_LEN) := ⟨rfl, rfl⟩
    exact hset.trans (sent_same (OnlyUip.onlySent (setSlen_only _)))
  · exact .refl k s

/-- Without a datagram the callback leaves the remote end. -/
theorem appcall_same (hflags : ¬has s.uip.uipFlags UIP_NEWDATA) (h : uipudpAppcall s i = some s') :
    SameConn k s s' := by
  unfold uipudpAppcall at h
  split at h
  · cases h
    exact .refl k s
  · rw [received, if_neg fun hnew => hflags hnew.1] at h
    cases h
    exact polled_same

theorem uipUdpTimer_same (h : s.uipUdpTimer i = some s') : SameConn k s s' := by
  unfold uipUdpTimer at h
  split at h
  · obtain ⟨s₁, hcall, hsend⟩ := Option.bind_eq_some_iff.mp h
    have hpoll : ¬has UIP_POLL UIP_NEWDATA := by decide
    have h₀ : SameConn k s
        ((((s.setAppdata (UIP_LLH_LEN + UIP_IPUDPH_LEN)).setLen 0).setSlen 0).setFlags UIP_POLL) :=
      ⟨rfl, rfl⟩
    obtain ⟨honly, -⟩ := udpSend_only hsend
    exact (h₀.trans (appcall_same hpoll hcall)).trans (sent_same (OnlyUip.onlySent honly))
  · cases h
    exact ⟨rfl, rfl⟩

theorem tickUdp_same (h : tickUdp s i = some s') : SameConn k s s' := by
  simp only [tickUdp, Option.bind_eq_bind, Option.pure_def] at h
  obtain ⟨s₁, htimer, h⟩ := Option.bind_eq_some_iff.mp h
  have h₁ := uipUdpTimer_same (k := k) htimer
  split at h
  · split at h
    · cases h
      exact h₁
    · exact h₁.trans (send_same h)
  · cases h
    exact h₁

theorem endPacket_same {success : Bool} (h : endPacket s k = some (s', success)) : SameConn k s s' := by
  simp only [endPacket, Option.bind_eq_bind, Option.pure_def] at h
  split at h
  · cases h
    exact .refl k s
  · split at h
    · cases h
      exact .refl k s
    · obtain ⟨s₁, htimer, h⟩ := Option.bind_eq_some_iff.mp h
      have h₁ : SameConn k s s₁ :=
        ((setNet_same _).trans (mapAppdata_same k _)).trans (uipUdpTimer_same htimer)
      split at h
      · obtain ⟨s₂, hsend, h⟩ := Option.bind_eq_some_iff.mp h
        cases h
        exact h₁.trans (send_same hsend)
      · cases h
        exact h₁

theorem parsePacket_same {size : Nat} (h : parsePacket s k = some (s', size)) : SameConn k s s' := by
  simp only [parsePacket, Option.bind_eq_bind, Option.bind_eq_some_iff, Option.pure_def, Option.some.injEq,
    Prod.mk.injEq] at h
  obtain ⟨net, -, rfl, -⟩ := h
  exact (setNet_same _).trans (mapAppdata_same k _)

theorem read_same {len : Nat} {bytes : List Byte} (h : read s k len = some (s', bytes)) :
    SameConn k s s' := by
  simp only [read, Option.bind_eq_bind, Option.pure_def] at h
  split at h
  · cases h
    exact .refl k _
  · split at h
    · obtain ⟨net, -, h⟩ := Option.bind_eq_some_iff.mp h
      cases h
      exact (setNet_same _).trans (mapAppdata_same k _)
    · cases h
      exact setNet_same _

theorem flush_same (h : flush s k = some s') : SameConn k s s' := by
  simp only [flush, Option.bind_eq_bind, Option.bind_eq_some_iff, Option.pure_def, Option.some.injEq] at h
  obtain ⟨net, -, rfl⟩ := h
  exact (setNet_same _).trans (mapAppdata_same k _)

theorem write_same {buffer : List Byte} {n : Nat} (h : write s k buffer = (s', n)) : SameConn k s s' := by
  simp only [write] at h
  split at h
  · cases h
    exact .refl k _
  · cases h
    exact (setNet_same _).trans (mapAppdata_same k _)

/-- `begin` on an open socket. -/
theorem begin_remains {port : Nat} {success : Bool} (hopen : (s.sockets k).uipUdpConn ≠ none)
    (h : begin s k port = some (s', success)) : Remains k s s' := by
  simp only [begin, if_neg hopen, Option.bind_eq_bind, Option.bind_some, Option.pure_def] at h
  split at h
  · cases h
    exact .refl k s
  · rename_i i hi
    cases h
    refine ⟨rfl, ?_⟩
    simp [remote, remoteIP, remotePort, mapUdpConn, hi]

/-- The address part of `beginPacket` on an open socket. -/
theorem setRemote_remote {ip : BitVec 32} {port : Nat} (hopen : (s.sockets k).uipUdpConn ≠ none)
    (h : setRemote s k ip port = some s') :
    (s'.sockets k).uipUdpConn = (s.sockets k).uipUdpConn ∧
      remote s' k = if ip ≠ 0 ∧ port ≠ 0 then (ip, htons (htons port)) else remote s k := by
  obtain ⟨i, hi⟩ := Option.ne_none_iff_exists'.mp hopen
  by_cases hgiven : ip ≠ 0 ∧ port ≠ 0
  · rw [setRemote, if_pos hgiven, connectTo, hi] at h
    cases h
    rw [if_pos hgiven]
    simp [remote, remoteIP, remotePort, mapUdpConn, hi]
  · rw [setRemote, if_neg hgiven] at h
    cases h
    rw [if_neg hgiven]
    exact ⟨rfl, rfl⟩

theorem htons_htons {port : Nat} (h : port < 65536) : htons (htons port) = port := by
  have hhigh : port / 256 % 256 = port / 256 := Nat.mod_eq_of_lt (by omega)
  have hmod : (port % 256 * 256 + port / 256) % 256 = port / 256 := by omega
  have hdiv : (port % 256 * 256 + port / 256) / 256 = port % 256 := by omega
  rw [htons, htons, hhigh, hmod, hdiv]
  omega

theorem beginPacket_remote {ip : BitVec 32} {port : Nat} {success : Bool} (hport : port < 65536)
    (hopen : (s.sockets k).uipUdpConn ≠ none) (h : beginPacket s k ip port = some (s', success)) :
    (s'.sockets k).uipUdpConn = (s.sockets k).uipUdpConn ∧
      remote s' k = if ip ≠ 0 ∧ port ≠ 0 then (ip, port) else remote s k := by
  simp only [beginPacket, Option.bind_eq_bind, Option.pure_def] at h
  obtain ⟨s₁, hto, h⟩ := Option.bind_eq_some_iff.mp h
  obtain ⟨hconn, hremote⟩ := setRemote_remote hopen hto
  rw [htons_htons hport] at hremote
  have hrest : SameConn k s₁ s' := by
    split at h
    · obtain ⟨⟨net, b⟩, -, h⟩ := Option.bind_eq_some_iff.mp h
      cases h
      exact (setNet_same _).trans (mapAppdata_same k _)
    · cases h
      exact .refl k _
  exact ⟨hrest.conn.trans hconn, hrest.remains.remote.trans hremote⟩

theorem htons_u16 (b : Buf) (i : Nat) : htons (b.u16 i) = b.be16 i := by
  have := (b i).isLt
  have := (b (i + 1)).isLt
  unfold htons Buf.u16 Buf.be16
  omega

theorem queue_same {j size : Nat} (h : queue s j size = some s') : SameConn k s s' := by
  simp only [queue, Option.bind_eq_bind, Option.bind_eq_some_iff, Option.pure_def, Prod.exists] at h
  obtain ⟨net, b, -, h⟩ := h
  split at h
  · cases h
    exact (setNet_same _).trans (mapAppdata_same j _)
  · obtain ⟨net', -, h⟩ := Option.bind_eq_some_iff.mp h
    cases h
    exact ((setNet_same _).trans (mapAppdata_same j _)).trans (setNet_same _)

/-- The callback for a datagram. -/
theorem appcall_remote (hconn : (s.sockets k).uipUdpConn = some i) (happ : (s.uipUdpConns i).appstate = some k)
    (hflags : s.uip.uipFlags = UIP_NEWDATA) (h : uipudpAppcall s i = some s') :
    (s'.sockets k).uipUdpConn = some i ∧
      remote s' k = if (s.sockets k).appdata.packetNext = NOBLOCK then source s else remote s k := by
  simp only [uipudpAppcall, happ, Option.bind_eq_bind, Option.pure_def] at h
  obtain ⟨s₁, hreceived, h⟩ := Option.bind_eq_some_iff.mp h
  cases h
  have hpolled : Remains k s₁ (polled s₁ k) := polled_same.remains
  rw [hpolled.conn, hpolled.remote]
  unfold received at hreceived
  have hnew : has s.uip.uipFlags UIP_NEWDATA := by rw [hflags]; decide
  split at hreceived
  · rename_i hfree
    rw [if_pos hfree.2]
    have hqueue : SameConn k _ s₁ := queue_same hreceived
    refine ⟨hqueue.conn.trans hconn, hqueue.remains.remote.trans ?_⟩
    simp [remote, remoteIP, remotePort, mapUdpConn, hconn, source, htons_u16]
  · rename_i hfull
    cases hreceived
    rw [if_neg fun hnext => hfull ⟨hnew, hnext⟩]
    exact ⟨hconn, rfl⟩

-- ---------------------------------------------------------------------------
-- Runs
-- ---------------------------------------------------------------------------

theorem Names.remains {g : Senders} (hn : Names k (s, g)) (h : Remains k s s') : Names k (s', g) :=
  ⟨fun hg => by rw [h.conn]; exact hn.conn hg, fun a ha => h.remote.trans (hn.current a ha)⟩

/-- Every step keeps the name. -/
theorem RemoteStep.names (hn : Names k x) (h : RemoteStep k x e x') (hu : Unchanged k x e) : Names k x' := by
  obtain ⟨s, g⟩ := x
  cases h with
  | @arrive i s' hconn happ hflags hcall =>
    obtain ⟨hconn', hremote⟩ := appcall_remote hconn happ hflags hcall
    have hcurrent : ∀ q, (g.arrive (source s) q).current = g.current := fun q => by
      cases q <;> rfl
    refine ⟨fun _ => by simp [hconn'], fun a ha => ?_⟩
    rw [hcurrent] at ha
    rw [hremote]
    split
    · rename_i hfree
      rcases hu hfree with hnone | hsome
      · exact absurd (hnone.symm.trans ha) (by simp)
      · exact Option.some.inj (hsome.symm.trans ha)
    · exact hn.current a ha
  | @parsePacket s' size hcall =>
    have hr := (parsePacket_same (k := k) hcall).remains
    refine ⟨fun hg => ?_, fun a ha => ?_⟩
    · rw [hr.conn]
      refine hn.conn (.inl ?_)
      rcases hg with hq | hc
      · exact absurd rfl hq
      · by_cases hsize : 0 < size
        · simpa [Senders.parsePacket, hsize] using hc
        · simp [Senders.parsePacket, hsize] at hc
    · have hq : g.queued = some a := by
        by_cases hsize : 0 < size
        · simpa [Senders.parsePacket, hsize] using ha
        · simp [Senders.parsePacket, hsize] at ha
      rcases hu with hnone | hsome
      · exact absurd (hnone.symm.trans hq) (by simp)
      · exact hr.remote.trans (Option.some.inj (hsome.symm.trans hq))
  | begin hcall =>
    refine ⟨fun hg => ?_, fun a ha => ?_⟩
    · rw [(begin_remains (hn.conn hg) hcall).conn]
      exact hn.conn hg
    · have hopen := hn.conn (.inr (Option.ne_none_iff_exists'.mpr ⟨a, ha⟩))
      exact (begin_remains hopen hcall).remote.trans (hn.current a ha)
  | stop hcall => exact ⟨fun hg => absurd hg (by simp [Senders.none]), fun a ha => by simp [Senders.none] at ha⟩
  | beginPacket hport hcall =>
    refine ⟨fun hg => ?_, fun a ha => ?_⟩
    · rw [(beginPacket_remote hport (hn.conn hg) hcall).1]
      exact hn.conn hg
    · have hopen := hn.conn (.inr (Option.ne_none_iff_exists'.mpr ⟨a, ha⟩))
      rw [(beginPacket_remote hport hopen hcall).2]
      split
      · rename_i hgiven
        rcases hu hgiven with hnone | hsome
        · exact absurd (hnone.symm.trans ha) (by simp)
        · exact Option.some.inj (hsome.symm.trans ha)
      · exact hn.current a ha
  | write hcall => exact hn.remains (write_same hcall).remains
  | endPacket hcall => exact hn.remains (endPacket_same hcall).remains
  | poll hcall => exact hn.remains (tickUdp_same hcall).remains
  | read hcall => exact hn.remains (read_same hcall).remains
  | available => exact hn
  | peek => exact hn
  | flush hcall => exact hn.remains (flush_same hcall).remains
  | other hother => exact hn.remains hother

/-- In every run whose steps do not overwrite the remote end with another one
than the current sender, `remoteIP` and `remotePort` name the sender of the
datagram that `parsePacket` gave out last. -/
theorem remote_names_sender {es : List RemoteEvent} {g : Senders} {ip : BitVec 32} {port : Nat}
    (h : Run (fun x e x' => RemoteStep k x e x' ∧ Unchanged k x e) (s, Senders.none) es (s', g))
    (hg : g.current = some (ip, port)) : remoteIP s' k = ip ∧ remotePort s' k = port := by
  have h0 : Names k (s, Senders.none) :=
    ⟨fun hg => absurd hg (by simp [Senders.none]), fun a ha => by simp [Senders.none] at ha⟩
  have hn : Names k (s', g) := h.invariant (fun hn hs => RemoteStep.names hn hs.1 hs.2) h0
  exact Prod.mk.inj (hn.current _ hg)

-- ---------------------------------------------------------------------------
-- A packet to another host
-- ---------------------------------------------------------------------------

/-- A datagram for `uipudp_appcall`, from the host 1. -/
def datagramReady (s : System) : System := (datagramFrom 1 s).setFlags UIP_NEWDATA

/-- A datagram is received and given out. -/
def oneDatagram : Option (System × System × System × Nat) :=
  listeningSystem.bind fun s => (uipudpAppcall (datagramReady s) 0).bind fun s₁ => (parsePacket s₁ 0).map fun p => (s, s₁, p)

/-- The socket has a datagram of the host 1 from the callback. -/
def checkDatagram (s s₁ : System) : Bool :=
  (s.sockets 0).uipUdpConn = some 0 && (s.uipUdpConns 0).appstate = some 0 &&
    source (datagramReady s) = (1, 2304) && (s.sockets 0).appdata.packetNext = NOBLOCK &&
    (s₁.sockets 0).appdata.packetNext ≠ NOBLOCK && remote s₁ 0 = (1, 2304)

theorem datagram_step {g : Senders} (hcheck : checkDatagram s s' = true) (h : uipudpAppcall (datagramReady s) 0 = some s') :
    RemoteStep 0 (datagramReady s, g) (.arrive (1, 2304)) (s', ⟨some (1, 2304), g.current⟩) := by
  simp only [checkDatagram, Bool.and_eq_true, decide_eq_true_eq] at hcheck
  obtain ⟨⟨⟨⟨⟨hconn, happ⟩, hsource⟩, hfree⟩, hqueued⟩, -⟩ := hcheck
  have harrive := RemoteStep.arrive (x := (datagramReady s, g)) hconn happ rfl h
  rw [hsource, decide_eq_true ⟨hfree, hqueued⟩] at harrive
  exact harrive

theorem ready_step {g : Senders} : RemoteStep 0 (s, g) .other (datagramReady s, g) := .other (SameConn.remains ⟨rfl, rfl⟩)

/-- The run of `oneDatagram`. -/
theorem oneDatagram_run {s₁ s₂ : System} (h : oneDatagram = some (s, s₁, s₂, 1)) (hcheck : checkDatagram s s₁ = true) :
    listeningSystem = some s ∧ Run (fun x e x' => RemoteStep 0 x e x' ∧ Unchanged 0 x e) (s, Senders.none)
      [.other, .arrive (1, 2304), .parsePacket 1] (s₂, ⟨none, some (1, 2304)⟩) := by
  obtain ⟨s', hs, h⟩ := Option.bind_eq_some_iff.mp h
  obtain ⟨s₁', h₁, h⟩ := Option.bind_eq_some_iff.mp h
  obtain ⟨⟨s₂', size⟩, h₂, h⟩ := Option.map_eq_some_iff.mp h
  cases h
  have hremote : remote s₁ 0 = (1, 2304) := by
    simp only [checkDatagram, Bool.and_eq_true, decide_eq_true_eq] at hcheck
    exact hcheck.2
  refine ⟨hs, .snoc (.snoc (.snoc .nil ⟨ready_step, trivial⟩) ⟨datagram_step hcheck h₁, fun _ => .inl rfl⟩) ⟨.parsePacket h₂, ?_⟩⟩
  exact .inr (congrArg some hremote.symm)

/-- The datagram is read and answered, and another one of its sender arrives. -/
theorem remote_names_sender_example : ∃ s s' g, listeningSystem = some s ∧
    Run (fun x e x' => RemoteStep 0 x e x' ∧ Unchanged 0 x e) (s, Senders.none) [.other, .arrive (1, 2304), .parsePacket 1, .read 1,
      .beginPacket 1 2304, .write [7], .endPacket, .other, .arrive (1, 2304)] (s', g) ∧ remoteIP s' 0 = 1 ∧ remotePort s' 0 = 2304 := by
  have hcompute : (oneDatagram.bind fun x => (read x.2.2.1 0 1).bind fun y => (beginPacket y.1 0 1 2304).bind fun z =>
      (endPacket (write z.1 0 [7]).1 0).bind fun w => (uipudpAppcall (datagramReady w.1) 0).map fun s' =>
        (x.2.2.2, checkDatagram x.1 x.2.1, checkDatagram w.1 s')) = some (1, true, true) := by
    decide +kernel
  obtain ⟨⟨s, s₁, s₂, size⟩, hone, hcompute⟩ := Option.bind_eq_some_iff.mp hcompute
  obtain ⟨⟨s₃, bytes⟩, h₃, hcompute⟩ := Option.bind_eq_some_iff.mp hcompute
  obtain ⟨⟨s₄, ok⟩, h₄, hcompute⟩ := Option.bind_eq_some_iff.mp hcompute
  obtain ⟨⟨s₅, sent⟩, h₅, hcompute⟩ := Option.bind_eq_some_iff.mp hcompute
  obtain ⟨s', h₆, hcompute⟩ := Option.map_eq_some_iff.mp hcompute
  obtain ⟨rfl, hcheck⟩ := Prod.mk.inj hcompute
  obtain ⟨hfirst, hsecond⟩ := Prod.mk.inj hcheck
  obtain ⟨hs, hrun⟩ := oneDatagram_run hone hfirst
  let g : Senders := ⟨none, some (1, 2304)⟩
  have hread : RemoteStep 0 (s₂, g) (.read 1) (s₃, g) := .read h₃
  have hbegin : RemoteStep 0 (s₃, g) (.beginPacket 1 2304) (s₄, g) := .beginPacket (by decide) h₄
  have hwrite : RemoteStep 0 (s₄, g) (.write [7]) ((write s₄ 0 [7]).1, g) := .write rfl
  have hend : RemoteStep 0 ((write s₄ 0 [7]).1, g) .endPacket (s₅, g) := .endPacket h₅
  have hanswered := (((hrun.snoc ⟨hread, trivial⟩).snoc ⟨hbegin, fun _ => .inr rfl⟩).snoc ⟨hwrite, trivial⟩).snoc ⟨hend, trivial⟩
  have hagain := (hanswered.snoc ⟨ready_step, trivial⟩).snoc ⟨datagram_step hsecond h₆, fun _ => .inr rfl⟩
  exact ⟨s, s', _, hs, hagain, remote_names_sender hagain rfl⟩

/-- A packet to the host 2 is begun before the sender's address is asked for. -/
theorem remote_names_receiver : ∃ s es s₃ g, listeningSystem = some s ∧
    Run (RemoteStep 0) (s, Senders.none) es (s₃, g) ∧ g.current = some (1, 2304) ∧ remote s₃ 0 = (2, 80) := by
  have hcompute : (oneDatagram.bind fun x => (beginPacket x.2.2.1 0 2 80).map fun y =>
      (x.2.2.2, checkDatagram x.1 x.2.1, remote y.1 0)) = some (1, true, 2, 80) := by
    decide +kernel
  obtain ⟨⟨s, s₁, s₂, size⟩, hone, hcompute⟩ := Option.bind_eq_some_iff.mp hcompute
  obtain ⟨⟨s₃, ok⟩, hbegin, hcompute⟩ := Option.map_eq_some_iff.mp hcompute
  obtain ⟨rfl, hcheck⟩ := Prod.mk.inj hcompute
  obtain ⟨hcheck, hremote⟩ := Prod.mk.inj hcheck
  obtain ⟨hs, hrun⟩ := oneDatagram_run hone hcheck
  exact ⟨s, _, s₃, _, hs, (hrun.mono fun h => h.1).snoc (.beginPacket (by decide) hbegin), rfl, hremote⟩

end UIPEthernet.UIPUDP
