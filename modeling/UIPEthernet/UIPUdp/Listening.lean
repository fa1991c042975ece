import UIPEthernet.UIPUdp.Mailbox
import UIPEthernet.Headers.Frame

/-!
# A listening socket takes datagrams from one sender

The callback records the sender of a datagram in the fields that the
demultiplexer filters by. Two runs that get the same datagrams from different
senders queue the same ones as long as every datagram passes the filter.
-/

namespace UIPEthernet

namespace System

/-- What the input of a datagram compares with 0xffff. -/
def datagramSum (s : System) : Option Nat :=
  let s := (s.setLen (sub16 s.uip.uipLen UIP_IPUDPH_LEN)).setAppdata (UIP_LLH_LEN + UIP_IPUDPH_LEN)
  if s.uip.uipBuf.u16 Offset.udpchksum ≠ 0 then s.upperLayerChksum UIP_PROTO_UDP else some 0xffff

/-- What the callback for a datagram finds. -/
def datagramInput (s : System) : System :=
  (((s.setLen (sub16 s.uip.uipLen UIP_IPUDPH_LEN)).setAppdata
    (UIP_LLH_LEN + UIP_IPUDPH_LEN)).setFlags UIP_NEWDATA).setSlen 0

section
variable (s : System) (len i : Nat) (flags : BitVec 8)

theorem input_buf : ((s.setLen len).setAppdata i).uip.uipBuf = s.uip.uipBuf := rfl

theorem input_conns : ((s.setLen len).setAppdata i).uipUdpConns = s.uipUdpConns := rfl

theorem input_drop : ((s.setLen len).setAppdata i).drop.sockets = s.sockets := rfl

theorem input_same : ((((s.setLen len).setAppdata i).setFlags flags).setSlen 0).uip.uipBuf = s.uip.uipBuf ∧
    ((((s.setLen len).setAppdata i).setFlags flags).setSlen 0).net = s.net ∧
    ((((s.setLen len).setAppdata i).setFlags flags).setSlen 0).sockets = s.sockets := ⟨rfl, rfl, rfl⟩

end

theorem datagramInput_same (s : System) : s.datagramInput.uip.uipBuf = s.uip.uipBuf ∧
    s.datagramInput.net = s.net ∧ s.datagramInput.sockets = s.sockets := s.input_same _ _ _

end System

namespace UIPUDP

open UIPEthernet.System Lib

/-- The size of the payload in the UDP header. -/
def payloadSize (s : System) : Nat := sub16 (s.uip.uipBuf.be16 Offset.udplen) UIP_UDPH_LEN

/-- The payload of the frame in the receive buffer. -/
def inPayload (s : System) : List Byte :=
  ringBytes s.net.ram (s.net.receivePkt.begin + UIP_UDP_PHYH_LEN) (payloadSize s)

/-- A datagram for the local port of the connection, which no other connection
takes. -/
structure ForPort (s : System) (i : Fin UIP_UDP_CONNS) : Prop where
  sum : s.datagramSum = some 0xffff
  bound : (s.uipUdpConns i).lport ≠ 0
  port : s.uip.uipBuf.u16 Offset.destport = (s.uipUdpConns i).lport
  only : ∀ j ≠ i, udpMatches s.uip.uipBuf (s.uipUdpConns j) = false

inductive ListenEvent
  /-- `room` is what an allocation for the payload would give, `queued` what
  becomes of the datagram. -/
  | arrive (ip : BitVec 32) (port : Nat) (payload : List Byte) (room queued : Bool)
  | parsePacket
  | read (len : Nat)
  | available
  | peek
  | flush
  | other
deriving DecidableEq, Repr

namespace ListenEvent

/-- The event without the sender and what becomes of the datagram. -/
def anonymous : ListenEvent → ListenEvent
  | .arrive _ _ payload room _ => .arrive 0 0 payload room false
  | e => e

/-- The datagram that is queued. -/
def queued : ListenEvent → Option (List Byte)
  | .arrive _ _ payload _ true => some payload
  | _ => none

end ListenEvent

inductive ListenStep (k : Nat) (i : Fin UIP_UDP_CONNS) (s : System) : ListenEvent → System → Prop
  | arrive (hconn : (s.uipUdpConns i).appstate = some k) (hfor : ForPort s i) (hcall : s.udpInput = some s') :
    ListenStep k i s
      (.arrive (s.uip.uipBuf.be32 Offset.srcipaddr) (s.uip.uipBuf.u16 Offset.srcport) (inPayload s)
        (room s (payloadSize s))
        ((s.sockets k).appdata.packetNext = NOBLOCK ∧ (s'.sockets k).appdata.packetNext ≠ NOBLOCK)) s'
  | parsePacket (hcall : parsePacket s k = some (s', size)) : ListenStep k i s .parsePacket s'
  | read (hcall : read s k len = some (s', bytes)) : ListenStep k i s (.read len) s'
  | available : ListenStep k i s .available s
  | peek : ListenStep k i s .peek s
  | flush (hcall : flush s k = some s') : ListenStep k i s .flush s'
  /-- Everything else may change. -/
  | other (hnext : (s'.sockets k).appdata.packetNext = (s.sockets k).appdata.packetNext) :
    ListenStep k i s .other s'

/-- A datagram that finds no queued one comes from the sender that the
connection holds, if it holds one. -/
def Admitted (k : Nat) (i : Fin UIP_UDP_CONNS) (s : System) : ListenEvent → Prop
  | .arrive ip port _ _ _ =>
    let conn := s.uipUdpConns i
    (s.sockets k).appdata.packetNext = NOBLOCK → (conn.rport = 0 ∨ port = conn.rport) ∧
      (conn.ripaddr = 0 ∨ conn.ripaddr = 0xffffffff ∨ ip = conn.ripaddr)
  | _ => True

variable {s s' t : System} {k : Nat} {i : Fin UIP_UDP_CONNS} {e e' : ListenEvent}

-- ---------------------------------------------------------------------------
-- The input of a datagram
-- ---------------------------------------------------------------------------

theorem find_only {p : Fin UIP_UDP_CONNS → Bool} (hi : p i) (honly : ∀ j ≠ i, p j = false) :
    (List.finRange UIP_UDP_CONNS).find? p = some i := by
  cases hfind : (List.finRange UIP_UDP_CONNS).find? p with
  | none => exact absurd hi (List.find?_eq_none.mp hfind i (List.mem_finRange i))
  | some j =>
    by_cases hj : j = i
    · rw [hj]
    · exact absurd (List.find?_some hfind) (by simp [honly j hj])

theorem ite_bind {p : Prop} [Decidable p] {x y : Option α} {a : α} {f : α → Option β}
    (h : (if p then x else y) = some a) : (if p then x.bind f else y.bind f) = f a := by
  split at h
  · rw [if_pos ‹_›, h, Option.bind_some]
  · rw [if_neg ‹_›, h, Option.bind_some]

theorem udpInput_found (hsum : s.datagramSum = some 0xffff)
    (hfind : ((List.finRange UIP_UDP_CONNS).find? fun i => udpMatches s.uip.uipBuf (s.uipUdpConns i)) = some i) :
    s.udpInput = (uipudpAppcall s.datagramInput i).bind fun s => s.udpSend i := by
  have hfind' := hfind
  rw [← s.input_buf (sub16 s.uip.uipLen UIP_IPUDPH_LEN) (UIP_LLH_LEN + UIP_IPUDPH_LEN),
    ← s.input_conns (sub16 s.uip.uipLen UIP_IPUDPH_LEN) (UIP_LLH_LEN + UIP_IPUDPH_LEN)] at hfind'
  simp only [datagramSum] at hsum
  simp only [udpInput, Option.bind_eq_bind, ite_bind hsum, hfind']
  rfl

theorem datagramSum_none (h : s.uip.uipBuf.u16 Offset.udpchksum = 0) : s.datagramSum = some 0xffff := by
  simp only [datagramSum]
  refine if_neg (not_not.mpr ?_)
  rw [input_buf]
  exact h

/-- A datagram that the connection does not take is dropped. -/
theorem udpInput_ignored (hfor : ForPort s i) (hmatch : ¬udpMatches s.uip.uipBuf (s.uipUdpConns i))
    (h : s.udpInput = some s') : s'.sockets = s.sockets := by
  have hfind : (List.finRange UIP_UDP_CONNS).find? (fun j => udpMatches s.uip.uipBuf (s.uipUdpConns j)) = none := by
    refine List.find?_eq_none.mpr fun j _ => ?_
    by_cases hj : j = i
    · rwa [hj]
    · rw [hfor.only j hj]
      exact Bool.false_ne_true
  rw [← s.input_buf (sub16 s.uip.uipLen UIP_IPUDPH_LEN) (UIP_LLH_LEN + UIP_IPUDPH_LEN),
    ← s.input_conns (sub16 s.uip.uipLen UIP_IPUDPH_LEN) (UIP_LLH_LEN + UIP_IPUDPH_LEN)] at hfind
  have hsum := hfor.sum
  simp only [datagramSum] at hsum
  have hdrop : s.udpInput = some ((s.setLen (sub16 s.uip.uipLen UIP_IPUDPH_LEN)).setAppdata
      (UIP_LLH_LEN + UIP_IPUDPH_LEN)).drop := by
    simp only [udpInput, Option.bind_eq_bind, ite_bind hsum, hfind]
    rfl
  rw [← Option.some.inj (hdrop.symm.trans h), input_drop]

/-- What the callback for a datagram makes of `packet_next`. -/
theorem received_next (hflags : s.uip.uipFlags = UIP_NEWDATA) (h : received s i k = some s') :
    s'.uip.uipFlags = UIP_NEWDATA ∧
    ((s'.sockets k).appdata.packetNext = NOBLOCK ↔
      (s.sockets k).appdata.packetNext = NOBLOCK ∧ room s (payloadSize s) = false) := by
  unfold received at h
  split at h
  · rename_i hfree
    simp only [queue, Option.bind_eq_bind, Option.bind_eq_some_iff, Prod.exists] at h
    obtain ⟨net, b, halloc, h⟩ := h
    have hroom : room s (payloadSize s) = decide (b ≠ NOBLOCK) := by
      rw [room, show s.net.allocBlock (payloadSize s) = some (net, b) from halloc]
      rfl
    split at h
    · rename_i hb
      cases h
      refine ⟨hflags, ?_⟩
      rw [mapAppdata_appdata]
      simp [hroom, hb, hfree.2]
    · rename_i hb
      obtain ⟨net', -, h⟩ := Option.bind_eq_some_iff.mp h
      cases h
      refine ⟨hflags, ?_⟩
      rw [setNet_sockets, mapAppdata_appdata]
      simp [hroom, hb]
  · rename_i hfull
    cases h
    refine ⟨hflags, ⟨fun hnext => absurd ⟨by rw [hflags]; decide, hnext⟩ hfull, fun h => h.1⟩⟩

theorem polled_newdata (hflags : s.uip.uipFlags = UIP_NEWDATA) : polled s k = s :=
  if_neg fun h => absurd (hflags ▸ h.1) (by decide)

/-- An admitted datagram is queued if there is no queued one and memory for it. -/
theorem arrive_next (hconn : (s.uipUdpConns i).appstate = some k) (hfor : ForPort s i)
    (ha : (s.sockets k).appdata.packetNext = NOBLOCK → udpMatches s.uip.uipBuf (s.uipUdpConns i))
    (h : s.udpInput = some s') :
    (s'.sockets k).appdata.packetNext = NOBLOCK ↔
      (s.sockets k).appdata.packetNext = NOBLOCK ∧ room s (payloadSize s) = false := by
  by_cases hmatch : udpMatches s.uip.uipBuf (s.uipUdpConns i)
  case neg =>
    have hfull : (s.sockets k).appdata.packetNext ≠ NOBLOCK := fun hfree => hmatch (ha hfree)
    simp [udpInput_ignored hfor hmatch h, hfull]
  rw [udpInput_found hfor.sum (find_only hmatch hfor.only)] at h
  obtain ⟨s₁, hcall, hsend⟩ := Option.bind_eq_some_iff.mp h
  have hconn' : (s.datagramInput.uipUdpConns i).appstate = some k := hconn
  simp only [uipudpAppcall, hconn', Option.bind_eq_bind, Option.bind_eq_some_iff, Option.pure_def,
    Option.some.injEq] at hcall
  obtain ⟨s₂, hreceived, rfl⟩ := hcall
  obtain ⟨hflags, hnext⟩ := received_next rfl hreceived
  rw [polled_newdata hflags] at hsend
  obtain ⟨honly, -⟩ := udpSend_only hsend
  obtain ⟨hbuf, hnet, hsockets⟩ := datagramInput_same s
  rw [room, payloadSize, hbuf, hnet, hsockets] at hnext
  rw [honly.sockets]
  exact hnext

-- ---------------------------------------------------------------------------
-- Two runs
-- ---------------------------------------------------------------------------

/-- Both sockets have a queued datagram, or none has. -/
def SameNext (k : Nat) (s t : System) : Prop :=
  (s.sockets k).appdata.packetNext = NOBLOCK ↔ (t.sockets k).appdata.packetNext = NOBLOCK

theorem parsePacket_next {size : Nat} (h : parsePacket s k = some (s', size)) :
    (s'.sockets k).appdata.packetNext = NOBLOCK := by
  simp only [parsePacket, Option.bind_eq_bind, Option.bind_eq_some_iff, Option.pure_def, Option.some.injEq,
    Prod.mk.injEq] at h
  obtain ⟨net, -, rfl, -⟩ := h
  rw [mapAppdata_appdata]

theorem read_next {len : Nat} {bytes : List Byte} (h : read s k len = some (s', bytes)) :
    (s'.sockets k).appdata.packetNext = (s.sockets k).appdata.packetNext := by
  simp only [read, Option.bind_eq_bind, Option.pure_def] at h
  split at h
  · cases h
    rfl
  · split at h
    · obtain ⟨net, -, h⟩ := Option.bind_eq_some_iff.mp h
      cases h
      rw [mapAppdata_appdata]
      rfl
    · cases h
      rfl

theorem flush_next (h : flush s k = some s') :
    (s'.sockets k).appdata.packetNext = (s.sockets k).appdata.packetNext := by
  simp only [flush, Option.bind_eq_bind, Option.bind_eq_some_iff, Option.pure_def, Option.some.injEq] at h
  obtain ⟨net, -, rfl⟩ := h
  rw [mapAppdata_appdata]
  rfl

/-- What a step makes of `packet_next`. -/
theorem ListenStep.next (h : ListenStep k i s e s') (ha : Admitted k i s e) :
    ((s'.sockets k).appdata.packetNext = NOBLOCK ↔
      match e with
      | .arrive _ _ _ room _ => (s.sockets k).appdata.packetNext = NOBLOCK ∧ room = false
      | .parsePacket => True
      | _ => (s.sockets k).appdata.packetNext = NOBLOCK) := by
  cases h with
  | arrive hconn hfor hcall =>
    exact arrive_next hconn hfor (fun hfree => decide_eq_true ⟨hfor.bound, hfor.port, ha hfree⟩) hcall
  | parsePacket hcall => simp [parsePacket_next hcall]
  | read hcall => rw [read_next hcall]
  | available => exact Iff.rfl
  | peek => exact Iff.rfl
  | flush hcall => rw [flush_next hcall]
  | other hnext => rw [hnext]

/-- What becomes of a datagram. -/
theorem ListenStep.queued (h : ListenStep k i s e s') (ha : Admitted k i s e) :
    e.queued = match e with
      | .arrive _ _ payload room _ =>
        if (s.sockets k).appdata.packetNext = NOBLOCK ∧ room = true then some payload else none
      | _ => none := by
  have hnext := h.next ha
  cases h with
  | arrive hconn hfor hcall =>
    simp only [ListenEvent.queued] at hnext ⊢
    by_cases hfree : (s.sockets k).appdata.packetNext = NOBLOCK
    · cases hroom : room s (payloadSize s) <;> simp_all
    · simp [hfree]
  | _ => rfl

theorem ListenStep.lockstep {t' : System} (hsame : SameNext k s t) (h : ListenStep k i s e s')
    (ha : Admitted k i s e) (h' : ListenStep k i t e' t') (ha' : Admitted k i t e')
    (he : e.anonymous = e'.anonymous) : SameNext k s' t' ∧ e.queued = e'.queued := by
  rw [SameNext, h.next ha, h'.next ha', h.queued ha, h'.queued ha']
  cases e <;> cases e' <;> simp_all [ListenEvent.anonymous, SameNext]

/-- In two runs with the same datagrams from other senders, the same calls and
the same outcomes of the allocations, the same datagrams are queued, when every
datagram that finds no queued one comes from the sender its connection holds. -/
theorem listening {es es' : List ListenEvent}
    (h : Run (fun s e s' => ListenStep k i s e s' ∧ Admitted k i s e) s es s')
    (h' : Run (fun s e s' => ListenStep k i s e s' ∧ Admitted k i s e) s es' t)
    (he : es.map ListenEvent.anonymous = es'.map ListenEvent.anonymous) :
    es.map ListenEvent.queued = es'.map ListenEvent.queued :=
  (h.lockstep (R := SameNext k) h' he
    (fun hR hs hs' he => ListenStep.lockstep hR hs.1 hs.2 hs'.1 hs'.2 he) Iff.rfl).2

-- ---------------------------------------------------------------------------
-- Two datagrams
-- ---------------------------------------------------------------------------

/-- A socket listening on port 7. -/
def listeningSystem : Option System := (begin (System.init (fun _ => 0) [] [] 0) 0 7).map (·.1)

/-- The headers of a datagram of one byte for port 7, without a checksum. -/
def datagramBuf (ip : BitVec 32) : Buf :=
  (((Buf.putBe32 (fun _ => 0) Offset.srcipaddr ip).putU16 Offset.srcport 9).putU16
    Offset.destport (htons 7)).putBe16 Offset.udplen 9

def datagramFrom (ip : BitVec 32) (s : System) : System := s.mapBuf fun _ => datagramBuf ip

theorem datagramBuf_fields (ip : BitVec 32) : (datagramBuf ip).u16 Offset.destport = htons 7 ∧
    (datagramBuf ip).u16 Offset.udpchksum = 0 := by
  constructor <;>
  simp [datagramBuf, Buf.u16, Buf.putU16, Buf.putBe16, Buf.putBe32, Buf.put, Offset.srcipaddr, Offset.srcport,
    Offset.destport, Offset.udplen, Offset.udpchksum, htons]

/-- Only the first connection is open, on port 7, for the first socket. -/
def onlyFirst (s : System) : Bool :=
  (s.uipUdpConns 0).lport = htons 7 && (s.uipUdpConns 0).appstate = some 0 &&
    (List.finRange UIP_UDP_CONNS).all fun j => j = 0 || (s.uipUdpConns j).lport = 0

/-- What the sender filter of the first connection says of the datagram. -/
def admitted (s : System) : Bool :=
  let conn := s.uipUdpConns 0
  (conn.rport = 0 || s.uip.uipBuf.u16 Offset.srcport = conn.rport) &&
    (conn.ripaddr = 0 || conn.ripaddr = 0xffffffff || s.uip.uipBuf.be32 Offset.srcipaddr = conn.ripaddr)

/-- What the event of an arrival says. -/
structure ArrivalData where
  payload : List Byte
  room : Bool
  queued : Bool
  admitted : Bool
deriving DecidableEq, Repr

def arrivalData (s s' : System) : ArrivalData where
  payload := inPayload s
  room := room s (payloadSize s)
  queued := (s.sockets 0).appdata.packetNext = NOBLOCK ∧ (s'.sockets 0).appdata.packetNext ≠ NOBLOCK
  admitted := admitted s

/-- Two datagrams, each handed to `uip_process`, with a `parsePacket` in
between. -/
def twoDatagrams (ip ip' : BitVec 32) : Option ((Bool × Bool) × ArrivalData × ArrivalData) :=
  listeningSystem.bind fun s => (datagramFrom ip s).udpInput.bind fun s₁ => (parsePacket s₁ 0).bind fun p =>
    (datagramFrom ip' p.1).udpInput.map fun s₂ =>
      ((onlyFirst s, onlyFirst p.1), arrivalData (datagramFrom ip s) s₁, arrivalData (datagramFrom ip' p.1) s₂)

def arrivalEvent (b : Buf) (d : ArrivalData) : ListenEvent :=
  .arrive (b.be32 Offset.srcipaddr) (b.u16 Offset.srcport) d.payload d.room d.queued

theorem arrivalEvent_anonymous (b : Buf) (d : ArrivalData) :
    (arrivalEvent b d).anonymous = .arrive 0 0 d.payload d.room false := rfl

theorem arrivalEvent_queued (b : Buf) (d : ArrivalData) :
    (arrivalEvent b d).queued = if d.queued then some d.payload else none := by
  unfold arrivalEvent
  cases d.queued <;> rfl

theorem load_step (ip : BitVec 32) (s : System) : ListenStep 0 0 s .other (datagramFrom ip s) := .other rfl

theorem arrival_step (ip : BitVec 32) (h : onlyFirst s) (hcall : (datagramFrom ip s).udpInput = some s') :
    ListenStep 0 0 (datagramFrom ip s)
      (arrivalEvent (datagramFrom ip s).uip.uipBuf (arrivalData (datagramFrom ip s) s')) s' := by
  simp only [onlyFirst, Bool.and_eq_true, decide_eq_true_eq, List.all_eq_true, List.mem_finRange,
    Bool.or_eq_true, true_implies] at h
  obtain ⟨⟨hport, hconn⟩, hothers⟩ := h
  obtain ⟨hdest, hsum⟩ := datagramBuf_fields ip
  have hfor : ForPort (datagramFrom ip s) 0 := by
    refine ⟨datagramSum_none hsum, ?_, hdest.trans hport.symm, fun j hj => ?_⟩
    · show (s.uipUdpConns 0).lport ≠ 0
      rw [hport]
      decide
    · exact decide_eq_false fun hm => hm.1 ((hothers j).resolve_left hj)
  have hconn' : ((datagramFrom ip s).uipUdpConns 0).appstate = some 0 := hconn
  simp only [arrivalEvent, arrivalData]
  exact .arrive hconn' hfor hcall

/-- The run of `twoDatagrams`. -/
theorem twoDatagrams_run {ip ip' : BitVec 32} {d d' : ArrivalData}
    (h : twoDatagrams ip ip' = some ((true, true), d, d')) : ∃ s t, listeningSystem = some s ∧
      Run (fun s e s' => ListenStep 0 0 s e s' ∧ (d.admitted ∧ d'.admitted → Admitted 0 0 s e)) s
        [.other, arrivalEvent (datagramBuf ip) d, .parsePacket, .other, arrivalEvent (datagramBuf ip') d'] t := by
  obtain ⟨s, hs, h⟩ := Option.bind_eq_some_iff.mp h
  obtain ⟨s₁, h₁, h⟩ := Option.bind_eq_some_iff.mp h
  obtain ⟨⟨s₂, size⟩, h₂, h⟩ := Option.bind_eq_some_iff.mp h
  obtain ⟨s₃, h₃, h⟩ := Option.map_eq_some_iff.mp h
  simp only [Prod.mk.injEq] at h
  obtain ⟨⟨hfirst, hfirst'⟩, rfl, rfl⟩ := h
  have hadmit : ∀ (ip : BitVec 32) (s s' : System), (arrivalData (datagramFrom ip s) s').admitted →
      Admitted 0 0 (datagramFrom ip s)
        (arrivalEvent (datagramFrom ip s).uip.uipBuf (arrivalData (datagramFrom ip s) s')) := by
    intro ip s s' h
    simp only [arrivalData, admitted, Bool.and_eq_true, Bool.or_eq_true, decide_eq_true_eq, or_assoc] at h
    exact fun _ => h
  refine ⟨s, s₃, hs, ?_⟩
  exact .snoc (.snoc (.snoc (.snoc (.snoc .nil ⟨load_step ip s, fun _ => trivial⟩)
    ⟨arrival_step ip hfirst h₁, fun h => hadmit ip s s₁ h.1⟩) ⟨.parsePacket h₂, fun _ => trivial⟩)
    ⟨load_step ip' s₂, fun _ => trivial⟩) ⟨arrival_step ip' hfirst' h₃, fun h => hadmit ip' s₂ s₃ h.2⟩

/-- Two datagrams from one host, or two from another one. -/
theorem listening_example : ∃ s es es' t t',
    Run (fun s e s' => ListenStep 0 0 s e s' ∧ Admitted 0 0 s e) s es t ∧
    Run (fun s e s' => ListenStep 0 0 s e s' ∧ Admitted 0 0 s e) s es' t' ∧
    es.map ListenEvent.queued = [none, some [0], none, none, some [0]] ∧
    es.map ListenEvent.queued = es'.map ListenEvent.queued := by
  let d : ArrivalData := ⟨[0], true, true, true⟩
  have h : twoDatagrams 1 1 = some ((true, true), d, d) := by decide +kernel
  have h' : twoDatagrams 2 2 = some ((true, true), d, d) := by decide +kernel
  obtain ⟨s, t, hs, hrun⟩ := twoDatagrams_run h
  obtain ⟨s', t', hs', hrun'⟩ := twoDatagrams_run h'
  obtain rfl := Option.some.inj (hs.symm.trans hs')
  have hrun : Run (fun s e s' => ListenStep 0 0 s e s' ∧ Admitted 0 0 s e) s _ t :=
    hrun.mono fun h => ⟨h.1, h.2 ⟨rfl, rfl⟩⟩
  have hrun' : Run (fun s e s' => ListenStep 0 0 s e s' ∧ Admitted 0 0 s e) s _ t' :=
    hrun'.mono fun h => ⟨h.1, h.2 ⟨rfl, rfl⟩⟩
  refine ⟨s, _, _, t, t', hrun, hrun', ?_, listening hrun hrun' ?_⟩
  · simp only [List.map, arrivalEvent_queued]
    rfl
  · simp only [List.map, arrivalEvent_anonymous]

/-- The second datagram is dropped when it comes from another host than the
first. -/
theorem second_sender_dropped : ∃ s es es' t t', listeningSystem = some s ∧
    Run (ListenStep 0 0) s es t ∧ Run (ListenStep 0 0) s es' t' ∧
    es.map ListenEvent.anonymous = es'.map ListenEvent.anonymous ∧
    es.map ListenEvent.queued ≠ es'.map ListenEvent.queued := by
  let d : ArrivalData := ⟨[0], true, true, true⟩
  have h : twoDatagrams 1 1 = some ((true, true), d, d) := by decide +kernel
  have h' : twoDatagrams 1 2 = some ((true, true), d, ⟨[0], true, false, false⟩) := by decide +kernel
  obtain ⟨s, t, hs, hrun⟩ := twoDatagrams_run h
  obtain ⟨s', t', hs', hrun'⟩ := twoDatagrams_run h'
  obtain rfl := Option.some.inj (hs.symm.trans hs')
  refine ⟨s, _, _, t, t', hs, hrun.mono fun h => h.1, hrun'.mono fun h => h.1, ?_, ?_⟩
  · simp only [List.map, arrivalEvent_anonymous]
    rfl
  · simp only [List.map, arrivalEvent_queued]
    decide

end UIPUDP

end UIPEthernet
