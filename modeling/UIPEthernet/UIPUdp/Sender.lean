import UIPEthernet.Headers.Fields
import UIPEthernet.NetworkSend

/-!
# A UDP socket is a sender with retries

`Sender` says what the sending side of a socket is for: the payload given to
`endPacket` goes out in data frames until one is transmitted. The block of
`packet_out` refines it, whatever the ARP table and the transmitter do.
-/

namespace UIPEthernet.UIPUDP

open Enc28J60Network Lib UIPEthernet.System

abbrev Frame := List Byte × Bool

inductive Phase
  | idle
  | writing (payload : List Byte)
  | sending (payload : List Byte)

structure Sender where
  phase : Phase
  /-- The payloads given to `endPacket`, in order. -/
  submitted : List (List Byte)

inductive SendEvent
  | beginPacket (success : Bool)
  | write (buffer : List Byte) (n : Nat)
  /-- The frames handed to the controller, whether the block is given back, and
  whether the remote end could be reached. -/
  | endPacket (frames : List Frame) (freed reached : Bool)
  | poll (frames : List Frame) (freed reached : Bool)
  | other

/-- An attempt to send the payload: one data frame with its outcome, or at most an
ARP request instead, if the remote end cannot be reached. -/
inductive Attempt (payload : List Byte) : List Frame → Bool → Bool → Prop
  | missed (hone : frames.length ≤ 1) (harp : ∀ f ∈ frames, frameType f.1 = UIP_ETHTYPE_ARP) :
    Attempt payload frames false false
  | sent (hlen : header.length = UIP_UDP_PHYH_LEN)
      (htype : frameType (header ++ payload) = UIP_ETHTYPE_IP) :
    Attempt payload [(header ++ payload, ok)] ok true

namespace Sender

def empty : Sender := ⟨.idle, []⟩

/-- The payload that is not transmitted yet, as a list of at most one. -/
def pending (m : Sender) : List (List Byte) :=
  match m.phase with
  | .sending payload => [payload]
  | _ => []

/-- The phase behind an attempt. -/
def next (payload : List Byte) (ok : Bool) : Phase := if ok then .idle else .sending payload

inductive Step : Sender → SendEvent → Sender → Prop
  | beginPacket : Step ⟨.idle, sub⟩ (.beginPacket true) ⟨.writing [], sub⟩
  | refused : Step m (.beginPacket false) m
  | write : Step ⟨.writing payload, sub⟩ (.write buffer buffer.length) ⟨.writing (payload ++ buffer), sub⟩
  | unopened : Step ⟨.idle, sub⟩ (.write buffer 0) ⟨.idle, sub⟩
  | endPacket (hne : payload ≠ []) (ha : Attempt payload frames ok reached) :
    Step ⟨.writing payload, sub⟩ (.endPacket frames ok reached) ⟨next payload ok, sub ++ [payload]⟩
  | again (ha : Attempt payload frames ok reached) :
    Step ⟨.sending payload, sub⟩ (.endPacket frames ok reached) ⟨next payload ok, sub⟩
  | nothing : Step ⟨.idle, sub⟩ (.endPacket [] false reached) ⟨.idle, sub⟩
  | poll (ha : Attempt payload frames ok reached) :
    Step ⟨.sending payload, sub⟩ (.poll frames ok reached) ⟨next payload ok, sub⟩
  | quiet (hphase : m.pending = []) : Step m (.poll [] false reached) m
  | other : Step m .other m

end Sender

/-- The payloads of the data frames that were transmitted. -/
def transmitted (frames : List Frame) : List (List Byte) :=
  frames.filterMap fun f =>
    if frameType f.1 = UIP_ETHTYPE_IP ∧ f.2 then some (f.1.drop UIP_UDP_PHYH_LEN) else none

def SendEvent.frames : SendEvent → List Frame
  | .endPacket frames _ _ => frames
  | .poll frames _ _ => frames
  | _ => []

def delivered (es : List SendEvent) : List (List Byte) := es.flatMap fun e => transmitted e.frames

theorem delivered_snoc (es : List SendEvent) (e : SendEvent) :
    delivered (es ++ [e]) = delivered es ++ transmitted e.frames := by
  simp [delivered]

/-- Behind an attempt the payload is transmitted, or still to be. -/
theorem Attempt.pending {payload : List Byte} {frames : List Frame} {ok reached : Bool}
    (h : Attempt payload frames ok reached) (sub : List (List Byte)) :
    transmitted frames ++ (Sender.mk (Sender.next payload ok) sub).pending = [payload] := by
  cases h with
  | missed hone harp =>
    have hnone : transmitted frames = [] := by
      refine List.filterMap_eq_nil_iff.mpr fun f hf => ?_
      rw [harp f hf, if_neg]
      exact fun h => absurd h.1 (by decide)
    rw [hnone]
    rfl
  | sent hlen htype =>
    cases ok with
    | false => simp [transmitted, Sender.next, Sender.pending]
    | true => simp [transmitted, Sender.next, Sender.pending, htype, ← hlen]

/-- Every payload given to `endPacket` goes out in exactly one transmitted
frame, in order, the last one perhaps later. -/
theorem Sender.exactly_once {es : List SendEvent} {m : Sender}
    (h : Run Sender.Step Sender.empty es m) : delivered es ++ m.pending = m.submitted := by
  induction h with
  | nil => rfl
  | snoc _ hs ih =>
    rw [delivered_snoc]
    cases hs with
    | endPacket _ ha =>
      rw [List.append_assoc, SendEvent.frames, ha.pending]
      simpa [Sender.pending] using ih
    | again ha =>
      rw [List.append_assoc, SendEvent.frames, ha.pending]
      exact ih
    | poll ha =>
      rw [List.append_assoc, SendEvent.frames, ha.pending]
      exact ih
    | _ => simpa [SendEvent.frames, transmitted, Sender.pending] using ih

-- ---------------------------------------------------------------------------
-- The socket
-- ---------------------------------------------------------------------------

/-- A block of the given size with the payload behind the room for the headers. -/
def Packed (e : Enc28J60Network) (h : Handle) (size : Nat) (payload : List Byte) : Prop :=
  ∃ c, e.view h = some c ∧ c.length = size ∧
    (c.drop (UIP_UDP_PHYH_LEN + UIP_SENDBUFFER_OFFSET)).take payload.length = payload

/-- `out_pos` behind a payload. -/
def outPosOf (payload : List Byte) : Nat := UIP_UDP_PHYH_LEN + UIP_SENDBUFFER_OFFSET + payload.length

/-- The size of the block `endPacket` leaves. -/
def sizeOf (payload : List Byte) : Nat := outPosOf payload + UIP_SENDBUFFER_PADDING

/-- Whether the block of `packet_out` is given back between the two states. -/
def freed (s : System) (k : Nat) (s' : System) : Bool :=
  let h := (s.sockets k).appdata.packetOut
  (s.net.view h).isSome && (s'.net.view h).isNone

/-- The connection is open, and the next hop towards its remote end known. -/
def reaches (s : System) (i : Fin UIP_UDP_CONNS) : Bool := (s.uipUdpConns i).lport ≠ 0 ∧ Knows s.uip (s.uipUdpConns i).ripaddr

/-- Everything but the sending side of the socket and its connection may
change. -/
structure Beside (k : Nat) (s s' : System) : Prop where
  conn : (s'.sockets k).uipUdpConn = (s.sockets k).uipUdpConn
  appstate : ∀ i, (s.sockets k).uipUdpConn = some i → (s'.uipUdpConns i).appstate = (s.uipUdpConns i).appstate
  outPos : (s'.sockets k).appdata.outPos = (s.sockets k).appdata.outPos
  packetOut : (s'.sockets k).appdata.packetOut = (s.sockets k).appdata.packetOut
  send : (s'.sockets k).appdata.send = (s.sockets k).appdata.send
  others : Others [(s.sockets k).appdata.packetOut] s.net s'.net

/-- The calls on the socket, with at most `UIP_UDP_MAXDATALEN` bytes written
and no write behind `endPacket`, and the turns of `tick` for its connection. -/
inductive SenderStep (k : Nat) (s : System) : SendEvent → System → Prop
  | beginPacket (hcall : beginPacket s k ip port = some (s', success)) :
    SenderStep k s (.beginPacket success) s'
  | write (hopen : (s.sockets k).appdata.send = false)
      (hroom : (s.sockets k).appdata.outPos + buffer.length ≤
        UIP_UDP_PHYH_LEN + UIP_SENDBUFFER_OFFSET + UIP_UDP_MAXDATALEN)
      (hcall : write s k buffer = (s', n)) : SenderStep k s (.write buffer n) s'
  | endPacket (hfull : (s.sockets k).appdata.packetOut = NOBLOCK ∨
        UIP_UDP_PHYH_LEN + UIP_SENDBUFFER_OFFSET < (s.sockets k).appdata.outPos)
      (hcall : endPacket s k = some (s', ok)) (hsent : s'.net.sent = frames ++ s.net.sent) :
    SenderStep k s (.endPacket frames (freed s k s') ((s.sockets k).uipUdpConn.any (reaches s))) s'
  | poll (hconn : (s.uipUdpConns i).appstate = some k) (hcall : tickUdp s i = some s')
      (hsent : s'.net.sent = frames ++ s.net.sent) : SenderStep k s (.poll frames (freed s k s') (reaches s i)) s'
  | other (hother : Beside k s s') : SenderStep k s .other s'

/-- The fields of the socket and its block show the phase. -/
inductive Shows (s : System) (k : Nat) : Phase → Prop
  | idle (hout : (s.sockets k).appdata.packetOut = NOBLOCK) (hsend : (s.sockets k).appdata.send = false) :
    Shows s k .idle
  | writing (hopen : (s.sockets k).uipUdpConn ≠ none) (hsend : (s.sockets k).appdata.send = false)
      (hpos : (s.sockets k).appdata.outPos = outPosOf payload) (hmax : payload.length ≤ UIP_UDP_MAXDATALEN)
      (hblock : Packed s.net (s.sockets k).appdata.packetOut
        (UIP_UDP_MAXPACKETSIZE + UIP_SENDBUFFER_OFFSET + UIP_SENDBUFFER_PADDING) payload) :
    Shows s k (.writing payload)
  | sending (hopen : (s.sockets k).uipUdpConn ≠ none) (hsend : (s.sockets k).appdata.send = true)
      (hpos : (s.sockets k).appdata.outPos = outPosOf payload) (hmax : payload.length ≤ UIP_UDP_MAXDATALEN)
      (hne : payload ≠ []) (hblock : Packed s.net (s.sockets k).appdata.packetOut (sizeOf payload) payload) :
    Shows s k (.sending payload)

structure Sends (s : System) (k : Nat) (m : Sender) : Prop where
  valid : s.net.Valid
  conn : ∀ i, (s.sockets k).uipUdpConn = some i → (s.uipUdpConns i).appstate = some k
  shows : Shows s k m.phase

variable {s s' : System} {k : Nat} {m : Sender} {i : Fin UIP_UDP_CONNS} {payload : List Byte}

theorem Packed.congr {e e' : Enc28J60Network} {h : Handle} {size : Nat} (hp : Packed e h size payload)
    (hview : e.view h ≠ none → e'.view h = e.view h) : Packed e' h size payload := by
  obtain ⟨c, hc, hlen, hbytes⟩ := hp
  exact ⟨c, (hview (by simp [hc])).trans hc, hlen, hbytes⟩

theorem Packed.ne {e : Enc28J60Network} {h : Handle} {size : Nat} (hp : Packed e h size payload) :
    h ≠ NOBLOCK := by
  obtain ⟨c, hc, -⟩ := hp
  exact (view_ne hc).1

theorem Sends.beside (hk : Sends s k m) (hb : Beside k s s') : Sends s' k m := by
  have hkeep : s.net.view (s.sockets k).appdata.packetOut ≠ none →
      s'.net.view (s'.sockets k).appdata.packetOut = s.net.view (s.sockets k).appdata.packetOut := by
    rw [hb.packetOut]
    exact hb.others.view (by simp)
  refine ⟨hb.others.1, fun i hi => ?_, ?_⟩
  · rw [hb.conn] at hi
    rw [hb.appstate i hi]
    exact hk.conn i hi
  · obtain ⟨-, -, hs⟩ := hk
    revert hs
    generalize m.phase = phase
    intro hs
    cases hs with
    | idle hout hsend => exact .idle (hb.packetOut.trans hout) (hb.send.trans hsend)
    | writing hopen hsend hpos hmax hblock =>
      refine .writing (hb.conn ▸ hopen) (hb.send.trans hsend) (hb.outPos.trans hpos) hmax ?_
      exact hb.packetOut ▸ hblock.congr (hb.packetOut ▸ hkeep)
    | sending hopen hsend hpos hmax hne hblock =>
      refine .sending (hb.conn ▸ hopen) (hb.send.trans hsend) (hb.outPos.trans hpos) hmax hne ?_
      exact hb.packetOut ▸ hblock.congr (hb.packetOut ▸ hkeep)

-- ---------------------------------------------------------------------------
-- An attempt
-- ---------------------------------------------------------------------------

/-- What `uipudp_appcall` sets up for `network_send`. -/
def prepared (s : System) (k : Nat) : System :=
  ((s.setUipPacket (s.sockets k).appdata.packetOut).setPacketstate
    (s.packetstate ||| UIPETHERNET_SENDPACKET)).setHdrlen UIP_UDP_PHYH_LEN

theorem appcall_poll (hconn : (s.uipUdpConns i).appstate = some k) (hflags : s.uip.uipFlags = UIP_POLL) :
    uipudpAppcall s i = some (polled s k) := by
  have hnew : ¬has UIP_POLL UIP_NEWDATA := by decide
  simp [uipudpAppcall, hconn, received, hflags, hnew]

/-- The turn of `uip_process` for a socket without a packet to send. -/
theorem timer_quiet (hconn : (s.uipUdpConns i).appstate = some k)
    (hsend : (s.sockets k).appdata.send = false) :
    ∃ s₁, s.uipUdpTimer i = some s₁ ∧ OnlyUip s s₁ ∧ s₁.uip.uipLen = 0 := by
  rw [uipUdpTimer]
  split
  · let s₀ := (((s.setAppdata (UIP_LLH_LEN + UIP_IPUDPH_LEN)).setLen 0).setSlen 0).setFlags UIP_POLL
    have hpolled : polled s₀ k = s₀ := by
      rw [polled, if_neg]
      rintro ⟨-, h⟩
      exact absurd (hsend.symm.trans h) (by decide)
    have hcall : uipudpAppcall s₀ i = some (polled s₀ k) := appcall_poll hconn rfl
    refine ⟨s₀.drop, ?_, rfl, rfl⟩
    show Option.bind (uipudpAppcall s₀ i) _ = _
    rw [hcall, hpolled]
    rfl
  · exact ⟨_, rfl, rfl, rfl⟩

theorem timer_closed (hlport : (s.uipUdpConns i).lport = 0) :
    ∃ s₁, s.uipUdpTimer i = some s₁ ∧ OnlyUip s s₁ ∧ s₁.uip.uipLen = 0 := by
  rw [uipUdpTimer, if_neg (by simp [hlport])]
  exact ⟨_, rfl, rfl, rfl⟩

/-- The system that the callback leaves with a packet to send. -/
def asked (s : System) (k : Nat) : System :=
  (prepared ((((s.setAppdata (UIP_LLH_LEN + UIP_IPUDPH_LEN)).setLen 0).setSlen 0).setFlags UIP_POLL) k).setSlen
    (sub16 (s.sockets k).appdata.outPos (UIP_UDP_PHYH_LEN + UIP_SENDBUFFER_OFFSET))

theorem asked_only (s : System) (k : Nat) : OnlyUip (prepared s k) (asked s k) := rfl

theorem asked_routes (s : System) (k : Nat) : (asked s k).uip.routes = s.uip.routes := rfl

theorem asked_uipSlen (s : System) (k : Nat) : (asked s k).uip.uipSlen =
    sub16 (s.sockets k).appdata.outPos (UIP_UDP_PHYH_LEN + UIP_SENDBUFFER_OFFSET) := rfl

theorem asked_slen (hpos : (s.sockets k).appdata.outPos = outPosOf payload) (hmax : payload.length ≤ UIP_UDP_MAXDATALEN) :
    (asked s k).uip.uipSlen = payload.length := by
  have hm : UIP_UDP_MAXDATALEN = 1500 := rfl
  have hroom : UIP_UDP_PHYH_LEN + UIP_SENDBUFFER_OFFSET = 43 := rfl
  rw [asked_uipSlen, hpos, outPosOf, sub16_eq (Nat.le_add_right _ _) (by rw [hroom]; omega), Nat.add_sub_cancel_left]

theorem timer_asks (hconn : (s.uipUdpConns i).appstate = some k) (hlport : (s.uipUdpConns i).lport ≠ 0)
    (hsend : (s.sockets k).appdata.send = true) : s.uipUdpTimer i = (asked s k).udpSend i := by
  let s₀ := (((s.setAppdata (UIP_LLH_LEN + UIP_IPUDPH_LEN)).setLen 0).setSlen 0).setFlags UIP_POLL
  have hpolled : polled s₀ k = asked s k := if_pos ⟨(by decide : has UIP_POLL UIP_POLL), hsend⟩
  have hcall : uipudpAppcall s₀ i = some (polled s₀ k) := appcall_poll hconn rfl
  rw [uipUdpTimer, if_pos hlport]
  show Option.bind (uipudpAppcall s₀ i) _ = _
  rw [hcall, hpolled, Option.bind_some]

/-- The turn of `uip_process` for a socket with a packet to send. -/
theorem timer_sends (hv : s.net.Valid) (hconn : (s.uipUdpConns i).appstate = some k)
    (hlport : (s.uipUdpConns i).lport ≠ 0) (hsend : (s.sockets k).appdata.send = true)
    (hpos : (s.sockets k).appdata.outPos = outPosOf payload) (hmax : payload.length ≤ UIP_UDP_MAXDATALEN)
    (hne : payload ≠ []) (hblock : Packed s.net (s.sockets k).appdata.packetOut (sizeOf payload) payload) :
    ∃ s₁, s.uipUdpTimer i = some s₁ ∧ OnlyUip (prepared s k) s₁ ∧
      s₁.uip.uipLen = payload.length + UIP_IPUDPH_LEN ∧ (Resolved s₁.uip ↔ Knows s.uip (s.uipUdpConns i).ripaddr) := by
  have hm : UIP_UDP_MAXDATALEN = 1500 := rfl
  have hu : UIP_IPUDPH_LEN = 28 := rfl
  have hlen : 0 < payload.length := List.length_pos_iff.mpr hne
  obtain ⟨c, hc, hclen, -⟩ := hblock
  have hsum : ∀ s₂, OnlyUip (asked s k) s₂ → ∃ sum, s₂.upperLayerChksum UIP_PROTO_UDP = some sum := by
    intro s₂ ho₂
    have ho' := (asked_only s k).trans ho₂
    refine upperLayerChksum_ok (c := c) _ (ho'.net ▸ hv) ?_ ?_ ?_
    · rw [ho'.packetstate]
      exact has_set _
    · rw [ho'.net, ho'.uipPacket]
      exact hc
    · rw [hclen, upperLayerMemlen, if_pos rfl, sizeOf, outPosOf]
      have : UIP_IPH_LEN + UIP_LLH_LEN + UIP_SENDBUFFER_OFFSET + UIP_UDPH_LEN =
        UIP_UDP_PHYH_LEN + UIP_SENDBUFFER_OFFSET := rfl
      omega
  obtain ⟨s₂, hs₂⟩ := udpSend_some (i := i) hsum
  obtain ⟨honly, hlen₂⟩ := udpSend_only hs₂
  rw [asked_slen hpos hmax, if_neg (by omega), add16_eq (by omega)] at hlen₂
  have hdest := (udpSend_destination hs₂ (by omega)).1
  exact ⟨s₂, (timer_asks hconn hlport hsend).trans hs₂, (asked_only s k).trans honly, hlen₂,
    resolved_iff ((udpSend_routes hs₂).trans (asked_routes s k)) hdest⟩

/-- What an attempt to send the payload leaves behind. -/
structure Attempted (s : System) (k : Nat) (payload : List Byte) (s' : System) (frames : List Frame)
    (ok reached : Bool) : Prop where
  attempt : Attempt payload frames ok reached
  sent : s'.net.sent = frames ++ s.net.sent
  valid : s'.net.Valid
  conns : s'.uipUdpConns = s.uipUdpConns
  conn : (s'.sockets k).uipUdpConn = (s.sockets k).uipUdpConn
  data : (s'.sockets k).appdata =
    if ok then { (s.sockets k).appdata with send := false, packetOut := NOBLOCK } else (s.sockets k).appdata
  freed : ok = true → s'.net.view (s.sockets k).appdata.packetOut = none
  block : ok = false → Packed s'.net (s.sockets k).appdata.packetOut (sizeOf payload) payload

theorem sizeOf_eq (payload : List Byte) : sizeOf payload =
    UIP_UDP_PHYH_LEN + (UIP_SENDBUFFER_OFFSET + UIP_SENDBUFFER_PADDING) + payload.length := by
  rw [sizeOf, outPosOf]
  omega

theorem sizeOf_le (hmax : payload.length ≤ UIP_UDP_MAXDATALEN) :
    sizeOf payload ≤ UIP_UDP_MAXPACKETSIZE + UIP_SENDBUFFER_OFFSET + UIP_SENDBUFFER_PADDING := by
  rw [sizeOf_eq, UIP_UDP_MAXPACKETSIZE]
  omega

/-- A block of the size that holds a frame with the payload. -/
theorem packed_of_frame {e : Enc28J60Network} {h : Handle} {d header : List Byte} (hd : e.view h = some d)
    (hlen : d.length = sizeOf payload) (hheader : header.length = UIP_UDP_PHYH_LEN)
    (hframe : frameOf d = header ++ payload) : Packed e h (sizeOf payload) payload := by
  refine ⟨d, hd, hlen, ?_⟩
  have hdrop := congrArg (List.drop UIP_UDP_PHYH_LEN) hframe
  rw [frameOf, List.drop_take, List.drop_drop, List.drop_left' hheader, Nat.add_comm, hlen, sizeOf_eq] at hdrop
  rw [← hdrop]
  congr 1
  rw [hdrop]
  omega

/-- An ARP request takes the packet's place. -/
theorem send_arp {s₁ : System} (hv : s.net.Valid) (ho : OnlyUip (prepared s k) s₁)
    (hlen : s₁.uip.arpOut.uipLen = UIP_ARPHDRSIZE)
    (htype : s₁.uip.arpOut.uipBuf.be16 Offset.ethType = UIP_ETHTYPE_ARP)
    (hblock : Packed s.net (s.sockets k).appdata.packetOut (sizeOf payload) payload) :
    ∃ s' frames, send s₁ k = some s' ∧ Attempted s k payload s' frames false false := by
  let s₂ := s₁.mapUip Uip.arpOut
  have ho₂ : OnlyUip (prepared s k) s₂ := ho.trans rfl
  let s₃ := (s₂.setUipPacket NOBLOCK).setPacketstate (s₂.packetstate &&& ~~~UIPETHERNET_SENDPACKET)
  have hnet : s₃.net = s.net := ho₂.net
  have hclear : ¬has s₃.packetstate UIPETHERNET_SENDPACKET := by
    show ¬has (s₂.packetstate &&& ~~~UIPETHERNET_SENDPACKET) UIPETHERNET_SENDPACKET
    rw [has_clear]
    decide
  have hlen₃ : s₃.uip.uipLen = UIP_ARPHDRSIZE := hlen
  obtain ⟨s', ok, frames, hrun, hs, hframes⟩ := networkSend_buf (hnet ▸ hv) hclear (by rw [hlen₃]; decide)
  refine ⟨s', frames, ?_, ?_, ?_, hs.changed.valid, ?_, ?_, ?_, ?_, fun _ => ?_⟩
  · rw [send, if_pos (show (s₁.mapUip Uip.arpOut).uip.uipLen = UIP_ARPHDRSIZE from hlen)]
    show Option.bind s₃.networkSend _ = _
    rw [hrun]
    rfl
  · refine .missed ?_ ?_
    · rcases hframes with rfl | rfl <;> simp
    · rcases hframes with rfl | rfl
      · simp
      · rintro f hf
        obtain rfl := List.mem_singleton.mp hf
        have h := frameType_load s₃.uip.uipBuf (show UIP_LLH_LEN ≤ s₃.uip.uipLen by rw [hlen₃]; decide) []
        rw [List.append_nil] at h
        exact h.trans htype
  · rw [hs.sent, hnet]
  · rw [hs.same]
    exact ho₂.uipUdpConns
  · rw [hs.same]
    exact congrArg (fun f => (f k).uipUdpConn) ho₂.sockets
  · rw [hs.same]
    exact congrArg (fun f => (f k).appdata) ho₂.sockets
  · rintro ⟨⟩
  · exact hblock.congr fun _ => by rw [hs.changed.view, hnet]

/-- The packet itself goes out. -/
theorem send_data {s₁ : System} (hv : s.net.Valid) (ho : OnlyUip (prepared s k) s₁)
    (hlen : s₁.uip.arpOut.uipLen ≠ UIP_ARPHDRSIZE)
    (htype : s₁.uip.arpOut.uipBuf.be16 Offset.ethType = UIP_ETHTYPE_IP)
    (hblock : Packed s.net (s.sockets k).appdata.packetOut (sizeOf payload) payload) :
    ∃ s' frames ok, send s₁ k = some s' ∧ Attempted s k payload s' frames ok true := by
  have hsize := sizeOf_eq payload
  let s₂ := s₁.mapUip Uip.arpOut
  have ho₂ : OnlyUip (prepared s k) s₂ := ho.trans rfl
  have hnet : s₂.net = s.net := ho₂.net
  have hpacket : s₂.uipPacket = (s.sockets k).appdata.packetOut := ho₂.uipPacket
  have hhdr : s₂.uipHdrlen = UIP_UDP_PHYH_LEN := ho₂.uipHdrlen
  have hset : has s₂.packetstate UIPETHERNET_SENDPACKET := by
    rw [ho₂.packetstate]
    exact has_set _
  obtain ⟨c, hc, hclen, hbytes⟩ := hblock
  have hc₂ : s₂.net.view s₂.uipPacket = some c := by rw [hnet, hpacket, hc]
  obtain ⟨s', d, hrun, hs⟩ := networkSend_packet (hnet ▸ hv) hset hc₂ (by omega)
  let header := load s₂.uip.uipBuf 0 UIP_UDP_PHYH_LEN
  have hframe : packetFrame s₂ c = header ++ payload := by
    rw [packetFrame, withHeader, load_length, hhdr, Nat.add_comm UIP_SENDBUFFER_OFFSET UIP_UDP_PHYH_LEN,
      show c.length - (UIP_SENDBUFFER_OFFSET + UIP_SENDBUFFER_PADDING) - UIP_UDP_PHYH_LEN =
        payload.length by omega, hbytes]
  have hattempt : Attempt payload [(header ++ payload, s₂.net.outcome)] s₂.net.outcome true := by
    refine .sent load_length ?_
    rw [frameType_load _ (by decide)]
    exact htype
  have hsent : s'.net.sent = [(header ++ payload, s₂.net.outcome)] ++ s.net.sent := by
    rw [hs.sent, hframe, hnet]
    rfl
  have hconns : s'.uipUdpConns = s.uipUdpConns := by
    rw [hs.same]
    exact ho₂.uipUdpConns
  have hsockets : s'.sockets = s.sockets := by
    rw [hs.same]
    exact ho₂.sockets
  have hview := congrFun hs.changed.view s₂.uipPacket
  rw [Function.update_self, hpacket] at hview
  rw [send, if_neg (show ¬(s₁.mapUip Uip.arpOut).uip.uipLen = UIP_ARPHDRSIZE from hlen), hrun]
  cases hout : s₂.net.outcome with
  | false =>
    rw [hout] at hattempt hsent hview
    refine ⟨s', _, false, rfl, hattempt, hsent, hs.changed.valid, hconns, by rw [hsockets],
      by rw [hsockets]; rfl, fun h => absurd h (by decide), fun _ => ?_⟩
    exact packed_of_frame hview (hs.length.trans hclen) load_length (hs.frame.trans hframe)
  | true =>
    rw [hout] at hattempt hsent hview
    refine ⟨_, _, true, rfl, hattempt, hsent, hs.changed.valid, hconns, ?_, ?_, fun _ => hview,
      fun h => absurd h (by decide)⟩
    · rw [mapAppdata_conn, hsockets]
    · rw [mapAppdata_appdata, hsockets]
      rfl

/-- The socket has the payload to send. -/
structure Pending (s : System) (k : Nat) (payload : List Byte) : Prop where
  valid : s.net.Valid
  send : (s.sockets k).appdata.send = true
  pos : (s.sockets k).appdata.outPos = outPosOf payload
  max : payload.length ≤ UIP_UDP_MAXDATALEN
  ne : payload ≠ []
  block : Packed s.net (s.sockets k).appdata.packetOut (sizeOf payload) payload

/-- `uip_process` and, if it leaves something to send, `_send`. -/
theorem attempt_ok (hp : Pending s k payload) (hconn : (s.uipUdpConns i).appstate = some k) :
    ∃ s₁ s' frames ok, s.uipUdpTimer i = some s₁ ∧ s₁.uipUdpConns = s.uipUdpConns ∧
      (if 0 < s₁.uip.uipLen then send s₁ k else some s₁) = some s' ∧ Attempted s k payload s' frames ok (reaches s i) := by
  by_cases hlport : (s.uipUdpConns i).lport = 0
  · obtain ⟨s₁, htimer, ho, hlen⟩ := timer_closed hlport
    have hreaches : reaches s i = false := decide_eq_false fun h => h.1 hlport
    have hmissed : Attempt payload [] false false := .missed (by simp) (by simp)
    refine ⟨s₁, s₁, [], false, htimer, ho.uipUdpConns, if_neg (by omega), hreaches ▸ hmissed, ?_, ?_, ho.uipUdpConns, ?_, ?_, nofun,
      fun _ => ?_⟩
    · rw [ho.net]
      rfl
    · rw [ho.net]
      exact hp.valid
    · rw [ho.sockets]
    · rw [ho.sockets]
      rfl
    · rw [ho.net]
      exact hp.block
  · obtain ⟨s₁, htimer, ho, hlen, hknows⟩ := timer_sends hp.valid hconn hlport hp.send hp.pos hp.max hp.ne hp.block
    have hpos : 0 < s₁.uip.uipLen := by
      rw [hlen]
      exact Nat.add_pos_right _ (by decide)
    by_cases hres : Resolved s₁.uip
    · have hreaches : reaches s i = true := decide_eq_true ⟨hlport, hknows.mp hres⟩
      have hdata : s₁.uip.arpOut.uipLen ≠ UIP_ARPHDRSIZE := by
        have hn := List.length_pos_iff.mpr hp.ne
        have hm := hp.max
        have hd : UIP_UDP_MAXDATALEN = 1500 := rfl
        have hu : UIP_IPUDPH_LEN = 28 := rfl
        have hl : UIP_LLH_LEN = 14 := rfl
        have ha : UIP_ARPHDRSIZE = 42 := rfl
        rw [arpOut_len hres, hlen, add16_eq (by omega)]
        omega
      have htype := ((arpOut_cases s₁.uip).resolve_right fun h => hdata h.1).2
      obtain ⟨s', frames, ok, hsend, hs⟩ := send_data hp.valid ho hdata htype hp.block
      exact ⟨s₁, s', frames, ok, htimer, ho.uipUdpConns, (if_pos hpos).trans hsend, hreaches ▸ hs⟩
    · have hreaches : reaches s i = false := decide_eq_false fun h => hres (hknows.mpr h.2)
      obtain ⟨hlen₂, htype⟩ := arpOut_unresolved hres
      obtain ⟨s', frames, hsend, hs⟩ := send_arp hp.valid ho hlen₂ htype hp.block
      exact ⟨s₁, s', frames, false, htimer, ho.uipUdpConns, (if_pos hpos).trans hsend, hreaches ▸ hs⟩

theorem Attempted.freed_eq {s₀ : System} {frames : List Frame} {ok reached : Bool} {size : Nat}
    (h : Attempted s₀ k payload s' frames ok reached)
    (hout : (s₀.sockets k).appdata.packetOut = (s.sockets k).appdata.packetOut)
    (hblock : Packed s.net (s.sockets k).appdata.packetOut size payload) : UIPUDP.freed s k s' = ok := by
  obtain ⟨c, hc, -⟩ := hblock
  rw [UIPUDP.freed, hc, ← hout]
  cases ok with
  | false =>
    obtain ⟨c', hc', -⟩ := h.block rfl
    rw [hc']
    rfl
  | true =>
    rw [h.freed rfl]
    rfl

/-- The socket behind an attempt. -/
theorem Attempted.shows {frames : List Frame} {ok reached : Bool} (h : Attempted s k payload s' frames ok reached)
    (hp : Pending s k payload) (hopen : (s.sockets k).uipUdpConn ≠ none) :
    Shows s' k (Sender.next payload ok) := by
  have hdata := h.data
  cases ok with
  | false =>
    rw [if_neg (by decide)] at hdata
    refine .sending (h.conn ▸ hopen) ?_ ?_ hp.max hp.ne ?_
    · rw [hdata, hp.send]
    · rw [hdata, hp.pos]
    · rw [hdata]
      exact h.block rfl
  | true =>
    rw [if_pos rfl] at hdata
    refine .idle ?_ ?_
    · rw [hdata]
    · rw [hdata]

-- ---------------------------------------------------------------------------
-- The calls
-- ---------------------------------------------------------------------------

/-- The turn of `tick` with a payload to send. -/
theorem tickUdp_sends (hp : Pending s k payload) (hconn : (s.uipUdpConns i).appstate = some k) :
    ∃ s' frames ok, tickUdp s i = some s' ∧ Attempted s k payload s' frames ok (reaches s i) := by
  obtain ⟨s₁, s', frames, ok, htimer, hconns, hsend, hs⟩ := attempt_ok hp hconn
  refine ⟨s', frames, ok, ?_, hs⟩
  simp only [tickUdp, htimer, hconns, Option.bind_eq_bind, Option.bind_some, hconn]
  exact hsend

/-- The turn of `tick` without one. -/
theorem tickUdp_quiet (hconn : (s.uipUdpConns i).appstate = some k)
    (hsend : (s.sockets k).appdata.send = false) : ∃ s', tickUdp s i = some s' ∧ OnlyUip s s' := by
  obtain ⟨s₁, htimer, ho, hlen⟩ := timer_quiet hconn hsend
  refine ⟨s₁, ?_, ho⟩
  simp [tickUdp, htimer, hlen]

/-- The system `endPacket` tries to send from. -/
def ended (s : System) (k : Nat) : System :=
  let data := (s.sockets k).appdata
  (s.setNet (s.net.resizeBlockTo data.packetOut 0 (add16 data.outPos UIP_SENDBUFFER_PADDING))).mapAppdata k
    fun data => { data with send := true }

theorem ended_pending {size : Nat} (hv : s.net.Valid)
    (hpos : (s.sockets k).appdata.outPos = outPosOf payload) (hmax : payload.length ≤ UIP_UDP_MAXDATALEN)
    (hne : payload ≠ []) (hsize : sizeOf payload ≤ size)
    (hblock : Packed s.net (s.sockets k).appdata.packetOut size payload) : Pending (ended s k) k payload := by
  obtain ⟨c, hc, hlen, hbytes⟩ := hblock
  have hm : UIP_UDP_MAXDATALEN = 1500 := rfl
  have hu : UIP_UDP_PHYH_LEN = 42 := rfl
  have ho : UIP_SENDBUFFER_OFFSET = 1 := rfl
  have hp : UIP_SENDBUFFER_PADDING = 7 := rfl
  have hadd : add16 (s.sockets k).appdata.outPos UIP_SENDBUFFER_PADDING = sizeOf payload := by
    rw [hpos, add16_eq (by rw [outPosOf]; omega), sizeOf]
  have heq := sizeOf_eq payload
  have hch := resizeBlockTo_ok hv hc (show 1 ≤ sizeOf payload by omega)
    (show 0 + sizeOf payload ≤ c.length by omega)
  have hnet : (ended s k).net = s.net.resizeBlockTo (s.sockets k).appdata.packetOut 0 (sizeOf payload) := by
    rw [← hadd]
    rfl
  have hdata : ((ended s k).sockets k).appdata = { (s.sockets k).appdata with send := true } := by
    simp [ended]
  refine ⟨hnet ▸ hch.valid, by rw [hdata], by rw [hdata, hpos], hmax, hne, ?_⟩
  rw [hdata, hnet]
  refine ⟨(c.drop 0).take (sizeOf payload), by rw [hch.view, Function.update_self], by simp; omega, ?_⟩
  rw [List.drop_zero, List.drop_take, List.take_take, Nat.min_eq_left (by omega), hbytes]

theorem endPacket_ok (hp : Pending (ended s k) k payload) (hopen : (s.sockets k).uipUdpConn = some i)
    (hconn : (s.uipUdpConns i).appstate = some k) (hout : (s.sockets k).appdata.packetOut ≠ NOBLOCK) :
    ∃ s' r frames ok, endPacket s k = some (s', r) ∧ Attempted (ended s k) k payload s' frames ok (reaches s i) := by
  obtain ⟨s₁, s', frames, ok, htimer, -, hsend, hs⟩ := attempt_ok hp hconn
  have hcall : endPacket s k = ((ended s k).uipUdpTimer i).bind fun s =>
      if 0 < s.uip.uipLen then (send s k).bind fun s => some (s, true) else some (s, false) := by
    simp only [endPacket, hopen, if_neg hout]
    rfl
  rw [htimer, Option.bind_some] at hcall
  by_cases hlen : 0 < s₁.uip.uipLen
  · rw [if_pos hlen] at hsend hcall
    rw [hsend, Option.bind_some] at hcall
    exact ⟨s', _, frames, ok, hcall, hs⟩
  · rw [if_neg hlen] at hsend hcall
    cases hsend
    exact ⟨_, _, frames, ok, hcall, hs⟩

theorem uipUdpNew_only {ripaddr : Option (BitVec 32)} {rport : Nat} {conn : Option (Fin UIP_UDP_CONNS)}
    (h : s.uipUdpNew ripaddr rport = some (s', conn)) : s'.net = s.net ∧ s'.sockets = s.sockets := by
  simp only [uipUdpNew, Option.bind_eq_bind, Option.bind_eq_some_iff] at h
  obtain ⟨lastport, -, h⟩ := h
  split at h
  · cases h
    exact ⟨rfl, rfl⟩
  · cases h
    exact ⟨rfl, rfl⟩

theorem newConn_ok {ripaddr : Option (BitVec 32)} {rport : Nat} (h : newConn s k ripaddr rport = some s') :
    s'.net = s.net ∧ (s'.sockets k).appdata = (s.sockets k).appdata := by
  simp only [newConn, Option.bind_eq_bind, Option.bind_eq_some_iff] at h
  obtain ⟨⟨s₁, conn⟩, hnew, h⟩ := h
  obtain ⟨hnet, hsockets⟩ := uipUdpNew_only hnew
  cases h
  exact ⟨hnet, by simp [mapSocket, hsockets]⟩

/-- The address part of `beginPacket` does not touch the sending side. -/
theorem connectTo_ok {ip : BitVec 32} {port : Nat} (h : connectTo s k ip port = some s')
    (hconn : ∀ i, (s.sockets k).uipUdpConn = some i → (s.uipUdpConns i).appstate = some k) :
    s'.net = s.net ∧ (s'.sockets k).appdata = (s.sockets k).appdata ∧
      (∀ i, (s'.sockets k).uipUdpConn = some i → (s'.uipUdpConns i).appstate = some k) ∧
      ((s.sockets k).uipUdpConn ≠ none → (s'.sockets k).uipUdpConn ≠ none) := by
  unfold connectTo at h
  cases hopen : (s.sockets k).uipUdpConn with
  | some i =>
    rw [hopen] at h
    cases h
    refine ⟨rfl, rfl, fun j hj => ?_, fun _ hnone => ?_⟩
    · obtain rfl := Option.some.inj (hopen.symm.trans hj)
      simpa [mapUdpConn] using hconn i hopen
    · exact nomatch hopen.symm.trans hnone
  | none =>
    rw [hopen] at h
    simp only [Option.bind_eq_bind, Option.bind_eq_some_iff] at h
    obtain ⟨s₁, hnew, h⟩ := h
    obtain ⟨hnet, hdata⟩ := newConn_ok hnew
    cases hnew' : (s₁.sockets k).uipUdpConn with
    | none =>
      rw [hnew'] at h
      cases h
      exact ⟨hnet, hdata, fun i hi => (nomatch hnew'.symm.trans hi), fun h => absurd rfl h⟩
    | some i =>
      rw [hnew'] at h
      cases h
      refine ⟨hnet, hdata, fun j hj => ?_, fun h => absurd rfl h⟩
      obtain rfl := Option.some.inj (hnew'.symm.trans hj)
      simp [mapUdpConn]

/-- The same sending side behind another connection of the socket. -/
theorem Sends.reconnected (hk : Sends s k m) (hnet : s'.net = s.net)
    (hdata : (s'.sockets k).appdata = (s.sockets k).appdata)
    (hconn : ∀ i, (s'.sockets k).uipUdpConn = some i → (s'.uipUdpConns i).appstate = some k)
    (hopen' : (s.sockets k).uipUdpConn ≠ none → (s'.sockets k).uipUdpConn ≠ none) : Sends s' k m := by
  obtain ⟨hv, -, hs⟩ := hk
  refine ⟨hnet ▸ hv, hconn, ?_⟩
  revert hs
  generalize m.phase = phase
  intro hs
  cases hs with
  | idle hout hsend => exact .idle (hdata ▸ hout) (hdata ▸ hsend)
  | writing hopen hsend hpos hmax hblock =>
    exact .writing (hopen' hopen) (hdata ▸ hsend) (hdata ▸ hpos) hmax (hnet ▸ hdata ▸ hblock)
  | sending hopen hsend hpos hmax hne hblock =>
    exact .sending (hopen' hopen) (hdata ▸ hsend) (hdata ▸ hpos) hmax hne (hnet ▸ hdata ▸ hblock)

/-- Without a block the socket is idle. -/
theorem Sends.idle_of (hk : Sends s k m) (hout : (s.sockets k).appdata.packetOut = NOBLOCK) :
    m.phase = .idle ∧ (s.sockets k).appdata.send = false := by
  have hs := hk.shows
  revert hs
  generalize m.phase = phase
  intro hs
  cases hs with
  | idle _ hsend => exact ⟨rfl, hsend⟩
  | writing _ _ _ _ hblock => exact absurd hout hblock.ne
  | sending _ _ _ _ _ hblock => exact absurd hout hblock.ne

theorem beginPacket_cases {ip : BitVec 32} {port : Nat} {success : Bool} (hk : Sends s k m)
    (h : beginPacket s k ip port = some (s', success)) :
    (success = false ∧ Sends s' k m) ∨
      (success = true ∧ m.phase = .idle ∧ Sends s' k ⟨.writing [], m.submitted⟩) := by
  simp only [beginPacket, Option.bind_eq_bind, Option.bind_eq_some_iff] at h
  obtain ⟨s₁, hto, h⟩ := h
  have hk₁ : Sends s₁ k m := by
    unfold setRemote at hto
    split at hto
    · obtain ⟨hnet, hdata, hconn, hopen⟩ := connectTo_ok hto hk.conn
      exact hk.reconnected hnet hdata hconn hopen
    · cases hto
      exact hk
  split at h
  · rename_i hfree
    obtain ⟨hopen, hout⟩ := hfree
    obtain ⟨hphase, hsend⟩ := hk₁.idle_of hout
    obtain ⟨⟨net, b⟩, halloc, h⟩ := Option.bind_eq_some_iff.mp h
    cases h
    obtain ⟨net', b', halloc', hres, -⟩ := allocBlock_ok hk₁.valid
      (show 1 ≤ UIP_UDP_MAXPACKETSIZE + UIP_SENDBUFFER_OFFSET + UIP_SENDBUFFER_PADDING by decide)
    obtain ⟨rfl, rfl⟩ := Prod.mk.inj (Option.some.inj (halloc.symm.trans halloc'))
    cases hres with
    | failed _ hch =>
      refine .inl ⟨rfl, hch.valid, by simpa using hk₁.conn, ?_⟩
      rw [hphase]
      exact .idle (by simp) (by simpa using hsend)
    | @placed _ c _ hfresh hlen hch =>
      have hview : net.view b = some c := by rw [hch.view, Function.update_self]
      refine .inr ⟨by simp [(view_ne hview).1], hphase, hch.valid, by simpa using hk₁.conn, ?_⟩
      refine .writing (by simpa using hopen) (by simpa using hsend) (by simp [outPosOf]) (by simp) ?_
      exact ⟨c, by simpa using hview, hlen, by simp⟩
  · cases h
    exact .inl ⟨rfl, hk₁⟩

/-- Bytes written behind the payload. -/
theorem splice_append {c : List Byte} {o : Nat} (hbytes : (c.drop o).take payload.length = payload)
    (hlen : o + payload.length ≤ c.length) (buffer : List Byte) :
    ((splice c (o + payload.length) buffer).drop o).take (payload ++ buffer).length = payload ++ buffer := by
  have htake : c.take (o + payload.length) = c.take o ++ payload := by rw [List.take_add, hbytes]
  rw [splice, htake, List.append_assoc, List.append_assoc, List.drop_left' (by simp; omega),
    ← List.append_assoc, List.take_left]

theorem write_writing {buffer : List Byte} {sub : List (List Byte)} {n : Nat}
    (hk : Sends s k ⟨.writing payload, sub⟩)
    (hroom : (s.sockets k).appdata.outPos + buffer.length ≤
      UIP_UDP_PHYH_LEN + UIP_SENDBUFFER_OFFSET + UIP_UDP_MAXDATALEN)
    (h : write s k buffer = (s', n)) : n = buffer.length ∧ Sends s' k ⟨.writing (payload ++ buffer), sub⟩ := by
  obtain ⟨hv, hconn, hs⟩ := hk
  cases hs with
  | writing hopen hsend hpos hmax hblock =>
    have hne := hblock.ne
    obtain ⟨c, hc, hclen, hbytes⟩ := hblock
    have hu : UIP_UDP_PHYH_LEN = 42 := rfl
    have ho : UIP_SENDBUFFER_OFFSET = 1 := rfl
    have hp : UIP_SENDBUFFER_PADDING = 7 := rfl
    have hm : UIP_UDP_MAXDATALEN = 1500 := rfl
    have hmp : UIP_UDP_MAXPACKETSIZE = 1542 := rfl
    have hout : (s.sockets k).appdata.outPos = 43 + payload.length := hpos
    obtain ⟨hcount, hch⟩ := writePacket_ok hv hc (show (s.sockets k).appdata.outPos ≤ c.length by omega) buffer
    rw [Nat.min_eq_left (by omega)] at hcount
    rw [List.take_of_length_le (by omega)] at hch
    simp only [write, if_neg hne, hcount] at h
    obtain ⟨rfl, rfl⟩ := Prod.mk.inj h
    let net := (s.net.writePacket (s.sockets k).appdata.packetOut (s.sockets k).appdata.outPos buffer).1
    refine ⟨rfl, hch.valid, by simpa using hconn, ?_⟩
    refine .writing (by simpa using hopen) (by simpa using hsend) ?_ (by simp; omega) ?_
    · rw [mapAppdata_appdata]
      show add16 (s.sockets k).appdata.outPos buffer.length = _
      rw [add16_eq (by omega), hpos, outPosOf, outPosOf, List.length_append, Nat.add_assoc]
    · rw [mapAppdata_appdata]
      refine ⟨splice c (s.sockets k).appdata.outPos buffer, ?_, ?_, ?_⟩
      · show net.view _ = _
        rw [hch.view]
        exact Function.update_self _ _ _
      · rw [splice_length (by omega), hclen]
      · rw [hpos]
        exact splice_append hbytes (by rw [← outPosOf]; omega) buffer

theorem Sends.onlyUip (hk : Sends s k m) (ho : OnlyUip s s') : Sends s' k m :=
  hk.reconnected ho.net (by rw [ho.sockets]) (by rw [ho.sockets, ho.uipUdpConns]; exact hk.conn)
    (by rw [ho.sockets]; exact id)

theorem freed_false (hview : s'.net.view = s.net.view) : freed s k s' = false := by
  rw [freed, hview]
  cases s.net.view (s.sockets k).appdata.packetOut <;> rfl

/-- The sender behind an attempt of a socket whose block holds the payload. -/
theorem Attempted.sends {s₀ : System} {frames : List Frame} {ok reached : Bool} {size : Nat} {sub : List (List Byte)}
    (h : Attempted s₀ k payload s' frames ok reached) (hp : Pending s₀ k payload)
    (hopen : (s₀.sockets k).uipUdpConn ≠ none)
    (hconn : ∀ i, (s₀.sockets k).uipUdpConn = some i → (s₀.uipUdpConns i).appstate = some k)
    (hout : (s₀.sockets k).appdata.packetOut = (s.sockets k).appdata.packetOut)
    (hblock : Packed s.net (s.sockets k).appdata.packetOut size payload) :
    Attempt payload frames (UIPUDP.freed s k s') reached ∧
      Sends s' k ⟨Sender.next payload (UIPUDP.freed s k s'), sub⟩ := by
  rw [h.freed_eq hout hblock]
  refine ⟨h.attempt, h.valid, ?_, h.shows hp hopen⟩
  rw [h.conn, h.conns]
  exact hconn

/-- `endPacket` with a payload in the block. -/
theorem endPacket_sends {size : Nat} {frames : List Frame} {r : Bool} {sub : List (List Byte)}
    (hv : s.net.Valid) (hopen : (s.sockets k).uipUdpConn ≠ none)
    (hconn : ∀ i, (s.sockets k).uipUdpConn = some i → (s.uipUdpConns i).appstate = some k)
    (hpos : (s.sockets k).appdata.outPos = outPosOf payload) (hmax : payload.length ≤ UIP_UDP_MAXDATALEN)
    (hne : payload ≠ []) (hsize : sizeOf payload ≤ size)
    (hblock : Packed s.net (s.sockets k).appdata.packetOut size payload)
    (hcall : endPacket s k = some (s', r)) (hsent : s'.net.sent = frames ++ s.net.sent) :
    Attempt payload frames (freed s k s') ((s.sockets k).uipUdpConn.any (reaches s)) ∧
      Sends s' k ⟨Sender.next payload (freed s k s'), sub⟩ := by
  have hp := ended_pending hv hpos hmax hne hsize hblock
  obtain ⟨i, hi⟩ := Option.ne_none_iff_exists'.mp hopen
  obtain ⟨s₁, r₁, frames₁, ok, hcall₁, h⟩ := endPacket_ok hp hi (hconn i hi) hblock.ne
  obtain ⟨rfl, rfl⟩ := Prod.mk.inj (Option.some.inj (hcall₁.symm.trans hcall))
  obtain rfl : frames = frames₁ := List.append_cancel_right (hsent.symm.trans h.sent)
  rw [hi, Option.any_some]
  exact h.sends hp (by simpa [ended] using hopen) (by simpa [ended] using hconn) (by simp [ended]) hblock

theorem endPacket_idle (hout : (s.sockets k).appdata.packetOut = NOBLOCK) : endPacket s k = some (s, false) := by
  unfold endPacket
  cases (s.sockets k).uipUdpConn with
  | none => rfl
  | some i => exact if_pos hout

theorem poll_quiet {frames : List Frame} (hk : Sends s k m) (hi : (s.uipUdpConns i).appstate = some k)
    (hcall : tickUdp s i = some s') (hsent : s'.net.sent = frames ++ s.net.sent)
    (hsend : (s.sockets k).appdata.send = false) (hphase : m.pending = []) :
    ∃ m', Sender.Step m (.poll frames (freed s k s') (reaches s i)) m' ∧ Sends s' k m' := by
  obtain ⟨s₁, hcall₁, ho⟩ := tickUdp_quiet hi hsend
  obtain rfl := Option.some.inj (hcall₁.symm.trans hcall)
  rw [ho.net] at hsent
  rw [freed_false (by rw [ho.net]), List.self_eq_append_left.mp hsent]
  exact ⟨m, .quiet hphase, hk.onlyUip ho⟩

/-- The turns of `tick` for the socket's connection come back. -/
theorem Sends.tickUdp_back (hk : Sends s k m) (hi : (s.uipUdpConns i).appstate = some k) :
    ∃ t, tickUdp s i = some t := by
  obtain ⟨phase, sub⟩ := m
  obtain ⟨hv, hconn, hshows⟩ := hk
  have hquiet : (s.sockets k).appdata.send = false → ∃ t, tickUdp s i = some t := fun hsend => by
    obtain ⟨t, hcall, -⟩ := tickUdp_quiet hi hsend
    exact ⟨t, hcall⟩
  cases hshows with
  | idle hout hsend => exact hquiet hsend
  | writing hopen hsend => exact hquiet hsend
  | sending hopen hsend hpos hmax hne hblock =>
    obtain ⟨t, _, _, hcall, -⟩ := tickUdp_sends ⟨hv, hsend, hpos, hmax, hne, hblock⟩ hi
    exact ⟨t, hcall⟩

/-- `endPacket` comes back. -/
theorem Sends.endPacket_back (hk : Sends s k m)
    (hfull : UIP_UDP_PHYH_LEN + UIP_SENDBUFFER_OFFSET < (s.sockets k).appdata.outPos) :
    ∃ t r, endPacket s k = some (t, r) := by
  obtain ⟨phase, sub⟩ := m
  obtain ⟨hv, hconn, hshows⟩ := hk
  have hback : ∀ {payload size}, (s.sockets k).uipUdpConn ≠ none →
      (s.sockets k).appdata.outPos = outPosOf payload → payload.length ≤ UIP_UDP_MAXDATALEN →
      sizeOf payload ≤ size → Packed s.net (s.sockets k).appdata.packetOut size payload →
      ∃ t r, endPacket s k = some (t, r) := by
    intro payload size hopen hpos hmax hsize hblock
    rw [hpos, outPosOf] at hfull
    have hne := List.length_pos_iff.mp (Nat.pos_of_lt_add_right hfull)
    obtain ⟨i, hi⟩ := Option.ne_none_iff_exists'.mp hopen
    obtain ⟨t, r, _, _, hcall, -⟩ :=
      endPacket_ok (ended_pending hv hpos hmax hne hsize hblock) hi (hconn i hi) hblock.ne
    exact ⟨t, r, hcall⟩
  cases hshows with
  | idle hout hsend => exact ⟨s, false, endPacket_idle hout⟩
  | writing hopen hsend hpos hmax hblock => exact hback hopen hpos hmax (sizeOf_le hmax) hblock
  | sending hopen hsend hpos hmax hne hblock => exact hback hopen hpos hmax (Nat.le_refl _) hblock

/-- Every step of the socket is a step of the sender. -/
theorem step_ok {e : SendEvent} (hk : Sends s k m) (hs : SenderStep k s e s') :
    ∃ m', Sender.Step m e m' ∧ Sends s' k m' := by
  obtain ⟨phase, sub⟩ := m
  obtain ⟨hv, hconn, hshows⟩ := id hk
  cases hs with
  | beginPacket hcall =>
    rcases beginPacket_cases hk hcall with ⟨rfl, hk'⟩ | ⟨rfl, rfl, hk'⟩
    · exact ⟨_, .refused, hk'⟩
    · exact ⟨_, .beginPacket, hk'⟩
  | write hopen hroom hcall =>
    cases hshows with
    | idle hout hsend =>
      rw [write, if_pos hout] at hcall
      obtain ⟨rfl, rfl⟩ := Prod.mk.inj hcall
      exact ⟨_, .unopened, hk⟩
    | writing =>
      obtain ⟨rfl, hk'⟩ := write_writing hk hroom hcall
      exact ⟨_, .write, hk'⟩
    | sending _ hsend => exact absurd (hopen.symm.trans hsend) (by decide)
  | endPacket hfull hcall hsent =>
    cases hshows with
    | idle hout hsend =>
      rw [endPacket_idle hout] at hcall
      cases hcall
      rw [freed_false rfl, List.self_eq_append_left.mp hsent]
      exact ⟨_, .nothing, hk⟩
    | writing hopen hsend hpos hmax hblock =>
      have hne := Or.resolve_left hfull hblock.ne
      rw [hpos, outPosOf] at hne
      have hpay := List.length_pos_iff.mp (Nat.pos_of_lt_add_right hne)
      obtain ⟨ha, hk'⟩ := endPacket_sends hv hopen hconn hpos hmax hpay (sizeOf_le hmax) hblock hcall hsent
      exact ⟨_, .endPacket hpay ha, hk'⟩
    | sending hopen hsend hpos hmax hne hblock =>
      obtain ⟨ha, hk'⟩ := endPacket_sends hv hopen hconn hpos hmax hne (Nat.le_refl _) hblock hcall hsent
      exact ⟨_, .again ha, hk'⟩
  | poll hi hcall hsent =>
    cases hshows with
    | idle hout hsend => exact poll_quiet hk hi hcall hsent hsend rfl
    | writing hopen hsend => exact poll_quiet hk hi hcall hsent hsend rfl
    | sending hopen hsend hpos hmax hne hblock =>
      have hp : Pending s k _ := ⟨hv, hsend, hpos, hmax, hne, hblock⟩
      obtain ⟨s₁, frames₁, ok, hcall₁, h⟩ := tickUdp_sends hp hi
      obtain rfl := Option.some.inj (hcall₁.symm.trans hcall)
      obtain rfl := List.append_cancel_right (hsent.symm.trans h.sent)
      obtain ⟨ha, hk'⟩ := h.sends hp hopen hconn rfl hblock
      exact ⟨_, .poll ha, hk'⟩
  | other hother => exact ⟨_, .other, hk.beside hother⟩

end UIPEthernet.UIPUDP
