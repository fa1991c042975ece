import UIPEthernet.Uip.DataTurn
import UIPEthernet.NetworkSend

/-!
# The frame in the receive ring

The read pointer moves with `setERXRDPT` only: in `receivePacket`,
`freePacket`, and at the end of every `copyPacket`. `Held` says that a function
leaves it where it is, and `in_packet` with its flag.
-/

namespace UIPEthernet

namespace Enc28J60Network

variable {e e' : Enc28J60Network} {h : Handle} {size : Nat}

theorem allocBlock_read (halloc : e.allocBlock size = some (e', h)) : e'.ERXRDPT = e.ERXRDPT := by
  obtain ⟨⟨b, ram, h'⟩, -, heq⟩ := Option.bind_eq_some_iff.mp halloc
  cases heq
  rfl

theorem freeBlock_read (hfree : e.freeBlock h = some e') : e'.ERXRDPT = e.ERXRDPT := by
  obtain ⟨b, -, heq⟩ := Option.bind_eq_some_iff.mp hfree
  cases heq
  rfl

theorem sendPacket_read (e : Enc28J60Network) (h : Handle) : (e.sendPacket h).1.ERXRDPT = e.ERXRDPT := by
  unfold sendPacket
  cases e.transmissions with
  | nil => rfl
  | cons t rest => rfl

/-- A packet written and sent. -/
theorem writeSend_read {e e' : Enc28J60Network} {h : Handle} {position : Nat} {buffer : List Byte} {ok : Bool}
    (hsent : (e.writePacket h position buffer).1.sendPacket h = (e', ok)) : e'.ERXRDPT = e.ERXRDPT := by
  have hread := sendPacket_read (e.writePacket h position buffer).1 h
  rw [hsent] at hread
  exact hread

end Enc28J60Network

open Enc28J60Network

namespace System

/-- Nothing of the receive ring is given back, nor is the packet dropped. -/
structure Held (s s' : System) : Prop where
  inPacket : s'.inPacket = s.inPacket
  read : s'.net.ERXRDPT = s.net.ERXRDPT
  free : has s'.packetstate UIPETHERNET_FREEPACKET = has s.packetstate UIPETHERNET_FREEPACKET

/-- Something of the ring may be given back of a packet that is not kept. -/
structure Released (s s' : System) : Prop where
  inPacket : s'.inPacket = s.inPacket
  either : s'.net.ERXRDPT = s.net.ERXRDPT ∨
    has s'.packetstate UIPETHERNET_FREEPACKET = has s.packetstate UIPETHERNET_FREEPACKET

variable {s s' s₁ s₂ : System} {c u : Fin UIP_CONNS}

theorem Held.refl (s : System) : Held s s := ⟨rfl, rfl, rfl⟩

theorem Held.trans (h : Held s s₁) (h' : Held s₁ s₂) : Held s s₂ :=
  ⟨h'.inPacket.trans h.inPacket, h'.read.trans h.read, h'.free.trans h.free⟩

theorem Held.released (h : Held s s') : Released s s' := ⟨h.inPacket, .inl h.read⟩

theorem Held.before (h : Held s s₁) (h' : Released s₁ s₂) : Released s s₂ :=
  ⟨h'.inPacket.trans h.inPacket, h'.either.imp (·.trans h.read) (·.trans h.free)⟩

theorem Released.after (h : Released s s₁) (h' : Held s₁ s₂) : Released s s₂ :=
  ⟨h'.inPacket.trans h.inPacket, h.either.imp h'.read.trans h'.free.trans⟩

theorem Held.of_eq (hin : s'.inPacket = s.inPacket) (hnet : s'.net = s.net) (hstate : s'.packetstate = s.packetstate) :
    Held s s' := ⟨hin, by rw [hnet], by rw [hstate]⟩

theorem OnlyUip.held (h : OnlyUip s s') : Held s s' := .of_eq h.inPacket h.net h.packetstate

theorem Touch.held (h : Touch c s s') : Held s s' := by
  rw [h.same]
  exact .of_eq rfl rfl rfl

theorem setNet_held {net : Enc28J60Network} (h : net.ERXRDPT = s.net.ERXRDPT) : Held s (s.setNet net) := ⟨rfl, h, rfl⟩

theorem mapConn_held (f : Conn → Conn) : Held s (s.mapConn c f) := .of_eq rfl rfl rfl

theorem setData_held (d : Userdata) : Held s (s.setData u d) := .of_eq rfl rfl rfl

theorem setFlags_held (flags : BitVec 8) : Held s (s.setFlags flags) := .of_eq rfl rfl rfl

theorem record_held (e : Event) : Held s (s.record e) := .of_eq rfl rfl rfl

-- ---------------------------------------------------------------------------
-- network_send
-- ---------------------------------------------------------------------------

theorem has_sent (x : BitVec 8) :
    has (x &&& ~~~UIPETHERNET_SENDPACKET) UIPETHERNET_FREEPACKET = has x UIPETHERNET_FREEPACKET := by
  revert x; decide

theorem has_toSend (x : BitVec 8) :
    has (x ||| UIPETHERNET_SENDPACKET) UIPETHERNET_FREEPACKET = has x UIPETHERNET_FREEPACKET := by
  revert x; decide

theorem networkSend_held {ok : Bool} (h : s.networkSend = some (s', ok)) : Held s s' := by
  have hin := (networkSend_only h).inPacket
  refine ⟨hin, ?_, ?_⟩
  · rcases networkSend_cases h with ⟨-, net, hsent, hnet⟩ | ⟨-, net, b, halloc, hnet⟩
    · split at hnet
      · rw [freeBlock_read hnet, writeSend_read hsent]
      · rw [hnet, writeSend_read hsent]
    · split at hnet
      · rw [hnet, allocBlock_read halloc]
      · obtain ⟨net', hsent, hfree⟩ := hnet
        rw [freeBlock_read hfree, writeSend_read hsent, allocBlock_read halloc]
  · simp only [networkSend, Option.bind_eq_bind, Option.pure_def] at h
    split at h
    · split at h
      · obtain ⟨net, -, h⟩ := Option.bind_eq_some_iff.mp h
        cases h
        exact has_sent _
      · cases h
        exact has_sent _
    · obtain ⟨⟨net, k⟩, -, h⟩ := Option.bind_eq_some_iff.mp h
      split at h
      · cases h
        rfl
      · obtain ⟨net', -, h⟩ := Option.bind_eq_some_iff.mp h
        cases h
        rfl

theorem sendOut_held (h : s.sendOut = some s') : Held s s' := by
  simp only [sendOut, Option.bind_eq_bind, Option.pure_def] at h
  split at h
  · obtain ⟨⟨s₁, ok⟩, hsend, h⟩ := Option.bind_eq_some_iff.mp h
    cases h
    have harp : Held s (s.mapUip Uip.arpOut) := .of_eq rfl rfl rfl
    exact harp.trans (networkSend_held hsend)
  · cases h
    exact .refl s

end System

-- ---------------------------------------------------------------------------
-- The callback of a TCP connection
-- ---------------------------------------------------------------------------

namespace UIPClient

open UIPEthernet.System

variable {s s' s₁ s₂ : System} {c u : Fin UIP_CONNS}

theorem flushBlocks_read {net net' : Enc28J60Network} {block block' : Packets}
    (h : flushBlocks net block = some (net', block')) : net'.ERXRDPT = net.ERXRDPT := by
  simp only [flushBlocks, Option.bind_eq_bind, Option.bind_eq_some_iff] at h
  obtain ⟨net₁, hfold, h⟩ := h
  cases h
  have hall : ∀ (slots : List (Fin UIP_SOCKET_NUMPACKETS)) (net net' : Enc28J60Network),
      slots.foldlM (fun net i => net.freeBlock (block i)) net = some net' → net'.ERXRDPT = net.ERXRDPT := by
    intro slots
    induction slots with
    | nil =>
      rintro net net' ⟨⟩
      rfl
    | cons i rest ih =>
      intro net net' h
      obtain ⟨net₁, hfree, hrest⟩ := Option.bind_eq_some_iff.mp h
      exact (ih net₁ net' hrest).trans (freeBlock_read hfree)
  exact hall _ _ _ hfold

theorem eatBlock_read {net net' : Enc28J60Network} {block block' : Packets}
    (h : eatBlock net block = some (net', block')) : net'.ERXRDPT = net.ERXRDPT := by
  simp only [eatBlock, Option.bind_eq_bind, Option.bind_eq_some_iff] at h
  obtain ⟨net₁, hfree, h⟩ := h
  cases h
  exact freeBlock_read hfree

theorem eatIn_held (h : eatIn s u = some s') : Held s s' := by
  simp only [eatIn, Option.bind_eq_bind, Option.bind_eq_some_iff, Prod.exists] at h
  obtain ⟨net, block, heat, h⟩ := h
  cases h
  exact (setNet_held (eatBlock_read heat)).trans (setData_held _)

theorem eatOut_held (h : eatOut s u = some s') : Held s s' := by
  simp only [eatOut, Option.bind_eq_bind, Option.bind_eq_some_iff, Prod.exists] at h
  obtain ⟨net, block, heat, h⟩ := h
  cases h
  exact (setNet_held (eatBlock_read heat)).trans (setData_held _)

theorem flushIn_held (h : flushIn s u = some s') : Held s s' := by
  simp only [flushIn, Option.bind_eq_bind, Option.bind_eq_some_iff, Prod.exists] at h
  obtain ⟨net, block, hflush, h⟩ := h
  cases h
  exact (setNet_held (flushBlocks_read hflush)).trans (setData_held _)

theorem flushOut_held (h : flushOut s u = some s') : Held s s' := by
  simp only [flushOut, Option.bind_eq_bind, Option.bind_eq_some_iff, Prod.exists] at h
  obtain ⟨net, block, hflush, h⟩ := h
  cases h
  exact (setNet_held (flushBlocks_read hflush)).trans (setData_held _)

theorem attach_held : Held s (attach s c) := by
  rw [attach]
  split
  · split
    · exact .refl s
    · rename_i s₁ v halloc
      have h₁ : Held s s₁ := by
        simp only [allocateData] at halloc
        split at halloc
        · cases halloc
        · cases halloc
          exact setData_held _
      exact (h₁.trans (mapConn_held _)).trans (record_held _)
  · exact .refl s

/-- The data is copied, or the packet stays as it is. -/
theorem storeData_held {slots : List (Fin UIP_SOCKET_NUMPACKETS)} {stored : Bool}
    (h : storeData c u slots s = some (s', stored)) :
    s'.inPacket = s.inPacket ∧ s'.packetstate = s.packetstate ∧
      (stored = false → s'.net.ERXRDPT = s.net.ERXRDPT) := by
  induction slots generalizing s with
  | nil =>
    cases h
    exact ⟨rfl, rfl, fun _ => rfl⟩
  | cons i rest ih =>
    rw [storeData] at h
    split at h
    · obtain ⟨⟨net, k⟩, halloc, h⟩ := Option.bind_eq_some_iff.mp h
      simp only at h
      split at h
      · obtain ⟨hin, hstate, hread⟩ := ih h
        exact ⟨hin, hstate, fun hno => (hread hno).trans (allocBlock_read halloc)⟩
      · obtain ⟨net', -, h⟩ := Option.bind_eq_some_iff.mp h
        cases h
        refine ⟨?_, ?_, fun h => absurd h (by decide)⟩ <;> split <;> rfl
    · exact ih h

theorem newdata_released (h : newdata s c u = some s') : Released s s' := by
  rw [newdata] at h
  split at h
  · simp only [Option.bind_eq_bind, Option.bind_eq_some_iff, Prod.exists] at h
    obtain ⟨s₁, stored, hstore, h⟩ := h
    obtain ⟨hin, hstate, hread⟩ := storeData_held hstore
    split at h
    · cases h
      exact ⟨hin, .inr (by rw [hstate])⟩
    · rename_i hno
      cases h
      exact ⟨hin, .inl (hread (Bool.eq_false_iff.mpr hno))⟩
  · cases h
    exact (Held.refl s).released

/-- Without data nothing is stored. -/
theorem newdata_none (hlen : ¬has s.uip.uipFlags UIP_NEWDATA) : newdata s c u = some s :=
  if_neg fun h => hlen h.1

theorem restart_held : Held s (restart s c u) := by
  rw [restart]
  split
  · exact ((setData_held _).trans (setFlags_held _)).trans (mapConn_held _)
  · exact .refl s

theorem closed_held (h : closed s c u = some s') : Held s s' := by
  simp only [closed, Option.bind_eq_bind, Option.bind_eq_some_iff, Option.pure_def, Option.some.injEq] at h
  obtain ⟨s₁, hflush, rfl⟩ := h
  refine ((flushOut_held hflush).trans ?_).trans (mapConn_held _)
  split
  · exact (setData_held _).trans (setData_held _)
  · exact setData_held _

theorem acked_held (h : acked s u = some s') : Held s s' := by
  rw [acked] at h
  split at h
  · exact eatOut_held h
  · cases h
    exact .refl s

theorem closing_held : Held s (closing s c u) := by
  rw [closing]
  split
  · split
    · exact ((setData_held _).trans (mapConn_held _)).trans (setFlags_held _)
    · exact mapConn_held _
  · exact .refl s

theorem finish_held (sendLen : Nat) : Held s (finish s sendLen) := by
  simp only [finish]
  split <;> exact .of_eq rfl rfl rfl

theorem cutHead_held : Held s (cutHead s u) := by
  obtain ⟨net, hcut, hnet⟩ := cutHead_net s u
  rw [hcut]
  exact setNet_held (by rw [hnet])

/-- The size of the block for a segment. -/
def segmentSize (sendLen : Nat) : Nat :=
  add16 (UIP_IPTCPH_LEN + UIP_LLH_LEN + sendLen) (UIP_SENDBUFFER_OFFSET + UIP_SENDBUFFER_PADDING)

/-- Whether a poll or a retransmission would copy bytes for a segment: there
are some at the head of the queue, and the pool has room. -/
structure Copies (s : System) (u : Fin UIP_CONNS) : Prop where
  head : (s.allData u).packetsOut 0 ≠ NOBLOCK
  bytes : sendLength s u ≠ 0
  room : ∃ net h, (cutHead s u).net.allocBlock (segmentSize (sendLength s u)) = some (net, h) ∧ h ≠ NOBLOCK

/-- Without a copy the ring is left alone. -/
theorem polled_held (happ : AtPayload s) (hno : ¬Copies s u) (h : polled s c u = some s') : Held s s' := by
  simp only [polled, Option.bind_eq_bind, Option.pure_def] at h
  split at h
  · rename_i hhead
    obtain ⟨⟨s₁, sendLen⟩, hoffer, h⟩ := Option.bind_eq_some_iff.mp h
    cases h
    refine Held.trans ?_ (finish_held _)
    simp only [offer, Option.bind_eq_bind, Option.pure_def] at hoffer
    split at hoffer
    · cases hoffer
      exact .refl s
    · rename_i hbytes
      obtain ⟨s₂, hprep, hoffer⟩ := Option.bind_eq_some_iff.mp hoffer
      cases hoffer
      show Held s s₁
      have hcutHeld : Held s (cutHead s u) := cutHead_held
      refine hcutHeld.trans ?_
      obtain ⟨net₀, hcut, -⟩ := cutHead_net s u
      have hhdr : (cutHead s u).uip.uipAppdata % 256 = UIP_IPTCPH_LEN + UIP_LLH_LEN := by
        rw [hcut]
        exact congrArg (· % 256) happ
      simp only [prepare, Option.bind_eq_bind, Option.pure_def, hhdr] at hprep
      obtain ⟨⟨net, k⟩, halloc, hprep⟩ := Option.bind_eq_some_iff.mp hprep
      simp only at hprep
      split at hprep
      · cases hprep
        exact ⟨rfl, allocBlock_read halloc, rfl⟩
      · rename_i hk
        exact absurd ⟨hhead.2, hbytes, net, k, halloc, hk⟩ hno
  · cases h
    exact closing_held.trans (finish_held _)

/-- The callback for a segment. -/
theorem serve_released (hflags : ¬has s.uip.uipFlags (UIP_POLL ||| UIP_REXMIT)) (h : serve s c u = some s') :
    Released s s' := by
  simp only [serve, Option.bind_eq_bind, Option.pure_def] at h
  obtain ⟨s₁, hnew, h⟩ := Option.bind_eq_some_iff.mp h
  have h₁ : Released s (restart s₁ c u) := (newdata_released hnew).after restart_held
  have hflags₁ : ¬has (restart s₁ c u).uip.uipFlags (UIP_POLL ||| UIP_REXMIT) := by
    rwa [restart_flags (by decide), newdata_uip hnew]
  split at h
  · obtain ⟨s₂, hclosed, h⟩ := Option.bind_eq_some_iff.mp h
    cases h
    exact h₁.after ((closed_held hclosed).trans (finish_held _))
  · obtain ⟨s₂, hack, h⟩ := Option.bind_eq_some_iff.mp h
    refine h₁.after ((acked_held hack).trans ?_)
    rw [polled, acked_uip hack, if_neg (fun h => hflags₁ h.1)] at h
    cases h
    exact closing_held.trans (finish_held _)

theorem appcall_released (hflags : ¬has s.uip.uipFlags (UIP_POLL ||| UIP_REXMIT))
    (h : uipclientAppcall s c = some s') : Released s s' := by
  have hattach : Held s (attach s c) := attach_held
  simp only [uipclientAppcall] at h
  split at h
  · cases h
    exact (hattach.trans (finish_held _)).released
  · refine hattach.before (serve_released ?_ h)
    rw [attach_uip]
    exact hflags

/-- The callback for a connection that has timed out. -/
theorem appcall_timedOut (hflags : s.uip.uipFlags = UIP_TIMEDOUT) (h : uipclientAppcall s c = some s') : Held s s' := by
  have hattach : Held s (attach s c) := attach_held
  have hflags₁ : (attach s c).uip.uipFlags = UIP_TIMEDOUT := by rw [attach_uip, hflags]
  simp only [uipclientAppcall] at h
  split at h
  · cases h
    exact hattach.trans (finish_held _)
  · rename_i u _
    simp only [serve, Option.bind_eq_bind, Option.pure_def] at h
    rw [newdata_none (by rw [hflags₁]; decide), Option.bind_some] at h
    have hclosed : has (restart (attach s c) c u).uip.uipFlags (UIP_CLOSE ||| UIP_TIMEDOUT) := by
      rw [restart_flags (by decide), hflags₁]
      decide
    rw [if_pos hclosed] at h
    obtain ⟨s₂, hrun, h⟩ := Option.bind_eq_some_iff.mp h
    cases h
    exact ((hattach.trans restart_held).trans (closed_held hrun)).trans (finish_held _)

end UIPClient

namespace System

variable {s s' s₁ s₂ : System} {c u : Fin UIP_CONNS}

-- ---------------------------------------------------------------------------
-- The turns of tick
-- ---------------------------------------------------------------------------

theorem Turn.released {n : Nat} (h : Turn c n s s') : Released s s' := by
  cases h with
  | quiet h => exact h.toTouch.held.released
  | served s₁ s₂ hpre hcall hpost =>
    exact (hpre.toTouch.held.before (UIPClient.appcall_released hpre.unasked hcall)).after hpost.toTouch.held

theorem Ticked.copies (hpre : Ticked c s s₁) (h : UIPClient.Copies (UIPClient.restart s₁ c u) u) :
    UIPClient.Copies s u := by
  obtain ⟨state, hdata⟩ := UIPClient.restart_data (s := s₁) (c := c) (u := u)
  have hsame := hpre.same
  have hdata' : (UIPClient.restart s₁ c u).allData u = { s.allData u with state } := by
    rw [hdata, hsame]
  have hnet : (UIPClient.restart s₁ c u).net = s.net := by rw [UIPClient.restart_net, hsame]
  have hlen : UIPClient.sendLength (UIPClient.restart s₁ c u) u = UIPClient.sendLength s u := by
    simp only [UIPClient.sendLength, hdata', hnet]
  have hcut : (UIPClient.cutHead (UIPClient.restart s₁ c u) u).net = (UIPClient.cutHead s u).net := by
    simp only [UIPClient.cutHead, hdata']
    split
    · show (UIPClient.restart s₁ c u).net.resizeBlockTo _ _ _ = _
      rw [hnet]
      rfl
    · exact hnet
  obtain ⟨hhead, hbytes, hroom⟩ := h
  rw [hdata'] at hhead
  rw [hlen] at hbytes hroom
  rw [hcut] at hroom
  exact ⟨hhead, hbytes, hroom⟩

/-- Whether a run of `uip_process` for the timer asks an established connection
for data; a poll does so only when nothing is unacknowledged. -/
def Asks (s : System) (c : Fin UIP_CONNS) : Prop :=
  (s.uipConns c).tcpstateflags.state = TcpState.UIP_ESTABLISHED ∧
    ((s.uipConns c).len ≠ 0 → (s.uipConns c).timer = 0 ∧ (s.uipConns c).nrtx ≠ UIP_MAXRTX)

/-- A turn of the timer copies bytes only for a connection that is asked for
them. -/
theorem DataTurn.held (h : DataTurn c s s')
    (hno : ∀ u, (s.uipConns c).appstate = some u → Asks s c → ¬UIPClient.Copies s u) : Held s s' := by
  have hcallback : ∀ {s₁ s₂}, Ticked c s s₁ → s₁.uip.uipFlags = UIP_POLL ∨ s₁.uip.uipFlags = UIP_REXMIT → Asks s c →
      uipclientAppcall s₁ c = some s₂ → Held s s₂ := by
    intro s₁ s₂ hpre hflags hasks hcall
    cases happ : (s₁.uipConns c).appstate with
    | none =>
      have hattach : UIPClient.attach s₁ c = s₁ := by
        refine if_neg fun h => ?_
        rcases hflags with hf | hf <;> exact absurd (hf ▸ h.2) (by decide)
      simp only [uipclientAppcall, hattach, happ] at hcall
      cases hcall
      exact hpre.toTouch.held.trans (UIPClient.finish_held 0)
    | some u =>
      rw [appcall_polled happ hflags] at hcall
      have hattached : (s.uipConns c).appstate = some u := hpre.appstate.symm.trans happ
      have hrestart : Held s₁ (UIPClient.restart s₁ c u) := UIPClient.restart_held
      refine (hpre.toTouch.held.trans hrestart).trans
        (UIPClient.polled_held (UIPClient.restart_atPayload hpre.atPayload) ?_ hcall)
      exact fun hcopies => hno u hattached hasks (hpre.copies hcopies)
  cases h with
  | quiet h => exact h.toTouch.held
  | timedOut s₁ s₂ hpre hflags hcall hpost =>
    exact (hpre.toTouch.held.trans (UIPClient.appcall_timedOut hflags hcall)).trans (tcpSendNodata_only hpost).held
  | poll s₁ s₂ hpre hflags hest hlen hcall hpost =>
    exact (hcallback hpre (.inl hflags) ⟨hest, fun hne => absurd hlen hne⟩ hcall).trans (appsend_stays hpost).toTouch.held
  | rexmit s₁ s₂ hpre hflags hest _ htimer hnrtx hcall hpost =>
    exact (hcallback hpre (.inr hflags) ⟨hest, fun _ => ⟨htimer, hnrtx⟩⟩ hcall).trans (apprexmit_only hpost).held

end System

end UIPEthernet
