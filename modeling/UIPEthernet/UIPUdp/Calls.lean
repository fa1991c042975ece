import UIPEthernet.UIPEthernetClass.Held
import UIPEthernet.UIPEthernetClass.Session

/-!
# UDP beside TCP

The calls of a `UIPUDP` object, its turn of `tick` and the other calls that run
no callback of a connection leave the connections, the entries and the frame in
the receive ring alone.
-/

namespace UIPEthernet

open Enc28J60Network

/-- Whether the action runs the stack or is about a TCP connection. -/
def Action.isTcp : Action → Bool
  | .tick _ _ | .connect _ _ | .stop _ | .write _ _ _ | .read _ _ | .flush _ => true
  | _ => false

namespace System

/-- Neither a connection or an entry nor the receive ring is touched. -/
structure Aside (s s' : System) : Prop extends Held s s', Unmoved s s'

variable {s s' s₁ s₂ : System}

theorem Aside.refl (s : System) : Aside s s := ⟨.refl s, .refl s⟩

theorem Aside.trans (h : Aside s s₁) (h' : Aside s₁ s₂) : Aside s s₂ :=
  ⟨h.toHeld.trans h'.toHeld, h.toUnmoved.trans h'.toUnmoved⟩

theorem OnlyUip.aside (h : OnlyUip s s') : Aside s s' := ⟨h.held, h.unmoved⟩

theorem setNet_aside {net : Enc28J60Network} (h : net.ERXRDPT = s.net.ERXRDPT) : Aside s (s.setNet net) :=
  ⟨setNet_held h, ⟨rfl, rfl, rfl⟩⟩

theorem networkSend_aside {ok : Bool} (h : s.networkSend = some (s', ok)) : Aside s s' :=
  ⟨networkSend_held h, (networkSend_only h).unmoved⟩

end System

namespace UIPUDP

open UIPEthernet.System

variable {s s' : System} {i : Fin UIP_UDP_CONNS} {k : Nat}

theorem mapAppdata_aside (f : UdpUserdata → UdpUserdata) : Aside s (s.mapAppdata k f) := ⟨.of_eq rfl rfl rfl, ⟨rfl, rfl, rfl⟩⟩

/-- A packet set up for sending. -/
theorem setUp_aside (h : Handle) (hdrlen slen : Nat) : Aside s ((((s.setUipPacket h).setPacketstate
    (s.packetstate ||| UIPETHERNET_SENDPACKET)).setHdrlen hdrlen).setSlen slen) := ⟨⟨rfl, rfl, has_toSend _⟩, setUp_unmoved _ _ _ _⟩

theorem polled_aside : Aside s (polled s k) := by
  rw [polled]
  split
  · exact setUp_aside _ _ _
  · exact .refl s

/-- A poll copies nothing from the ring. -/
theorem appcall_aside (hflags : s.uip.uipFlags = UIP_POLL) (h : uipudpAppcall s i = some s') : Aside s s' := by
  unfold uipudpAppcall at h
  split at h
  · cases h
    exact .refl s
  · rename_i k _
    have hnew : ¬(has s.uip.uipFlags UIP_NEWDATA ∧ (s.sockets k).appdata.packetNext = NOBLOCK) := by
      rw [hflags]
      exact fun h => absurd h.1 (by decide)
    rw [received, if_neg hnew] at h
    cases h
    exact polled_aside

theorem uipUdpTimer_aside (h : s.uipUdpTimer i = some s') : Aside s s' := by
  simp only [uipUdpTimer, Option.bind_eq_bind] at h
  split at h
  · generalize hs₀ : (((s.setAppdata (UIP_LLH_LEN + UIP_IPUDPH_LEN)).setLen 0).setSlen 0).setFlags UIP_POLL = s₀ at h
    have h₀ : Aside s s₀ := by
      rw [← hs₀]
      exact ⟨.of_eq rfl rfl rfl, ⟨rfl, rfl, rfl⟩⟩
    have hflags : s₀.uip.uipFlags = UIP_POLL := by
      rw [← hs₀]
      rfl
    obtain ⟨s₁, hcall, h⟩ := Option.bind_eq_some_iff.mp h
    exact (h₀.trans (appcall_aside hflags hcall)).trans (udpSend_only h).1.aside
  · cases h
    exact ⟨.of_eq rfl rfl rfl, ⟨rfl, rfl, rfl⟩⟩

theorem send_aside (h : send s k = some s') : Aside s s' := by
  simp only [send, Option.bind_eq_bind, Option.pure_def] at h
  have harp : Aside s (s.mapUip Uip.arpOut) := ⟨.of_eq rfl rfl rfl, ⟨rfl, rfl, rfl⟩⟩
  refine harp.trans ?_
  split at h
  · obtain ⟨⟨s₂, ok⟩, hsend, h⟩ := Option.bind_eq_some_iff.mp h
    cases h
    have hclear : Aside (s.mapUip Uip.arpOut) (((s.mapUip Uip.arpOut).setUipPacket NOBLOCK).setPacketstate
      ((s.mapUip Uip.arpOut).packetstate &&& ~~~UIPETHERNET_SENDPACKET)) := ⟨⟨rfl, rfl, has_sent _⟩, ⟨rfl, rfl, rfl⟩⟩
    exact hclear.trans (networkSend_aside hsend)
  · obtain ⟨⟨s₂, ok⟩, hsend, h⟩ := Option.bind_eq_some_iff.mp h
    split at h
    · cases h
      exact (networkSend_aside hsend).trans (mapAppdata_aside _)
    · cases h
      exact networkSend_aside hsend

theorem newConn_aside {ripaddr : Option (BitVec 32)} {rport : Nat} (h : newConn s k ripaddr rport = some s') :
    Aside s s' := by
  simp only [newConn, Option.bind_eq_bind, Option.bind_eq_some_iff, Option.pure_def] at h
  obtain ⟨⟨s₁, conn⟩, hnew, h⟩ := h
  have h₁ : Aside s s₁ := by
    simp only [uipUdpNew, Option.bind_eq_bind, Option.bind_eq_some_iff] at hnew
    obtain ⟨lastport, -, hnew⟩ := hnew
    split at hnew <;> cases hnew <;> exact ⟨.of_eq rfl rfl rfl, ⟨rfl, rfl, rfl⟩⟩
  cases h
  exact h₁.trans (⟨.of_eq rfl rfl rfl, ⟨rfl, rfl, rfl⟩⟩)

theorem begin_aside {port : Nat} {success : Bool} (h : begin s k port = some (s', success)) : Aside s s' := by
  simp only [begin, Option.bind_eq_bind, Option.pure_def] at h
  split at h
  · obtain ⟨s₁, hnew, h⟩ := Option.bind_eq_some_iff.mp h
    have h₁ := newConn_aside hnew
    split at h <;> cases h
    · exact h₁
    · exact h₁.trans (⟨.of_eq rfl rfl rfl, ⟨rfl, rfl, rfl⟩⟩)
  · rw [Option.bind_some] at h
    split at h <;> cases h
    · exact .refl s
    · exact ⟨.of_eq rfl rfl rfl, ⟨rfl, rfl, rfl⟩⟩

theorem stop_aside (h : stop s k = some s') : Aside s s' := by
  simp only [stop, Option.bind_eq_bind, Option.pure_def] at h
  split at h
  · cases h
    exact .refl s
  · obtain ⟨net₁, hin, h⟩ := Option.bind_eq_some_iff.mp h
    obtain ⟨net₂, hnext, h⟩ := Option.bind_eq_some_iff.mp h
    obtain ⟨net₃, hout, h⟩ := Option.bind_eq_some_iff.mp h
    cases h
    have hread := (freeBlock_read hout).trans ((freeBlock_read hnext).trans (freeBlock_read hin))
    exact ⟨⟨rfl, hread, rfl⟩, ⟨rfl, rfl, rfl⟩⟩

theorem connectTo_aside {ip : BitVec 32} {port : Nat} (h : connectTo s k ip port = some s') : Aside s s' := by
  simp only [connectTo, Option.bind_eq_bind, Option.pure_def] at h
  split at h
  · cases h
    exact ⟨.of_eq rfl rfl rfl, ⟨rfl, rfl, rfl⟩⟩
  · obtain ⟨s₁, hnew, h⟩ := Option.bind_eq_some_iff.mp h
    split at h <;> cases h
    · exact newConn_aside hnew
    · exact (newConn_aside hnew).trans (⟨.of_eq rfl rfl rfl, ⟨rfl, rfl, rfl⟩⟩)

theorem beginPacket_aside {ip : BitVec 32} {port : Nat} {success : Bool}
    (h : beginPacket s k ip port = some (s', success)) : Aside s s' := by
  simp only [beginPacket, setRemote, Option.bind_eq_bind, Option.pure_def] at h
  obtain ⟨s₁, hremote, h⟩ := Option.bind_eq_some_iff.mp h
  have h₁ : Aside s s₁ := by
    split at hremote
    · exact connectTo_aside hremote
    · cases hremote
      exact .refl s
  split at h
  · obtain ⟨⟨net, b⟩, halloc, h⟩ := Option.bind_eq_some_iff.mp h
    cases h
    exact (h₁.trans (setNet_aside (allocBlock_read halloc))).trans (mapAppdata_aside _)
  · cases h
    exact h₁

theorem write_aside (buffer : List Byte) : Aside s (write s k buffer).1 := by
  simp only [write]
  split
  · exact .refl s
  · exact ⟨⟨rfl, rfl, rfl⟩, ⟨rfl, rfl, rfl⟩⟩

theorem endPacket_aside {success : Bool} (h : endPacket s k = some (s', success)) : Aside s s' := by
  simp only [endPacket, Option.bind_eq_bind, Option.pure_def] at h
  split at h
  · cases h
    exact .refl s
  · split at h
    · cases h
      exact .refl s
    · obtain ⟨s₁, htimer, h⟩ := Option.bind_eq_some_iff.mp h
      have hended : Aside s ((s.setNet (s.net.resizeBlockTo (s.sockets k).appdata.packetOut 0
          (add16 (s.sockets k).appdata.outPos UIP_SENDBUFFER_PADDING))).mapAppdata k
          fun data => { data with send := true }) := ⟨⟨rfl, rfl, rfl⟩, ⟨rfl, rfl, rfl⟩⟩
      have h₁ := hended.trans (uipUdpTimer_aside htimer)
      split at h
      · obtain ⟨s₂, hsend, h⟩ := Option.bind_eq_some_iff.mp h
        cases h
        exact h₁.trans (send_aside hsend)
      · cases h
        exact h₁

theorem parsePacket_aside {size : Nat} (h : parsePacket s k = some (s', size)) : Aside s s' := by
  simp only [parsePacket, Option.bind_eq_bind, Option.pure_def] at h
  obtain ⟨net, hfree, h⟩ := Option.bind_eq_some_iff.mp h
  cases h
  exact (setNet_aside (freeBlock_read hfree)).trans (mapAppdata_aside _)

theorem read_aside {len : Nat} {bytes : List Byte} (h : read s k len = some (s', bytes)) : Aside s s' := by
  simp only [read, Option.bind_eq_bind, Option.pure_def] at h
  split at h
  · cases h
    exact .refl s
  · split at h
    · obtain ⟨net, hfree, h⟩ := Option.bind_eq_some_iff.mp h
      cases h
      exact (setNet_aside (freeBlock_read hfree)).trans (mapAppdata_aside _)
    · cases h
      exact ⟨⟨rfl, rfl, rfl⟩, ⟨rfl, rfl, rfl⟩⟩

theorem flush_aside (h : flush s k = some s') : Aside s s' := by
  simp only [flush, Option.bind_eq_bind, Option.pure_def] at h
  obtain ⟨net, hfree, h⟩ := Option.bind_eq_some_iff.mp h
  cases h
  exact (setNet_aside (freeBlock_read hfree)).trans (mapAppdata_aside _)

theorem tickUdp_aside (h : s.tickUdp i = some s') : Aside s s' := by
  simp only [tickUdp, Option.bind_eq_bind, Option.pure_def] at h
  obtain ⟨s₁, htimer, h⟩ := Option.bind_eq_some_iff.mp h
  have h₁ := uipUdpTimer_aside htimer
  split at h
  · split at h
    · cases h
      exact h₁
    · exact h₁.trans (send_aside h)
  · cases h
    exact h₁

end UIPUDP

namespace System

variable {s s' : System}

theorem uipListen_aside (port : Nat) : Aside s (s.uipListen port) := by
  unfold uipListen
  split <;> exact ⟨.of_eq rfl rfl rfl, ⟨rfl, rfl, rfl⟩⟩

/-- A call that is not about a TCP connection, and a frame that arrives. -/
theorem step_aside {a : Action} (hother : a.isTcp = false) (h : s.step a = some s') : Aside s s' := by
  cases a with
  | arrive ring frames =>
    cases h
    exact ⟨⟨rfl, rfl, rfl⟩, ⟨rfl, rfl, rfl⟩⟩
  | configure ip gateway subnet =>
    cases h
    exact ⟨.of_eq rfl rfl rfl, ⟨rfl, rfl, rfl⟩⟩
  | listen port =>
    cases h
    exact uipListen_aside _
  | udpBegin k port =>
    obtain ⟨⟨s₁, success⟩, hbegin, rfl⟩ := Option.map_eq_some_iff.mp h
    exact UIPUDP.begin_aside hbegin
  | udpStop k => exact UIPUDP.stop_aside h
  | beginPacket k ip port =>
    obtain ⟨⟨s₁, success⟩, hbegin, rfl⟩ := Option.map_eq_some_iff.mp h
    exact UIPUDP.beginPacket_aside hbegin
  | udpWrite k buffer =>
    obtain rfl := Option.some.inj h
    exact UIPUDP.write_aside buffer
  | endPacket k =>
    obtain ⟨⟨s₁, success⟩, hend, rfl⟩ := Option.map_eq_some_iff.mp h
    exact UIPUDP.endPacket_aside hend
  | parsePacket k =>
    obtain ⟨⟨s₁, size⟩, hparse, rfl⟩ := Option.map_eq_some_iff.mp h
    exact UIPUDP.parsePacket_aside hparse
  | udpRead k len =>
    obtain ⟨⟨s₁, bytes⟩, hread, rfl⟩ := Option.map_eq_some_iff.mp h
    exact UIPUDP.read_aside hread
  | udpFlush k => exact UIPUDP.flush_aside h
  | tick now nullTimer => cases hother
  | connect ip port => cases hother
  | stop data => cases hother
  | write data now buf => cases hother
  | read data size => cases hother
  | flush data => cases hother

end System

end UIPEthernet
