import UIPEthernet.Enc28J60Network.Sharing
import UIPEthernet.UIPClient.Frame

/-!
# What the callback offers for sending

A poll or a retransmission copies the bytes of the head block of `packets_out`
behind the room for the headers in a fresh block.
-/

namespace UIPEthernet.UIPClient

open Enc28J60Network Lib
open UIPEthernet.System

variable {s s' : System} {c u : Fin UIP_CONNS} {out : List Byte} {sendLen : Nat}

/-- `uip_appdata` behind the headers of a TCP segment. -/
def AtPayload (s : System) : Prop := s.uip.uipAppdata = UIP_IPTCPH_LEN + UIP_LLH_LEN

theorem finish_atPayload (happ : AtPayload s) (n : Nat) : finish s n = (s.setSlen n).setLen n := by
  have hcopy : ¬(0 < n ∧ (s.setSlen n).uip.uipAppdata ≠ UIP_IPTCPH_LEN + UIP_LLH_LEN) := fun h => h.2 happ
  simp only [finish, if_neg hcopy]

/-- What `prepare` leaves: no block, or the bytes in a block behind the room
for the headers. -/
inductive Prepared (s : System) (c u : Fin UIP_CONNS) (bytes : List Byte) : System → Prop
  | refused {net : Enc28J60Network} (changed : Changed s.net net s.net.view)
      (moved : net = { s.net with blocks := net.blocks, ram := net.ram }) :
      Prepared s c u bytes (((s.setNet net).setUipPacket NOBLOCK).setHdrlen (UIP_IPTCPH_LEN + UIP_LLH_LEN))
  | copied {net : Enc28J60Network} {h : Handle} {d : List Byte} (fresh : s.net.view h = none)
      (len : d.length = UIP_IPTCPH_LEN + UIP_LLH_LEN + bytes.length + (UIP_SENDBUFFER_OFFSET + UIP_SENDBUFFER_PADDING))
      (payload : (d.drop (UIP_IPTCPH_LEN + UIP_LLH_LEN + UIP_SENDBUFFER_OFFSET)).take bytes.length = bytes)
      (changed : Changed s.net net (Function.update s.net.view h (some d)))
      (moved : net = { s.net with blocks := net.blocks, ram := net.ram }.setERXRDPT) :
      Prepared s c u bytes (((((s.setNet net).setUipPacket h).setHdrlen (UIP_IPTCPH_LEN + UIP_LLH_LEN)).setPacketstate
        (s.packetstate ||| UIPETHERNET_SENDPACKET)).record (.offered c u ((s.allData u).packetsOut 0) bytes.length))

theorem prepare_prepared (hv : s.net.Valid) (happ : AtPayload s) (hout : s.net.view ((s.allData u).packetsOut 0) = some out)
    (hpos : 1 ≤ sendLen) (hlen : sendLen ≤ out.length) :
    ∃ s', prepare s c u sendLen = some s' ∧ Prepared s c u (out.take sendLen) s' := by
  have hb := hv.bounds hout
  have hm : MEMORY_SIZE = 8192 := rfl
  have hbytes : (out.take sendLen).length = sendLen := by rw [List.length_take, Nat.min_eq_left hlen]
  have hhdr : s.uip.uipAppdata % 256 = UIP_IPTCPH_LEN + UIP_LLH_LEN := congrArg (· % 256) happ
  have hsize : add16 (UIP_IPTCPH_LEN + UIP_LLH_LEN + sendLen) (UIP_SENDBUFFER_OFFSET + UIP_SENDBUFFER_PADDING) =
      UIP_IPTCPH_LEN + UIP_LLH_LEN + sendLen + (UIP_SENDBUFFER_OFFSET + UIP_SENDBUFFER_PADDING) :=
    add16_eq (show 54 + sendLen + 8 < 65536 by omega)
  obtain ⟨net₁, h, halloc, hres, hsame⟩ := allocBlock_ok hv
    (show 1 ≤ UIP_IPTCPH_LEN + UIP_LLH_LEN + sendLen + (UIP_SENDBUFFER_OFFSET + UIP_SENDBUFFER_PADDING) by omega)
  simp only [prepare, hhdr, hsize, halloc, Option.bind_eq_bind, Option.bind_some]
  cases hres with
  | failed _ hch => exact ⟨_, if_pos rfl, .refused hch hsame⟩
  | @placed _ d _ hfresh hdlen hch =>
    have hview : net₁.view h = some d := by rw [hch.view, Function.update_self]
    have hne : h ≠ (s.allData u).packetsOut 0 := by
      rintro rfl
      exact Option.some_ne_none _ (hout.symm.trans hfresh)
    have hsrc : net₁.view ((s.allData u).packetsOut 0) = some out := by
      rw [hch.view, Function.update_of_ne hne.symm, hout]
    have hroom : UIP_IPTCPH_LEN + UIP_LLH_LEN + UIP_SENDBUFFER_OFFSET + sendLen ≤ d.length := by omega
    have hfrom : 0 + sendLen ≤ out.length := by omega
    obtain ⟨net₂, hcopy, hch₂, hmoved⟩ := copyPacket_pool hch.valid hview hsrc hne hpos hroom hfrom
    rw [hch.view, Function.update_idem, List.drop_zero] at hch₂
    rw [if_neg (view_ne hview).1]
    simp only [setHdrlen, setUipPacket, setNet, hcopy, Option.bind_some]
    refine ⟨_, rfl, ?_⟩
    have hcopied : Prepared s c u (out.take sendLen) _ := .copied hfresh ?_ ?_ (hch.trans hch₂) ?_
    · rw [hbytes] at hcopied
      exact hcopied
    · rw [splice_length (by rw [hbytes]; omega), hdlen, hbytes]
    · rw [splice, List.append_assoc, List.drop_left' (by rw [List.length_take]; omega), List.take_left]
    · rw [hmoved, hsame]
      rfl

/-- Only the pool and the packet to send are changed. -/
theorem Prepared.keeps {bytes : List Byte} (hp : Prepared s c u bytes s') : s'.uip = s.uip ∧ s'.uipConns = s.uipConns ∧
    s'.allData = s.allData ∧ s'.inPacket = s.inPacket ∧ s'.net.sent = s.net.sent := by
  cases hp with
  | @refused net _ hmoved =>
    have hsent : net.sent = s.net.sent := by rw [hmoved]
    exact ⟨rfl, rfl, rfl, rfl, hsent⟩
  | @copied net _ _ _ _ _ _ hmoved =>
    have hsent : net.sent = s.net.sent := by
      rw [hmoved]
      rfl
    exact ⟨rfl, rfl, rfl, rfl, hsent⟩

theorem cutHead_net (s : System) (u : Fin UIP_CONNS) :
    ∃ net, cutHead s u = s.setNet net ∧ net = { s.net with blocks := net.blocks } := by
  unfold cutHead
  simp only []
  split
  · exact ⟨_, rfl, rfl⟩
  · exact ⟨s.net, rfl, rfl⟩

/-- The head block of `packets_out` holds what a poll offers. -/
structure Offerable (s : System) (u : Fin UIP_CONNS) (out : List Byte) : Prop where
  valid : s.net.Valid
  block : s.net.view ((s.allData u).packetsOut 0) = some out
  within : (s.allData u).packetsOut 1 = NOBLOCK → (s.allData u).outPos ≤ out.length

theorem Offerable.head_ne (ho : Offerable s u out) : (s.allData u).packetsOut 0 ≠ NOBLOCK := (view_ne ho.block).1

theorem Offerable.blockSize (ho : Offerable s u out) : s.net.blockSize ((s.allData u).packetsOut 0) = out.length :=
  blockSize_eq (.inr ho.block)

theorem Offerable.sendLength_le (ho : Offerable s u out) : sendLength s u ≤ out.length := by
  simp only [sendLength]
  split
  · rename_i hone
    exact ho.within hone
  · exact Nat.le_of_eq ho.blockSize

/-- The head block is cut behind the bytes that are offered. -/
theorem cutHead_ok (ho : Offerable s u out) (hpos : sendLength s u ≠ 0) :
    ∃ net, cutHead s u = s.setNet net ∧ net = { s.net with blocks := net.blocks } ∧
      Changed s.net net (Function.update s.net.view ((s.allData u).packetsOut 0) (some (out.take (sendLength s u)))) := by
  by_cases hone : (s.allData u).packetsOut 1 = NOBLOCK
  · have hlen : sendLength s u = (s.allData u).outPos := by simp only [sendLength, if_pos hone]
    have hcut := resizeBlockTo_ok ho.valid ho.block (show 1 ≤ (s.allData u).outPos by omega)
      (show 0 + (s.allData u).outPos ≤ out.length from (Nat.zero_add _).symm ▸ ho.within hone)
    exact ⟨_, if_pos hone, rfl, hlen ▸ hcut⟩
  · have hlen : sendLength s u = out.length := by simp only [sendLength, if_neg hone, ho.blockSize]
    rw [hlen, List.take_length, ← ho.block, Function.update_eq_self]
    exact ⟨s.net, if_neg hone, rfl, .refl ho.valid⟩

theorem offer_prepared (ho : Offerable s u out) (happ : AtPayload s) (hpos : sendLength s u ≠ 0) :
    ∃ s', offer s c u = some (s', sendLength s u) ∧ Prepared (cutHead s u) c u (out.take (sendLength s u)) s' := by
  obtain ⟨net, hcut, -, hch⟩ := cutHead_ok ho hpos
  have hlen : (out.take (sendLength s u)).length = sendLength s u := by
    rw [List.length_take, Nat.min_eq_left ho.sendLength_le]
  obtain ⟨s', hprep, hp⟩ := prepare_prepared (s := s.setNet net) (c := c) (u := u) hch.valid happ
    (show net.view ((s.allData u).packetsOut 0) = _ by rw [hch.view, Function.update_self]) (Nat.pos_of_ne_zero hpos) (Nat.le_of_eq hlen.symm)
  refine ⟨s', ?_, ?_⟩
  · rw [offer, if_neg hpos, hcut, hprep]
    rfl
  · rw [hcut]
    rwa [List.take_take, Nat.min_self] at hp

-- ---------------------------------------------------------------------------
-- The callback in a turn of the timer
-- ---------------------------------------------------------------------------

theorem restart_net : (restart s c u).net = s.net := by
  unfold restart
  split <;> rfl

theorem restart_atPayload (happ : AtPayload s) : AtPayload (restart s c u) := by
  unfold restart
  split <;> exact happ

theorem restart_history : (restart s c u).history = s.history := by
  unfold restart
  split <;> rfl

/-- `UIP_CLIENT_RESTART` is all that `restart` changes of an entry. -/
theorem restart_data : ∃ state, (restart s c u).allData u = { s.allData u with state } := by
  unfold restart
  split
  · exact ⟨_, Function.update_self ..⟩
  · exact ⟨_, rfl⟩

theorem restart_conn : ∃ stopped, (restart s c u).uipConns c =
    { s.uipConns c with tcpstateflags := { (s.uipConns c).tcpstateflags with stopped } } := by
  unfold restart
  split
  · exact ⟨_, mapConn_self ..⟩
  · exact ⟨_, rfl⟩

theorem restart_only_flags : (restart s c u).uip.uipFlags = s.uip.uipFlags ∨
    (restart s c u).uip.uipFlags = s.uip.uipFlags ||| UIP_NEWDATA := by
  unfold restart
  split
  · exact .inr rfl
  · exact .inl rfl

theorem restart_offerable (ho : Offerable s u out) : Offerable (restart s c u) u out := by
  obtain ⟨state, hdata⟩ := restart_data (s := s) (c := c) (u := u)
  refine ⟨?_, ?_, ?_⟩
  · rw [restart_net]
    exact ho.valid
  · rw [restart_net, hdata, ho.block]
  · rw [hdata]
    exact ho.within

theorem restart_sendLength : sendLength (restart s c u) u = sendLength s u := by
  obtain ⟨state, hdata⟩ := restart_data (s := s) (c := c) (u := u)
  simp only [sendLength, hdata, restart_net]

/-- The callback in a poll or a retransmission. -/
theorem serve_turn (hflags : s.uip.uipFlags = UIP_POLL ∨ s.uip.uipFlags = UIP_REXMIT) :
    serve s c u = polled (restart s c u) c u := by
  have hnew : ¬(has s.uip.uipFlags UIP_NEWDATA ∧ s.uip.uipLen ≠ 0 ∧
      ¬has (s.allData u).state (UIP_CLIENT_CLOSE ||| UIP_CLIENT_REMOTECLOSED)) := fun h => by
    rcases hflags with hf | hf <;> exact absurd (hf ▸ h.1) (by decide)
  have hclosed : ¬has (restart s c u).uip.uipFlags (UIP_CLOSE ||| UIP_TIMEDOUT) := by
    rcases restart_only_flags (s := s) (c := c) (u := u) with h | h <;> rw [h] <;>
      rcases hflags with hf | hf <;> rw [hf] <;> decide
  have hacked : ¬has (restart s c u).uip.uipFlags UIP_ACKDATA := by
    rcases restart_only_flags (s := s) (c := c) (u := u) with h | h <;> rw [h] <;>
      rcases hflags with hf | hf <;> rw [hf] <;> decide
  have hdata : newdata s c u = some s := if_neg hnew
  simp only [serve, hdata, Option.bind_eq_bind, Option.bind_some]
  rw [if_neg hclosed, acked, if_neg hacked]
  rfl

/-- A poll or a retransmission with bytes to send. -/
theorem polled_ok (ho : Offerable s u out) (happ : AtPayload s) (hflags : has s.uip.uipFlags (UIP_POLL ||| UIP_REXMIT))
    (hpos : sendLength s u ≠ 0) :
    ∃ s', polled s c u = some ((s'.setSlen (sendLength s u)).setLen (sendLength s u)) ∧ AtPayload s' ∧
      Prepared (cutHead s u) c u (out.take (sendLength s u)) s' := by
  obtain ⟨s', hoffer, hp⟩ := offer_prepared (c := c) ho happ hpos
  have happ' : AtPayload s' := by
    obtain ⟨net, hcut, -⟩ := cutHead_net s u
    rw [AtPayload, hp.keeps.1, hcut]
    exact happ
  refine ⟨s', ?_, happ', hp⟩
  rw [polled, if_pos ⟨hflags, ho.head_ne⟩, hoffer, ← finish_atPayload happ']
  rfl

end UIPEthernet.UIPClient
