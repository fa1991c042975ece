import UIPEthernet.UIPClient.Closing

/-!
# Retransmission

Once it has been offered, the head block of `packets_out` takes no more bytes:
`_write` puts what it has into the blocks behind it, and the other calls leave
the block alone. Until it is acknowledged, every poll and every retransmission
offers its bytes again.
-/

namespace UIPEthernet

open Lib Enc28J60Network MemoryPool

namespace UIPClient

open UIPEthernet.System Slot

/-- The head block of `packets_out` holds `b`, and no room for more. -/
structure Frozen (u : Fin UIP_CONNS) (h : Handle) (b : List Byte) (s : System) : Prop where
  head : (s.allData u).packetsOut 0 = h
  view : s.net.view h = some b
  alone : (s.allData u).packetsOut 1 = NOBLOCK → (s.allData u).outPos = b.length

/-- There is room in the pool for the packet that a poll prepares. -/
def PacketRoom (s : System) (u : Fin UIP_CONNS) : Prop :=
  CanAlloc (cutHead s u).net.blocks
    (UIP_IPTCPH_LEN + UIP_LLH_LEN + sendLength s u + (UIP_SENDBUFFER_OFFSET + UIP_SENDBUFFER_PADDING))

/-- The callback has offered `b`: uIP is told its length, and if there was room
for a packet, that is to be sent and holds the bytes behind the headers. If not,
there is no room for the segment now. -/
structure Offers (room : Prop) (b : List Byte) (s : System) : Prop where
  slen : s.uip.uipSlen = b.length
  send : room → has s.packetstate UIPETHERNET_SENDPACKET
  payload : room → ∃ d, s.net.view s.uipPacket = some d ∧
    (d.drop (UIP_IPTCPH_LEN + UIP_LLH_LEN + UIP_SENDBUFFER_OFFSET)).take b.length = b
  refused : ¬room → s.uipPacket = NOBLOCK ∧ ¬CanAlloc s.net.blocks
    (UIP_IPTCPH_LEN + UIP_LLH_LEN + b.length + (UIP_SENDBUFFER_OFFSET + UIP_SENDBUFFER_PADDING))

variable {clean : Prop} {s s' s₁ s₂ : System} {c u v : Fin UIP_CONNS} {hs : List Handle} {h : Handle} {b : List Byte} {n : Nat}

-- ---------------------------------------------------------------------------
-- What leaves the head block alone
-- ---------------------------------------------------------------------------

theorem Frozen.congr (hf : Frozen u h b s) (hout : (s'.allData u).packetsOut = (s.allData u).packetsOut)
    (hpos : (s'.allData u).outPos = (s.allData u).outPos) (hview : s'.net.view h = s.net.view h) : Frozen u h b s' := by
  refine ⟨?_, hview.trans hf.view, ?_⟩
  · rw [hout]
    exact hf.head
  · rw [hout, hpos]
    exact hf.alone

theorem Frozen.own (hf : Frozen u h b s) (hs : (s.allData u).sends) : s.own (.packetsOut u 0) = h :=
  (own_out 0 hs).trans hf.head

theorem Frozen.ne (hf : Frozen u h b s) : h ≠ NOBLOCK := (view_ne hf.view).1

/-- What is done for another entry. -/
theorem Serves.leaves (hserves : Serves clean v s s') (hv : v ≠ u) : Leaves clean u s s' := by
  have hdata := hserves.entries u hv.symm
  have hother : ∀ i, ¬(Slot.packetsOut u i).ofEntry v := fun _ he => hv he.symm
  refine ⟨fun hs' => ?_, fun _ i hne => ⟨hserves.size _ (hother i) hne, fun hc => hserves.views hc _ (hother i) hne⟩⟩
  rw [hdata] at hs' ⊢
  exact ⟨hs', rfl, rfl⟩

theorem Frozen.leaves (hf : Frozen u h b s) (hleaves : Leaves True u s s') (hs' : (s'.allData u).sends) : Frozen u h b s' := by
  obtain ⟨hs, hout, hpos⟩ := hleaves.out hs'
  have hblock := hleaves.blocks hs' 0
  rw [hf.own hs] at hblock
  exact hf.congr hout hpos ((hblock hf.ne).2 trivial)

theorem Frozen.sendLength (hf : Frozen u h b s) : UIPClient.sendLength s u = b.length := by
  simp only [UIPClient.sendLength]
  split
  · rename_i hone
    exact hf.alone hone
  · rw [hf.head]
    exact blockSize_eq (.inr hf.view)

theorem Frozen.offerable (hf : Frozen u h b s) (hv : s.net.Valid) : Offerable s u b := by
  refine ⟨hv, ?_, fun hone => Nat.le_of_eq (hf.alone hone)⟩
  rw [hf.head]
  exact hf.view

-- ---------------------------------------------------------------------------
-- _write
-- ---------------------------------------------------------------------------

/-- The head block has no room left. -/
theorem fill_frozen {p : Fin UIP_SOCKET_NUMPACKETS} (ho : s.Owned) (hv : s.net.Valid) (hs' : (s.allData u).sends)
    (hl : Outgoing True s u hs) (hlen : hs.length = p.val + 1) (hf : Frozen u h b s) (buf : List Byte) :
    Frozen u h b (fill s u p buf).1 := by
  have hfilled : ∃ outPos, (fill s u p buf).1.allData u = { s.allData u with outPos } := ⟨_, setOutPos_self ..⟩
  obtain ⟨outPos, hfilled⟩ := hfilled
  have hout : ((fill s u p buf).1.allData u).packetsOut = (s.allData u).packetsOut := by rw [hfilled]
  by_cases hp : p = 0
  · have hone : (s.allData u).packetsOut 1 = NOBLOCK := (hl.none_iff 1).mpr (by rw [hlen, hp]; rfl)
    have hpos := hf.alone hone
    have hslot : (s.allData u).packetsOut p = h := by rw [hp, hf.head]
    obtain ⟨hcount, hch⟩ := writePacket_ok hv hf.view (Nat.le_refl b.length) buf
    have hbound : b.length ≤ MEMORY_SIZE := Nat.le_trans (Nat.le_add_left _ _) (hv.bounds hf.view).2
    have hm : MEMORY_SIZE = 8192 := rfl
    rw [Nat.sub_self, Nat.min_zero] at hcount
    refine ⟨hout ▸ hf.head, ?_, fun _ => ?_⟩
    · have hview : (fill s u p buf).1.net.view = (s.net.writePacket h b.length buf).1.view := by
        simp only [fill, hslot, hpos]
        rfl
      rw [hview, hch.view, Function.update_self, Nat.sub_self, List.take_zero, splice, List.take_length, List.append_nil,
        List.length_nil, Nat.add_zero, List.drop_length, List.append_nil]
    · have hself : ((fill s u p buf).1.allData u).outPos = add16 b.length 0 := by
        simp only [fill, hslot, hpos, hcount]
        exact congrArg Userdata.outPos (setOutPos_self ..)
      rw [hself, add16_eq (by omega), Nat.add_zero]
  · have hkept : h ≠ (s.allData u).packetsOut p := by
      intro he
      have hne : s.own (.packetsOut u 0) ≠ NOBLOCK := by
        rw [hf.own hs']
        exact hf.ne
      have hslot := ho.distinct hne ((hf.own hs').trans (he.trans (own_out p hs').symm))
      exact hp (packetsOut.inj hslot).2.symm
    have hview := (fill_outgoing ho hv hs' hl hlen buf).2.1 h hkept
    refine ⟨hout ▸ hf.head, hview.trans hf.view, fun hone => ?_⟩
    rw [hout] at hone
    have hlast : p.val ≠ 0 := fun h0 => hp (Fin.ext h0)
    have hmore : hs.length ≤ 1 := (hl.none_iff 1).mp hone
    omega

/-- Another block is put behind the head block. -/
theorem newpacket_frozen {p : Fin UIP_SOCKET_NUMPACKETS} {got : Bool} (ho : s.Owned) (hv : s.net.Valid) (hs' : (s.allData u).sends)
    (hfull : Full True u p s) (hp : p ≠ 0) (hf : Frozen u h b s) (hnew : newpacket s u p = some (s', got)) : Frozen u h b s' := by
  have hdlen : 1 ≤ UIP_SOCKET_DATALEN := by decide
  have hpos : p.val ≠ 0 := fun h0 => hp (Fin.ext h0)
  obtain ⟨l, hl, hlen, -⟩ := hfull hs'
  have hone : (s.allData u).packetsOut 1 = NOBLOCK → p = 1 := by
    intro hnone
    have hle : l.length ≤ 1 := (hl.none_iff 1).mp hnone
    exact Fin.ext (show p.val = 1 by omega)
  simp only [newpacket, Option.bind_eq_bind, Option.pure_def] at hnew
  obtain ⟨⟨net, k⟩, halloc, hnew⟩ := Option.bind_eq_some_iff.mp hnew
  have hlive : Live s.net.blocks h := by
    have hblock := ho.block (x := .packetsOut u 0)
    rw [hf.own hs'] at hblock
    exact hblock hf.ne
  have hview : net.view h = some b := (allocBlock_spares hv hdlen halloc hlive).2.trans hf.view
  have hself := setPacketsOut_self (s.setNet net) u (Function.update (s.allData u).packetsOut p k)
  simp only at hnew
  split at hnew
  · rename_i hk
    cases hnew
    have hout : Function.update (s.allData u).packetsOut p k = (s.allData u).packetsOut := by
      rw [hk, ← (hl.none_iff p).mpr (Nat.le_of_eq hlen), Function.update_eq_self]
    refine hf.congr ?_ ?_ (hview.trans hf.view.symm)
    · rw [hself]
      exact hout
    · rw [hself]
      rfl
  · rename_i hk
    cases hnew
    have hdata : (((s.setNet net).setPacketsOut u (Function.update (s.allData u).packetsOut p k)).setOutPos u 0).allData u =
        { s.allData u with packetsOut := Function.update (s.allData u).packetsOut p k, outPos := 0 } := by
      rw [setOutPos_self, hself]
      rfl
    refine ⟨?_, hview, fun hnone => ?_⟩
    · rw [hdata]
      exact (Function.update_of_ne (Ne.symm hp) _ _).trans hf.head
    · rw [hdata] at hnone
      by_cases hp1 : p = 1
      · subst hp1
        exact absurd (Function.update_self (f := (s.allData u).packetsOut) 1 k ▸ hnone) hk
      · exact absurd (hone ((Function.update_of_ne (Ne.symm hp1) _ _).symm.trans hnone)) hp1

theorem fillAll_frozen {now : BitVec 32} {k : Nat} {slots : List (Fin UIP_SOCKET_NUMPACKETS)} {buf : List Byte} {r : Attempt}
    (ho : s.Owned) (ht : Tidy True u s) (hs' : (s.allData u).sends) (hslots : slots = (List.finRange UIP_SOCKET_NUMPACKETS).drop k)
    (hroom : ∀ p : Fin UIP_SOCKET_NUMPACKETS, p.val = k → Room True u p s) (hf : Frozen u h b s)
    (hfill : fillAll u now slots buf s = some (s', r)) : Frozen u h b s' := by
  induction slots generalizing buf s k with
  | nil =>
    cases hfill
    exact hf
  | cons p rest ih =>
    obtain ⟨hp, hrest⟩ := drop_slots hslots.symm
    rw [fillAll] at hfill
    obtain ⟨h₁, hsends, hfull⟩ := fill_serves (p := p) ho ht (fun _ => hs') (hroom p hp) buf
    obtain ⟨l, hl, hlen⟩ := hroom p hp hs'
    have hf₁ := fill_frozen ho ht.valid hs' hl hlen hf buf
    generalize fill s u p buf = filled at hfill h₁ hsends hfull hf₁
    have hs₁ : (filled.1.allData u).sends := hsends.trans hs'
    simp only at hfill
    split at hfill
    · rename_i hmore
      have hleft : filled.2 ≠ [] := by
        intro hnil
        rw [hnil] at hmore
        exact absurd hmore (by decide)
      cases rest with
      | nil =>
        cases hfill
        exact hf₁
      | cons q rest =>
        have hq : q.val = p.val + 1 := hp ▸ (drop_slots hrest.symm).1
        have hq0 : q ≠ 0 := by
          rintro rfl
          exact Nat.succ_ne_zero p.val hq.symm
        obtain ⟨⟨s₂, got⟩, hnew, hfill⟩ := Option.bind_eq_some_iff.mp hfill
        obtain ⟨h₂, hgot⟩ := newpacket_serves h₁.owned h₁.tidy (hfull q hq hleft) hnew
        have hf₂ := newpacket_frozen h₁.owned h₁.tidy.valid hs₁ (hfull q hq hleft) hq0 hf₁ hnew
        have hs₂ : (s₂.allData u).sends := by
          have hstate : (s₂.allData u).state = (filled.1.allData u).state :=
            congrArg (fun t : Tables => t.state u) (newpacket_tables hnew)
          rwa [Userdata.sends, hstate]
        split at hfill
        · rename_i hg
          have hroom₂ : ∀ i : Fin UIP_SOCKET_NUMPACKETS, i.val = k + 1 → Room True u i s₂ := by
            intro i hi
            obtain rfl : i = q := Fin.ext (by omega)
            exact hgot hg
          exact ih h₂.owned h₂.tidy hs₂ hrest hroom₂ hf₂ hfill
        · cases hfill
          exact hf₂
    · cases hfill
      have hready := ready_serves h₁.owned h₁.tidy now filled.2
      refine hf₁.leaves hready.toLeaves ?_
      rw [setTimer, setData_self]
      exact hs₁

theorem attempt_frozen {now : BitVec 32} {buf : List Byte} {r : Attempt} (ho : s.Owned) (ht : Tidy True u s)
    (hs' : (s.allData u).sends) (hf : Frozen u h b s) (hwrite : attempt s (some u) now buf = some (s', r)) : Frozen u h b s' := by
  obtain ⟨l, hl⟩ := ht.outgoing hs'
  have hlast := hl.currentBlock
  have hsome : (s.allData u).packetsOut (currentBlock (s.allData u).packetsOut) ≠ NOBLOCK := by
    intro hnone
    have hlen := (hl.none_iff _).mp hnone
    obtain rfl : l = [] := List.length_eq_zero_iff.mp (by omega)
    exact hf.ne (hf.head.symm.trans (hl.head_none.mpr rfl))
  simp only [attempt, Option.bind_eq_bind, Option.pure_def, if_neg hsome] at hwrite
  split at hwrite
  · cases hwrite
    exact hf
  · refine fillAll_frozen ho ht hs' rfl (fun p hp => ?_) hf hwrite
    obtain rfl := Fin.ext hp
    intro _
    have hlen := mt (hl.none_iff _).mpr hsome
    exact ⟨l, hl, by omega⟩

-- ---------------------------------------------------------------------------
-- The callback
-- ---------------------------------------------------------------------------

theorem prepare_packet (hv : s.net.Valid) (happ : AtPayload s) (hn : n ≤ MEMORY_SIZE)
    (hprep : prepare s c u n = some s') : s'.uipPacket ≠ NOBLOCK ↔
      CanAlloc s.net.blocks (UIP_IPTCPH_LEN + UIP_LLH_LEN + n + (UIP_SENDBUFFER_OFFSET + UIP_SENDBUFFER_PADDING)) := by
  have hm : MEMORY_SIZE = 8192 := rfl
  have hhdr : s.uip.uipAppdata % 256 = UIP_IPTCPH_LEN + UIP_LLH_LEN := congrArg (· % 256) happ
  have hsize : add16 (UIP_IPTCPH_LEN + UIP_LLH_LEN + n) (UIP_SENDBUFFER_OFFSET + UIP_SENDBUFFER_PADDING) =
      UIP_IPTCPH_LEN + UIP_LLH_LEN + n + (UIP_SENDBUFFER_OFFSET + UIP_SENDBUFFER_PADDING) :=
    add16_eq (show 54 + n + 8 < 65536 by omega)
  simp only [prepare, hhdr, hsize, Option.bind_eq_bind, Option.pure_def] at hprep
  obtain ⟨⟨net, k⟩, halloc, hprep⟩ := Option.bind_eq_some_iff.mp hprep
  obtain ⟨hres, -⟩ := allocBlock_result hv (show 1 ≤ 54 + n + 8 by omega) halloc
  cases hres with
  | failed hcannot _ =>
    cases hprep
    exact ⟨fun hne => absurd rfl hne, fun hcan => absurd hcan hcannot⟩
  | placed hcan _ _ hch =>
    have hne : k ≠ NOBLOCK := (view_ne (show net.view k = some _ by rw [hch.view, Function.update_self])).1
    simp only [if_neg hne] at hprep
    obtain ⟨net', -, hprep⟩ := Option.bind_eq_some_iff.mp hprep
    cases hprep
    exact ⟨fun _ => hcan, fun _ => hne⟩

/-- The bytes that a poll offers stay alone in the head block. -/
theorem cutHead_frozen {out : List Byte} (hoffer : Offerable s u out) (hbytes : sendLength s u ≠ 0) :
    Frozen u ((s.allData u).packetsOut 0) (out.take (sendLength s u)) (cutHead s u) := by
  obtain ⟨net, hcut, -, hch⟩ := cutHead_ok hoffer hbytes
  rw [hcut]
  refine ⟨rfl, ?_, fun hone => ?_⟩
  · show net.view _ = _
    rw [hch.view, Function.update_self]
  · rw [List.length_take, Nat.min_eq_left hoffer.sendLength_le]
    exact (if_pos hone : sendLength s u = _).symm

/-- A poll or a retransmission with bytes to send. -/
theorem polled_offers {out : List Byte} (ho : s.Owned) (ht : Tidy True u s) (hs' : (s.allData u).sends) (hat : AtPayload s)
    (hoffer : Offerable s u out) (hbytes : sendLength s u ≠ 0) (hask : has s.uip.uipFlags (UIP_POLL ||| UIP_REXMIT))
    (hpolled : polled s c u = some s') :
    Frozen u ((s.allData u).packetsOut 0) (out.take (sendLength s u)) s' ∧ (s'.uipConns c).appstate = (s.uipConns c).appstate ∧
      Offers (PacketRoom s u) (out.take (sendLength s u)) s' := by
  have hlen : (out.take (sendLength s u)).length = sendLength s u := by
    rw [List.length_take, Nat.min_eq_left hoffer.sendLength_le]
  have hbound : sendLength s u ≤ MEMORY_SIZE :=
    Nat.le_trans hoffer.sendLength_le (Nat.le_trans (Nat.le_add_left _ _) (ht.valid.bounds hoffer.block).2)
  obtain ⟨net, hcut, -⟩ := cutHead_net s u
  have hserves := cutHead_serves ho ht hs' hoffer.head_ne hbytes
  have hfcut := cutHead_frozen hoffer hbytes
  obtain ⟨s₁, hoffered, hprep⟩ := offer_prepared (c := c) hoffer hat hbytes
  have hat₁ : AtPayload s₁ := by
    rw [AtPayload, hprep.keeps.1, hcut]
    exact hat
  have hprepare : prepare (cutHead s u) c u (sendLength s u) = some s₁ := by
    rw [offer, if_neg hbytes] at hoffered
    obtain ⟨s₂, hprepare, heq⟩ := Option.bind_eq_some_iff.mp hoffered
    rw [hprepare]
    exact congrArg some (Prod.mk.inj (Option.some.inj heq)).1
  rw [polled, if_pos ⟨hask, hoffer.head_ne⟩, hoffered] at hpolled
  obtain rfl : (s₁.setSlen (sendLength s u)).setLen (sendLength s u) = s' := by
    rw [← finish_atPayload hat₁]
    exact Option.some.inj hpolled
  have hserves₁ := hprep.serves hserves.owned hserves.tidy
  have hs₁ : (s₁.allData u).sends := by
    rw [hprep.keeps.2.2.1, hcut]
    exact hs'
  have hf₁ := hfcut.leaves hserves₁.toLeaves hs₁
  have hpacket : s₁.uipPacket ≠ NOBLOCK ↔ PacketRoom s u := by
    refine prepare_packet hserves.tidy.valid ?_ hbound hprepare
    rw [hcut]
    exact hat
  refine ⟨⟨hf₁.head, hf₁.view, hf₁.alone⟩, ?_, hlen.symm, fun hroom => ?_, fun hroom => ?_, fun hno => ?_⟩
  · have hconns := congrFun hprep.keeps.2.1 c
    rw [hcut] at hconns
    exact congrArg Conn.appstate hconns
  · have hne := hpacket.mpr hroom
    cases hprep with
    | refused _ _ => exact absurd rfl hne
    | copied _ _ _ _ _ =>
      have hset : ∀ x : BitVec 8, has (x ||| UIPETHERNET_SENDPACKET) UIPETHERNET_SENDPACKET := by decide
      exact hset _
  · have hne := hpacket.mpr hroom
    cases hprep with
    | refused _ _ => exact absurd rfl hne
    | @copied net' k d _ _ hpayload hch' _ =>
      refine ⟨d, ?_, hpayload⟩
      show net'.view k = some d
      rw [hch'.view, Function.update_self]
  · have hnone := not_not.mp (mt hpacket.mp hno)
    rw [hlen]
    cases hprep with
    | @refused net' hch' _ =>
      refine ⟨rfl, fun hcan => hno ?_⟩
      rw [PacketRoom, ← canAlloc_of_view (fun j => by rw [hch'.view])]
      exact hcan
    | copied hfresh _ _ hch' _ => exact absurd hnone (view_ne (show _ = some _ by rw [hch'.view]; exact Function.update_self ..)).1

/-- The entry of the connection has sent a segment. -/
structure InFlight (c u : Fin UIP_CONNS) (h : Handle) (b : List Byte) (s : System) : Prop extends Frozen u h b s where
  sound : Sound True s
  appstate : (s.uipConns c).appstate = some u

theorem InFlight.serving (hf : InFlight c u h b s) : Serving s c u := ⟨hf.sound.paired, hf.appstate⟩

/-- With blocks left the connection is not closed. -/
theorem closing_head (hne : (s.allData u).packetsOut 0 ≠ NOBLOCK) : (closing s c u).allData = s.allData ∧
    (closing s c u).net = s.net ∧ ((closing s c u).uipConns c).appstate = (s.uipConns c).appstate := by
  rw [closing, if_neg hne]
  split
  · exact ⟨rfl, rfl, by rw [uipStop, mapConn_self]⟩
  · exact ⟨rfl, rfl, rfl⟩

theorem polled_frozen (hf : InFlight c u h b s) (hat : has s.uip.uipFlags (UIP_POLL ||| UIP_REXMIT) → AtPayload s)
    (hpolled : polled s c u = some s') : Frozen u h b s' ∧ (s'.uipConns c).appstate = some u ∧
      (has s.uip.uipFlags (UIP_POLL ||| UIP_REXMIT) → Offers (PacketRoom s u) b s') := by
  by_cases hask : has s.uip.uipFlags (UIP_POLL ||| UIP_REXMIT)
  · have hlen := hf.sendLength
    have hbytes : sendLength s u ≠ 0 := hlen ▸ Nat.ne_of_gt (view_pos hf.view)
    have hpoll := polled_offers hf.sound.owned (hf.sound.tidy u) hf.serving.sends (hat hask)
      (hf.offerable (hf.sound.tidy u).valid) hbytes hask hpolled
    rw [hf.head, hlen, List.take_length, hf.appstate] at hpoll
    exact ⟨hpoll.1, hpoll.2.1, fun _ => hpoll.2.2⟩
  · rw [polled, if_neg fun hcond => hask hcond.1] at hpolled
    cases hpolled
    obtain ⟨hdata, hnet, happ⟩ := closing_head (c := c) (hf.head ▸ hf.ne)
    refine ⟨hf.congr ?_ ?_ ?_, ?_, fun h => absurd h hask⟩
    · rw [finish_data, hdata]
    · rw [finish_data, hdata]
    · rw [finish_net, hnet]
    · rw [finish_conns, happ, hf.appstate]

theorem restart_room : PacketRoom (restart s c u) u = PacketRoom s u := by
  obtain ⟨state, hdata⟩ := restart_data (s := s) (c := c) (u := u)
  simp only [PacketRoom, restart_sendLength, cutHead, hdata, restart_net]
  split <;> simp only [setNet, restart_net]

/-- A callback that neither acknowledges the segment nor ends the connection. -/
theorem serve_frozen (hf : InFlight c u h b s) (hcall : Called s) (hpiece : Stores s u → OnePiece s)
    (hno : ¬has s.uip.uipFlags (UIP_ACKDATA ||| (UIP_CLOSE ||| UIP_TIMEDOUT))) (hserve : serve s c u = some s') :
    Frozen u h b s' ∧ (s'.uipConns c).appstate = some u ∧
      (s.uip.uipFlags = UIP_POLL ∨ s.uip.uipFlags = UIP_REXMIT → Offers (PacketRoom s u) b s') := by
  have hturn : s.uip.uipFlags = UIP_POLL ∨ s.uip.uipFlags = UIP_REXMIT → newdata s c u = some s := by
    intro hflags
    refine newdata_none ?_
    rcases hflags with hflags | hflags <;> rw [hflags] <;> decide
  simp only [serve, Option.bind_eq_bind, Option.pure_def] at hserve
  obtain ⟨s₁, hnew, hserve⟩ := Option.bind_eq_some_iff.mp hserve
  have h₁ := newdata_serves hf.sound.owned (hf.sound.tidy u) hcall.frame (fun _ => hpiece) hnew
  have h₂ := h₁.trans (restart_serves (c := c) h₁.owned h₁.tidy)
  have hserving₂ : Serving (restart s₁ c u) c u := restart_serving (newdata_serving hf.serving hnew)
  have hf₂ : InFlight c u h b (restart s₁ c u) :=
    ⟨hf.leaves h₂.toLeaves hserving₂.sends, hf.sound.serves h₂.toServes hserving₂.paired, hserving₂.entry⟩
  have hflags : ∀ {f : BitVec 8}, UIP_NEWDATA &&& f = 0 → has (restart s₁ c u).uip.uipFlags f = has s.uip.uipFlags f := by
    intro f hdisjoint
    rw [restart_flags hdisjoint, newdata_uip hnew]
  rw [Tables.has_or, Bool.or_eq_true, not_or] at hno
  have hended : ¬has (restart s₁ c u).uip.uipFlags (UIP_CLOSE ||| UIP_TIMEDOUT) := by
    rw [hflags (by decide)]
    exact hno.2
  have hacked : acked (restart s₁ c u) u = some (restart s₁ c u) := by
    rw [acked, hflags (by decide), if_neg hno.1]
  rw [if_neg hended, hacked] at hserve
  have hat₂ : has (restart s₁ c u).uip.uipFlags (UIP_POLL ||| UIP_REXMIT) → AtPayload (restart s₁ c u) := by
    rw [hflags (by decide)]
    exact fun hask => restart_atPayload (by rw [AtPayload, newdata_uip hnew]; exact hcall.payload hask)
  obtain ⟨hf', happ, hoffers⟩ := polled_frozen hf₂ hat₂ hserve
  refine ⟨hf', happ, fun hpoll => ?_⟩
  obtain rfl : s = s₁ := Option.some.inj ((hturn hpoll).symm.trans hnew)
  have hask : has (restart s c u).uip.uipFlags (UIP_POLL ||| UIP_REXMIT) := by
    rw [hflags (by decide)]
    rcases hpoll with hpoll | hpoll <;> rw [hpoll] <;> decide
  rw [← restart_room (c := c)]
  exact hoffers hask

-- ---------------------------------------------------------------------------
-- Runs
-- ---------------------------------------------------------------------------

/-- uIP polls the connection, or asks for its segment again. -/
structure Polls (c : Fin UIP_CONNS) (s s' : System) : Prop where
  called : Called s
  flags : s.uip.uipFlags = UIP_POLL ∨ s.uip.uipFlags = UIP_REXMIT
  call : uipclientAppcall s c = some s'

/-- What the connection has sent is not acknowledged, nor is the connection
ended. -/
def Unacked (c : Fin UIP_CONNS) (s : System) : QueueCall → Prop
  | .appcall i => i = c → ¬has s.uip.uipFlags (UIP_ACKDATA ||| (UIP_CLOSE ||| UIP_TIMEDOUT))
  | _ => True

theorem Attached.appcall (happ : (s.uipConns c).appstate = some u) :
    uipclientAppcall s c = serve s c u ∧ attach s c = s := by
  have hattach : attach s c = s := if_neg fun h => Option.some_ne_none u (happ.symm.trans h.1)
  exact ⟨by simp only [uipclientAppcall, hattach, happ], hattach⟩

theorem InFlight.leaves (hf : InFlight c u h b s) (hleaves : Leaves True u s s') (hsound : Sound True s')
    (happ : (s'.uipConns c).appstate = (s.uipConns c).appstate) : InFlight c u h b s' := by
  have hserving : Serving s' c u := ⟨hsound.paired, happ.trans hf.appstate⟩
  exact ⟨hf.toFrozen.leaves hleaves hserving.sends, hsound, hserving.entry⟩

/-- The callback for another connection. -/
theorem others_leaves {i : Fin UIP_CONNS} (hs : Sound True s) (happ : (s.uipConns c).appstate = some u) (hi : i ≠ c)
    (hcall : Called s) (huncut : Uncut s i) (hrun : uipclientAppcall s i = some s') : Leaves True u s s' := by
  have hserving : Serving s c u := ⟨hs.paired, happ⟩
  have hsound : Sound True (attach s i) := attach_sound hs
  have hconn : ((attach s i).uipConns c).appstate = some u := by rw [attach_calm.others c hi.symm, happ]
  have hattach : Leaves True u s (attach s i) := by
    rcases attach_serves (c := i) hs with hsame | ⟨v, hfree, hserves⟩
    · rw [hsame]
      exact .refl True u s
    · refine hserves.leaves ?_
      rintro rfl
      exact hserving.paired.ne_zero happ hfree
  simp only [uipclientAppcall] at hrun
  split at hrun
  · cases hrun
    have hfinish : ServesIn True u (attach s i) (finish (attach s i) 0) := finish_serves hsound.owned (hsound.tidy u) 0
    exact hattach.trans hfinish.toLeaves
  · rename_i w hentry
    have hserves : Serves True w (attach s i) s' := serve_serves ⟨hsound.paired, hentry⟩ hsound.owned (hsound.tidy w)
      (attach_called hcall) (fun _ => attach_piece huncut hentry) hrun
    refine hattach.trans (hserves.leaves ?_)
    rintro rfl
    exact hi (hsound.paired.distinct i c w hentry hconn)

theorem ServesIn.entry_leaves (hserves : ServesIn clean v s s') : Leaves clean u s s' := by
  by_cases hv : v = u
  · subst hv
    exact hserves.toLeaves
  · exact hserves.toServes.leaves hv

/-- Neither the callback for the connection nor a write to its entry. -/
def Spectates (c u : Fin UIP_CONNS) : QueueCall → Prop
  | .appcall i => i ≠ c
  | .write v _ _ => v ≠ u
  | _ => True

/-- What leaves the output of the connection alone. -/
theorem QueueStep.leaves {a : QueueCall} (hs : Sound True s) (happ : (s.uipConns c).appstate = some u)
    (hcareful : OnAttached s a ∧ StoresWhole s a) (ha : Spectates c u a) (hstep : QueueStep s a s') :
    Leaves True u s s' ∧ (s'.uipConns c).appstate = (s.uipConns c).appstate := by
  have hown : ∀ {v : Fin UIP_CONNS}, Own (some v) s s' → (s'.uipConns c).appstate = (s.uipConns c).appstate :=
    fun hown => by rw [hown.conns]
  cases hstep with
  | others hbeside =>
    refine ⟨⟨fun hs' => ?_, fun _ i hne => ?_⟩, hbeside.appstate c⟩
    · rw [hbeside.entries] at hs' ⊢
      exact ⟨hs', rfl, rfl⟩
    · have hview := hbeside.views (.packetsOut u i) trivial hne
      exact ⟨size_of_view (hs.owned.block hne) hview, fun _ => hview⟩
  | @appcall i _ hcall hrun =>
    exact ⟨others_leaves hs happ ha hcall hcareful.2 hrun, by rw [(appcall_confined hrun).others c (Ne.symm ha)]⟩
  | @write v now buf r _ hwrite =>
    have hsends := hcareful.1.sends hs
    exact ⟨(attempt_serves hs.owned (hs.tidy v) (fun _ => hsends) hwrite).leaves ha, hown (attempt_own hwrite)⟩
  | read hread => exact ⟨(read_serves hs.paired hs.owned (hs.tidy _) hread).entry_leaves, hown (read_own hread)⟩
  | flush hflush => exact ⟨(flush_serves hs.owned (hs.tidy _) hflush).entry_leaves, hown (flush_own hflush)⟩
  | stop hstop => exact ⟨(stop_serves hs.owned (hs.tidy _) hstop).entry_leaves, hown (stop_own hstop)⟩

/-- The callback for the connection. -/
theorem InFlight.appcall (hf : InFlight c u h b s) (hcall : Called s) (huncut : Uncut s c)
    (hno : ¬has s.uip.uipFlags (UIP_ACKDATA ||| (UIP_CLOSE ||| UIP_TIMEDOUT))) (hrun : uipclientAppcall s c = some s') :
    InFlight c u h b s' := by
  have hsound := appcall_sound hf.sound hcall (fun _ => huncut) hrun
  obtain ⟨hserve, hattach⟩ := Attached.appcall hf.appstate
  rw [hserve] at hrun
  have hpiece : Stores s u → OnePiece s := by
    have hown := huncut u
    rw [hattach] at hown
    exact hown hf.appstate
  obtain ⟨hf', happ, -⟩ := serve_frozen hf hcall hpiece hno hrun
  exact ⟨hf', hsound, happ⟩

theorem InFlight.step {a : QueueCall} (hf : InFlight c u h b s) (hcareful : OnAttached s a ∧ StoresWhole s a)
    (hno : Unacked c s a) (hstep : QueueStep s a s') : InFlight c u h b s' := by
  have hsound := hstep.sound hf.sound fun _ => hcareful
  by_cases ha : Spectates c u a
  · obtain ⟨hleaves, happ⟩ := hstep.leaves hf.sound hf.appstate hcareful ha
    exact hf.leaves hleaves hsound happ
  · cases hstep with
    | @appcall i _ hcall hrun =>
      obtain rfl := not_not.mp ha
      exact hf.appcall hcall hcareful.2 (hno rfl) hrun
    | @write v now buf r _ hwrite =>
      obtain rfl := not_not.mp ha
      have happ : (s'.uipConns c).appstate = some v := by rw [(attempt_own hwrite).conns, hf.appstate]
      exact ⟨attempt_frozen hf.sound.owned (hf.sound.tidy v) (hcareful.1.sends hf.sound) hf.toFrozen hwrite, hsound, happ⟩
    | others _ | read _ | flush _ | stop _ => exact absurd trivial ha

/-- What is in flight is offered again. -/
theorem InFlight.polls (hf : InFlight c u h b s) (hpoll : Polls c s s') : Offers (PacketRoom s u) b s' := by
  have hflags : ∀ {f : BitVec 8}, ¬has UIP_POLL f → ¬has UIP_REXMIT f → ¬has s.uip.uipFlags f := by
    intro f hpolled hrexmit
    rcases hpoll.flags with hflag | hflag <;> rw [hflag] <;> assumption
  have hrun := hpoll.call
  rw [(Attached.appcall hf.appstate).1] at hrun
  have hpiece : Stores s u → OnePiece s := fun hstores => absurd hstores.1 (hflags (by decide) (by decide))
  exact (serve_frozen hf hpoll.called hpiece (hflags (by decide) (by decide)) hrun).2.2 hpoll.flags

/-- A poll with bytes to send puts them in flight. -/
theorem Polls.inFlight (hs : Sound True s) (happ : (s.uipConns c).appstate = some u) (hpoll : Polls c s s')
    (hlen : s'.uip.uipSlen ≠ 0) : ∃ b, b.length = sendLength s u ∧ InFlight c u ((s.allData u).packetsOut 0) b s' ∧
      Offers (PacketRoom s u) b s' := by
  have hserving : Serving s c u := ⟨hs.paired, happ⟩
  have hflags : ∀ {f : BitVec 8}, ¬has UIP_POLL f → ¬has UIP_REXMIT f → ¬has s.uip.uipFlags f := by
    intro f hpolled hrexmit
    rcases hpoll.flags with hflag | hflag <;> rw [hflag] <;> assumption
  have hask₀ : has s.uip.uipFlags (UIP_POLL ||| UIP_REXMIT) := by
    rcases hpoll.flags with hflag | hflag <;> rw [hflag] <;> decide
  obtain ⟨hserve, hattach⟩ := Attached.appcall happ
  have huncut : Uncut s c := by
    intro v _ hstores
    rw [hattach] at hstores
    exact absurd hstores.1 (hflags (by decide) (by decide))
  have hsound := appcall_sound hs hpoll.called (fun _ => huncut) hpoll.call
  have hrun : polled (restart s c u) c u = some s' := by
    rw [← serve_turn hpoll.flags, ← hserve]
    exact hpoll.call
  have hserves : ServesIn True u s (restart s c u) := restart_serves hs.owned (hs.tidy u)
  have hsends : ((restart s c u).allData u).sends := (restart_serving hserving).sends
  have hentry : ((restart s c u).uipConns c).appstate = some u := (restart_serving hserving).entry
  have hat : AtPayload (restart s c u) := restart_atPayload (hpoll.called.payload hask₀)
  have hask : has (restart s c u).uip.uipFlags (UIP_POLL ||| UIP_REXMIT) := by
    rw [restart_flags (by decide)]
    exact hask₀
  have hhead : ((restart s c u).allData u).packetsOut 0 = (s.allData u).packetsOut 0 := by
    obtain ⟨state, hdata⟩ := restart_data (s := s) (c := c) (u := u)
    rw [hdata]
  rw [← hhead, ← restart_room (c := c), ← restart_sendLength (c := c)]
  generalize restart s c u = r at hrun hserves hsends hentry hat hask
  have hslen : ∀ {t : System}, some (finish t 0) ≠ some s' := by
    intro t he
    obtain rfl := Option.some.inj he
    exact hlen (finish_slen 0)
  obtain ⟨l, hl⟩ := hserves.tidy.outgoing hsends
  by_cases hnone : (r.allData u).packetsOut 0 = NOBLOCK
  · rw [polled, if_neg fun hcond => hcond.2 hnone] at hrun
    exact absurd hrun hslen
  · have hoffer := hl.offerable hserves.owned hserves.tidy.valid hsends hnone
    by_cases hbytes : sendLength r u = 0
    · rw [polled, if_pos ⟨hask, hnone⟩, offer, if_pos hbytes] at hrun
      exact absurd hrun hslen
    · obtain ⟨hf, happ', hoffers⟩ := polled_offers hserves.owned hserves.tidy hsends hat hoffer hbytes hask hrun
      refine ⟨_, ?_, ⟨hf, hsound, happ'.trans hentry⟩, hoffers⟩
      rw [List.length_take, Nat.min_eq_left hoffer.sendLength_le]

/-- In a run whose calls are for attached entries, and in which no segment that is
stored lies across the end of the ring, what a poll has offered is offered by
every poll and every retransmission until it is acknowledged. -/
theorem offered_again {ram : Nat → Byte} {transmissions : List Transmission} {mac : List Byte} {now : BitVec 32}
    {es : List QueueCall}
    (hrun : Run (fun s a s' => QueueStep s a s' ∧ OnAttached s a ∧ StoresWhole s a) (System.init ram transmissions mac now) es s)
    (happ : (s.uipConns c).appstate = some u) (hpoll : Polls c s s₁) (hlen : s₁.uip.uipSlen ≠ 0) :
    ∃ b, Offers (PacketRoom s u) b s₁ ∧ ∀ es' s₂ s₃,
      Run (fun s a s' => QueueStep s a s' ∧ (OnAttached s a ∧ StoresWhole s a) ∧ Unacked c s a) s₁ es' s₂ →
      Polls c s₂ s₃ → Offers (PacketRoom s₂ u) b s₃ := by
  have hs : Sound True s := hrun.invariant (fun hs h => h.1.sound hs fun _ => h.2) (init_sound _ _ _ _)
  obtain ⟨b, -, hflight, hoffers⟩ := hpoll.inFlight hs happ hlen
  refine ⟨b, hoffers, fun es' s₂ s₃ hrun' hpoll' => ?_⟩
  have hflight' := hrun'.invariant (I := InFlight c u ((s.allData u).packetsOut 0) b)
    (fun hf h => hf.step h.2.1 h.2.2 h.1) hflight
  exact hflight'.polls hpoll'

theorem prompted_polls {flags : BitVec 8} (hflags : flags = UIP_POLL ∨ flags = UIP_REXMIT)
    (h : uipclientAppcall (prompted s flags 0 0) c = some s') : Polls c (prompted s flags 0 0) s' :=
  ⟨prompted_called _ _ _, hflags, h⟩

/-- A byte is offered, another one is written, and the first is offered again. -/
theorem offered_again_example : ∃ (s s₁ s₂ s₃ : System) (b : List Byte), Polls 0 s s₁ ∧ b.length = 1 ∧
    Offers (PacketRoom s 0) b s₁ ∧ Polls 0 s₂ s₃ ∧ Offers (PacketRoom s₂ 0) b s₃ := by
  have hcompute : ((uipclientAppcall (prompted (System.init (fun _ => 0) [] [] 0) UIP_CONNECTED 0 0) 0).bind fun s₁ =>
      (attempt s₁ (some 0) 0 [7]).bind fun x₂ => (uipclientAppcall (prompted x₂.1 UIP_POLL 0 0) 0).bind fun s₃ =>
      (attempt s₃ (some 0) 0 [8]).bind fun x₄ => (uipclientAppcall (prompted x₄.1 UIP_REXMIT 0 0) 0).map fun _ =>
        decide ((s₁.uipConns 0).appstate = some 0 ∧ (x₂.1.uipConns 0).appstate = some 0 ∧ (s₃.uipConns 0).appstate = some 0 ∧
          s₃.uip.uipSlen = 1)) = some true := by
    decide +kernel
  have hs₀ : Sound True (System.init (fun _ => 0) [] [] 0) := init_sound _ _ _ _
  obtain ⟨s₁, h₁, hcompute⟩ := Option.bind_eq_some_iff.mp hcompute
  obtain ⟨⟨s₂, r⟩, h₂, hcompute⟩ := Option.bind_eq_some_iff.mp hcompute
  obtain ⟨s₃, h₃, hcompute⟩ := Option.bind_eq_some_iff.mp hcompute
  obtain ⟨⟨s₄, r'⟩, h₄, hcompute⟩ := Option.bind_eq_some_iff.mp hcompute
  obtain ⟨s₅, h₅, hcompute⟩ := Option.map_eq_some_iff.mp hcompute
  obtain ⟨happ₁, happ₂, happ₃, hlen⟩ := of_decide_eq_true hcompute
  have hwhole : ∀ {s : System} {flags : BitVec 8}, ¬has flags UIP_NEWDATA → Uncut (prompted s flags 0 0) 0 := by
    rintro s flags hno u - ⟨hnew, -⟩
    rw [attach_uip] at hnew
    exact absurd hnew hno
  have hstart : Run (fun s a s' => QueueStep s a s' ∧ OnAttached s a ∧ StoresWhole s a) (System.init (fun _ => 0) [] [] 0) []
      (System.init (fun _ => 0) [] [] 0) := .nil
  have hrun₁ := prompted_run (P := fun s a => OnAttached s a ∧ StoresWhole s a) hs₀ hstart ⟨trivial, trivial⟩
    ⟨trivial, hwhole (by decide)⟩ h₁
  have hrun₂ := hrun₁.snoc ⟨.write h₂, ⟨0, happ₁⟩, trivial⟩
  have hs₂ : Sound True s₂ := hrun₂.invariant (fun hs h => h.1.sound hs fun _ => h.2) hs₀
  have hpoll := prompted_polls (.inl rfl) h₃
  obtain ⟨b, hoffers, hagain⟩ := offered_again
    (hrun₂.snoc ⟨.others (prompted_beside hs₂ UIP_POLL 0 0), trivial, trivial⟩) happ₂ hpoll (hlen ▸ Nat.one_ne_zero)
  have hs₃ : Sound True s₃ := appcall_sound (hs₂.beside (prompted_beside hs₂ UIP_POLL 0 0)) hpoll.called
    (fun _ => hwhole (by decide)) h₃
  have hattached : OnAttached s₃ (.write 0 0 [8]) := ⟨0, happ₃⟩
  have hs₄ : Sound True s₄ := (QueueStep.write h₄).sound hs₃ fun _ => ⟨hattached, trivial⟩
  have hrun₄ : Run (fun s a s' => QueueStep s a s' ∧ (OnAttached s a ∧ StoresWhole s a) ∧ Unacked 0 s a) s₃ _ s₄ :=
    .snoc .nil ⟨.write h₄, ⟨hattached, trivial⟩, trivial⟩
  have hpoll' := prompted_polls (.inr rfl) h₅
  exact ⟨_, s₃, _, s₅, b, hpoll, hoffers.slen.symm.trans hlen, hoffers, hpoll',
    hagain _ _ _ (hrun₄.snoc ⟨.others (prompted_beside hs₄ UIP_REXMIT 0 0), ⟨trivial, trivial⟩, trivial⟩) hpoll'⟩

/-- Two bytes are received, a byte is written and offered, and the two are read.
Their block is given to two bytes that lie across the end of the ring. The copy
writes a third one, over the byte that has been offered. -/
theorem other_byte : ∃ (es es' : List QueueCall) (s s₁ s₂ s₃ : System),
    Run (fun s a s' => QueueStep s a s' ∧ OnAttached s a) (System.init (fun _ => 0) [] [] 0) es s ∧
    (s.uipConns 0).appstate = some 0 ∧ Polls 0 s s₁ ∧
    Run (fun s a s' => QueueStep s a s' ∧ OnAttached s a ∧ Unacked 0 s a) s₁ es' s₂ ∧ Polls 0 s₂ s₃ ∧
    Offers True [7] s₁ ∧ Offers True [0] s₃ := by
  have hcompute : ((uipclientAppcall (prompted (System.init (fun _ => 0) [] [] 0) UIP_CONNECTED 0 0) 0).bind fun s₁ =>
      (uipclientAppcall (prompted s₁ UIP_NEWDATA 0 2) 0).bind fun s₂ =>
      (attempt s₂ (some 0) 0 [7]).bind fun x₃ => (uipclientAppcall (prompted x₃.1 UIP_POLL 0 0) 0).bind fun s₄ =>
      (UIPClient.read s₄ (some 0) 2).bind fun x₅ => (uipclientAppcall (prompted x₅.1 UIP_NEWDATA 1993 2) 0).bind fun s₆ =>
      (uipclientAppcall (prompted s₆ UIP_REXMIT 0 0) 0).map fun s₇ => decide ((s₂.uipConns 0).appstate = some 0 ∧
        (x₃.1.uipConns 0).appstate = some 0 ∧ [(s₄, 7), (s₇, (0 : Byte))].all fun x => decide
          (x.1.uip.uipSlen = 1 ∧ has x.1.packetstate UIPETHERNET_SENDPACKET ∧
          (0 < x.1.uipPacket ∧ x.1.uipPacket ≤ MEMPOOL_NUM_MEMBLOCKS ∧ 0 < (x.1.net.blocks x.1.uipPacket).size) ∧
          ((contents x.1.net.blocks x.1.net.ram x.1.uipPacket).drop
            (UIP_IPTCPH_LEN + UIP_LLH_LEN + UIP_SENDBUFFER_OFFSET)).take 1 = [x.2]))) = some true := by
    decide +kernel
  have hs₀ : Sound False (System.init (fun _ => 0) [] [] 0) := init_sound _ _ _ _
  obtain ⟨s₁, h₁, hcompute⟩ := Option.bind_eq_some_iff.mp hcompute
  obtain ⟨s₂, h₂, hcompute⟩ := Option.bind_eq_some_iff.mp hcompute
  obtain ⟨⟨s₃, r⟩, h₃, hcompute⟩ := Option.bind_eq_some_iff.mp hcompute
  obtain ⟨s₄, h₄, hcompute⟩ := Option.bind_eq_some_iff.mp hcompute
  obtain ⟨⟨s₅, client, bytes⟩, h₅, hcompute⟩ := Option.bind_eq_some_iff.mp hcompute
  obtain ⟨s₆, h₆, hcompute⟩ := Option.bind_eq_some_iff.mp hcompute
  obtain ⟨s₇, h₇, hcompute⟩ := Option.map_eq_some_iff.mp hcompute
  obtain ⟨happ₂, happ₃, hoffers⟩ := of_decide_eq_true hcompute
  have hs₁ := hs₀.prompted h₁
  have hs₂ := hs₁.prompted h₂
  have hs₃ : Sound False s₃ := (QueueStep.write h₃).sound hs₂ False.elim
  have hs₄ := hs₃.prompted h₄
  have hs₅ : Sound False s₅ := (QueueStep.read h₅).sound hs₄ False.elim
  have hs₆ := hs₅.prompted h₆
  have hstart : Run (fun s a s' => QueueStep s a s' ∧ OnAttached s a) (System.init (fun _ => 0) [] [] 0) []
      (System.init (fun _ => 0) [] [] 0) := .nil
  have hrun₂ := prompted_run hs₁ (prompted_run hs₀ hstart trivial trivial h₁) trivial trivial h₂
  have hrun₃ := (hrun₂.snoc ⟨.write h₃, 0, happ₂⟩).snoc ⟨.others (prompted_beside hs₃ UIP_POLL 0 0), trivial⟩
  have hread : Run (fun s a s' => QueueStep s a s' ∧ OnAttached s a ∧ Unacked 0 s a) s₄ _ s₅ :=
    .snoc .nil ⟨.read h₅, trivial, trivial⟩
  have hrun₆ := prompted_run (P := fun s a => OnAttached s a ∧ Unacked 0 s a) hs₅ hread ⟨trivial, trivial⟩
    ⟨trivial, fun _ => (by decide : ¬has UIP_NEWDATA (UIP_ACKDATA ||| (UIP_CLOSE ||| UIP_TIMEDOUT)))⟩ h₆
  have hone : ∀ x ∈ [(s₄, 7), (s₇, (0 : Byte))], Offers True [x.2] x.1 := by
    intro x hx
    obtain ⟨hlen, hsend, hlive, hpayload⟩ := of_decide_eq_true (List.all_eq_true.mp hoffers x hx)
    exact ⟨hlen, fun _ => hsend, fun _ => ⟨_, view_some.mpr ⟨hlive, rfl⟩, hpayload⟩, fun hno => absurd trivial hno⟩
  exact ⟨_, _, _, s₄, _, s₇, hrun₃, happ₃, prompted_polls (.inl rfl) h₄,
    hrun₆.snoc ⟨.others (prompted_beside hs₆ UIP_REXMIT 0 0), trivial, trivial⟩, prompted_polls (.inr rfl) h₇,
    hone (s₄, 7) List.mem_cons_self, hone (s₇, 0) (List.mem_cons_of_mem _ List.mem_cons_self)⟩

end UIPClient

end UIPEthernet
