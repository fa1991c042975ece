import UIPEthernet.UIPClient.Retransmission

/-!
# The send stream

What `_write` has accepted is what the peer has acknowledged and the bytes in the
blocks of `packets_out`. Writing appends to them, and an acknowledgement takes
the head block away, which is right if the whole block was sent.
-/

namespace UIPEthernet

open Lib Enc28J60Network MemoryPool

namespace UIPClient

open UIPEthernet.System Slot

/-- The blocks of `packets_out`, up to `out_pos` of the last one, hold `bytes`. -/
def Outbound (u : Fin UIP_CONNS) (bytes : List Byte) (s : System) : Prop :=
  ∃ hs q, Queue s.net (s.allData u).packetsOut hs q ∧ filled (s.allData u).outPos q = bytes

/-- What an attempt takes from the buffer. -/
def Attempt.accepted (r : Attempt) (buf : List Byte) : List Byte := buf.take (buf.length - (r.rest.getD buf).length)

/-- A connection as it is seen from outside. -/
structure Stream where
  /-- What `_write` has accepted. -/
  written : List Byte
  /-- What the peer has acknowledged. -/
  acked : List Byte
  /-- `conn->len`. -/
  len : Nat
  /-- The payloads of the segments sent since it was set. -/
  wire : List (List Byte)

/-- The payload of a segment with `len` bytes: the bytes behind the headers in the
packet that is to be sent or, without one, what lies in `uip_buf`, if there is
room for the segment. -/
def Transmits (s : System) (len : Nat) (w : List Byte) : Prop :=
  if has s.packetstate UIPETHERNET_SENDPACKET then
    ∃ d, s.net.view s.uipPacket = some d ∧ w = (d.drop (UIP_IPTCPH_LEN + UIP_LLH_LEN + UIP_SENDBUFFER_OFFSET)).take len
  else
    CanAlloc s.net.blocks (UIP_IPTCPH_LEN + UIP_LLH_LEN + len + (UIP_SENDBUFFER_OFFSET + UIP_SENDBUFFER_PADDING)) ∧
      w = load s.uip.uipBuf (UIP_IPTCPH_LEN + UIP_LLH_LEN) len

inductive StreamCall
  | aside (a : QueueCall)
  | write (now : BitVec 32) (buf : List Byte)
  /-- The connection is polled, `conn->mss` being as given. -/
  | poll (mss : Nat)
  | rexmit
  | ack (w : List Byte)

/-- Neither a write to the entry, nor a callback that is about its output. -/
def NotOutput (c u : Fin UIP_CONNS) (s : System) : QueueCall → Prop
  | .appcall i => i = c → ¬has s.uip.uipFlags (UIP_ACKDATA ||| (UIP_CLOSE ||| UIP_TIMEDOUT) ||| (UIP_POLL ||| UIP_REXMIT))
  | .write v _ _ => v ≠ u
  | _ => True

/-- What uIP does with a connection that has the entry: it polls with no data in
flight, crops the segment to the mss and keeps its length, asks for the same
length again, and passes on the acknowledgement of a payload that was sent. -/
inductive StreamStep (c u : Fin UIP_CONNS) : System × Stream → StreamCall → System × Stream → Prop
  | aside (happ : (s.uipConns c).appstate = some u) (h : QueueStep s a s') (ha : NotOutput c u s a) :
    StreamStep c u (s, t) (.aside a) (s', t)
  | write (happ : (s.uipConns c).appstate = some u) (h : attempt s (some u) now buf = some (s', r)) :
    StreamStep c u (s, t) (.write now buf) (s', { t with written := t.written ++ r.accepted buf })
  | poll (happ : (s.uipConns c).appstate = some u) (hflags : s.uip.uipFlags = UIP_POLL) (h : Polls c s s') (hidle : t.len = 0)
      (hwire : ∀ w ∈ wire, Transmits s' (min s'.uip.uipSlen mss) w) :
    StreamStep c u (s, t) (.poll mss) (s', { t with len := min s'.uip.uipSlen mss, wire })
  | rexmit (happ : (s.uipConns c).appstate = some u) (hflags : s.uip.uipFlags = UIP_REXMIT) (h : Polls c s s') (hlen : t.len ≠ 0)
      (hwire : ∀ w ∈ wire, w ∈ t.wire ∨ Transmits s' t.len w) :
    StreamStep c u (s, t) .rexmit (s', { t with wire })
  | ack (happ : (s.uipConns c).appstate = some u) (hflags : has s.uip.uipFlags UIP_ACKDATA)
      (hno : ¬has s.uip.uipFlags ((UIP_CLOSE ||| UIP_TIMEDOUT) ||| (UIP_POLL ||| UIP_REXMIT))) (hcall : Called s)
      (h : uipclientAppcall s c = some s') (hlen : t.len ≠ 0) (hw : w ∈ t.wire) :
    StreamStep c u (s, t) (.ack w) (s', { t with acked := t.acked ++ w, len := 0, wire := [] })

/-- What a call must meet so that nothing is lost. -/
def Uncropped (c u : Fin UIP_CONNS) (s : System) : StreamCall → Prop
  | .aside a => OnAttached s a ∧ StoresWhole s a
  | .poll mss => sendLength s u ≤ mss
  | .ack _ => Uncut s c
  | .write _ _ | .rexmit => True

variable {clean : Prop} {s s' s₁ s₂ : System} {c u v : Fin UIP_CONNS} {hs l : List Handle} {h : Handle} {b bytes : List Byte}
  {q : List (List Byte)} {packets : Packets} {n : Nat}

-- ---------------------------------------------------------------------------
-- The blocks of an entry
-- ---------------------------------------------------------------------------

/-- An array lists one sequence of handles. -/
theorem Lists.unique (hl : Lists packets hs) (hl' : Lists packets l) : hs = l := by
  have hlen : ∀ {as bs : List Handle}, Lists packets as → Lists packets bs → bs.length ≤ as.length := by
    intro as bs ha hb
    by_contra hlt
    have hbound := hb.length
    have hi : as.length < UIP_SOCKET_NUMPACKETS := by omega
    have hnone := (ha.none_iff ⟨as.length, hi⟩).mpr (Nat.le_refl _)
    exact hlt ((hb.none_iff ⟨as.length, hi⟩).mp hnone)
  have heq : hs.length = l.length := Nat.le_antisymm (hlen hl' hl) (hlen hl hl')
  refine List.ext_getElem heq fun i hi hi' => ?_
  have hbound := hl.length
  have hget := (hl.get ⟨i, by omega⟩).symm.trans (hl'.get ⟨i, by omega⟩)
  rwa [List.getD_eq_getElem?_getD, List.getD_eq_getElem?_getD, List.getElem?_eq_getElem hi, List.getElem?_eq_getElem hi'] at hget

theorem Outgoing.queue (ho : s.Owned) (hs' : (s.allData u).sends) (hl : Outgoing True s u hs) :
    ∃ q, Queue s.net (s.allData u).packetsOut hs q := by
  refine ⟨hs.map (contents s.net.blocks s.net.ram), hl.toLists, hl.nodup ho hs', ?_⟩
  rw [List.map_map]
  refine List.map_congr_left fun h hh => ?_
  obtain ⟨i, rfl, hne⟩ := hl.mem_own hs' hh
  exact view_some.mpr ⟨ho.block hne, rfl⟩

theorem Outbound.congr (hb : Outbound u bytes s) (hs : (s.allData u).sends)
    (hout : (s'.allData u).packetsOut = (s.allData u).packetsOut) (hpos : (s'.allData u).outPos = (s.allData u).outPos)
    (hview : ∀ i, s.own (.packetsOut u i) ≠ NOBLOCK → s'.net.view (s.own (.packetsOut u i)) = s.net.view (s.own (.packetsOut u i))) :
    Outbound u bytes s' := by
  obtain ⟨hs', q, hq, hbytes⟩ := hb
  refine ⟨hs', q, ?_, by rw [hpos, hbytes]⟩
  rw [hout]
  refine hq.congr fun h hh => ?_
  obtain ⟨i, hi, rfl⟩ := List.getElem_of_mem hh
  have hlen := hq.length
  have hslot : s.own (.packetsOut u ⟨i, by omega⟩) = hs'[i] := by
    rw [own_out _ hs, hq.get, List.getD_eq_getElem?_getD, List.getElem?_eq_getElem hi, Option.getD_some]
  have hkept := hview ⟨i, by omega⟩
  rw [hslot] at hkept
  exact hkept (hq.used _ hh)

theorem Outbound.leaves (hb : Outbound u bytes s) (hleaves : Leaves True u s s') (hs' : (s'.allData u).sends) :
    Outbound u bytes s' := by
  obtain ⟨hs, hout, hpos⟩ := hleaves.out hs'
  exact hb.congr hs hout hpos fun i hne => (hleaves.blocks hs' i hne).2 trivial

-- ---------------------------------------------------------------------------
-- _write
-- ---------------------------------------------------------------------------

/-- What goes into the last block is appended. -/
theorem fill_outbound {p : Fin UIP_SOCKET_NUMPACKETS} (hv : s.net.Valid) (hl : Outgoing True s u hs) (hlen : hs.length = p.val + 1)
    (hq : Queue s.net (s.allData u).packetsOut hs q) (buf : List Byte) :
    ∃ data q', data ++ (fill s u p buf).2 = buf ∧ Queue (fill s u p buf).1.net ((fill s u p buf).1.allData u).packetsOut hs q' ∧
      filled ((fill s u p buf).1.allData u).outPos q' = filled (s.allData u).outPos q ++ data := by
  obtain rfl | ⟨front, h, hconcat⟩ := List.eq_nil_or_concat hs
  · exact absurd hlen (Nat.succ_ne_zero _).symm
  rw [List.concat_eq_append] at hconcat
  subst hconcat
  rw [List.length_append, List.length_singleton, Nat.add_right_cancel_iff] at hlen
  have hslot : (s.allData u).packetsOut p = h := by
    rw [hl.get, List.getD_eq_getElem?_getD, List.getElem?_append_right (Nat.le_of_eq hlen), hlen, Nat.sub_self]
    rfl
  obtain ⟨b, hview⟩ := hq.held (List.mem_append_right front List.mem_cons_self)
  obtain ⟨qf, rfl, hfront⟩ : ∃ qf, q = qf ++ [b] ∧ front.map s.net.view = qf.map some := by
    have hviews := hq.view
    obtain rfl | ⟨qf, d, hconcat⟩ := List.eq_nil_or_concat q
    · rw [List.map_append, List.map_nil] at hviews
      exact absurd (List.append_eq_nil_iff.mp hviews).2 (List.cons_ne_nil _ _)
    · rw [List.concat_eq_append] at hconcat
      subst hconcat
      rw [List.map_append, List.map_append] at hviews
      obtain ⟨hfront, hlast⟩ := List.append_inj' hviews rfl
      have hd : some d = some b := (List.cons.inj hlast).1.symm.trans hview
      exact ⟨qf, by rw [Option.some.inj hd], hfront⟩
  have hsize : b.length = s.sizeAt h := view_length hview
  have hpos : (s.allData u).outPos ≤ b.length := hsize ▸ hl.pos h (List.getLast?_concat ..)
  obtain ⟨hcount, hch⟩ := writePacket_ok hv hview hpos buf
  have hbound : b.length ≤ MEMORY_SIZE := Nat.le_trans (Nat.le_add_left _ _) (hv.bounds hview).2
  have hm : MEMORY_SIZE = 8192 := rfl
  generalize hdata : buf.take (b.length - (s.allData u).outPos) = data at hch
  have hdlen : data.length = min buf.length (b.length - (s.allData u).outPos) := by
    rw [← hdata, List.length_take, Nat.min_comm]
  have htake : buf.take data.length = data := by
    rw [hdlen, ← hdata, List.take_eq_take_iff]
    omega
  have hfill : fill s u p buf = (((s.setNet (s.net.writePacket h (s.allData u).outPos buf).1).setOutPos u
      ((s.allData u).outPos + data.length)).record (.written u h data), buf.drop data.length) := by
    simp only [fill, hslot, hcount, ← hdlen, htake]
    rw [add16_eq (by omega)]
  have hself : ((fill s u p buf).1.allData u) = { s.allData u with outPos := (s.allData u).outPos + data.length } := by
    rw [hfill]
    exact setOutPos_self ..
  have hview' : (fill s u p buf).1.net.view =
      Function.update s.net.view h (some (Lib.splice b (s.allData u).outPos data)) := by
    rw [hfill]
    exact hch.view
  have hnodup := hq.nodup
  rw [List.nodup_append] at hnodup
  refine ⟨data, qf ++ [Lib.splice b (s.allData u).outPos data], ?_, ⟨?_, hq.nodup, ?_⟩, ?_⟩
  · rw [hfill]
    show data ++ buf.drop data.length = buf
    nth_rewrite 1 [← htake]
    exact List.take_append_drop _ _
  · rw [hself]
    exact hq.toLists
  · rw [List.map_append, List.map_append, hview', ← hfront]
    congr 1
    · refine List.map_congr_left fun j hj => Function.update_of_ne ?_ _ _
      exact hnodup.2.2 j hj h List.mem_cons_self
    · exact congrArg (fun x => [x]) (Function.update_self ..)
  · rw [hself, filled_concat, filled_concat, List.append_assoc]
    exact congrArg (qf.flatten ++ ·) (splice_take hpos)

/-- A new block holds nothing yet. -/
theorem newpacket_outbound {p : Fin UIP_SOCKET_NUMPACKETS} {got : Bool} (hv : s.net.Valid) (hs' : (s.allData u).sends)
    (hfull : Full True u p s) (hb : Outbound u bytes s) (hnew : newpacket s u p = some (s', got)) : Outbound u bytes s' := by
  have hdlen : 1 ≤ UIP_SOCKET_DATALEN := by decide
  obtain ⟨l, hl, hlen, hlast⟩ := hfull hs'
  obtain ⟨hs, q, hq, hbytes⟩ := hb
  obtain rfl := hq.toLists.unique hl.toLists
  have hflat : filled (s.allData u).outPos q = q.flatten := by
    refine filled_full fun c hc => ?_
    obtain rfl | ⟨front, d, rfl⟩ := List.eq_nil_or_concat q
    · exact absurd hc (Option.not_mem_none _)
    rw [List.concat_eq_append] at hc hq
    obtain rfl : d = c := by simpa using hc
    obtain rfl | ⟨others, h, rfl⟩ := List.eq_nil_or_concat hs
    · simpa using hq.view
    rw [List.concat_eq_append] at hlast hq
    have hviews : others.map s.net.view = front.map some ∧ s.net.view h = some d := by simpa using hq.view
    rw [hlast h (by simp), sizeAt, ← view_length hviews.2]
  simp only [newpacket, Option.bind_eq_bind, Option.pure_def] at hnew
  obtain ⟨⟨net, k⟩, halloc, hnew⟩ := Option.bind_eq_some_iff.mp hnew
  have hlive : ∀ h ∈ hs, Live s.net.blocks h := fun h hh => by
    obtain ⟨c, hview⟩ := hq.held hh
    exact (view_some.mp hview).1
  have hq' : Queue net (s.allData u).packetsOut hs q := hq.congr fun h hh => (allocBlock_spares hv hdlen halloc (hlive h hh)).2
  have hself := setPacketsOut_self (s.setNet net) u (Function.update (s.allData u).packetsOut p k)
  simp only at hnew
  split at hnew
  · rename_i hk
    cases hnew
    have hout : Function.update (s.allData u).packetsOut p k = (s.allData u).packetsOut := by
      rw [hk, ← (hl.none_iff p).mpr (Nat.le_of_eq hlen), Function.update_eq_self]
    refine ⟨hs, q, ?_, ?_⟩
    · rw [hself, hout]
      exact hq'
    · rw [hself]
      exact hbytes
  · rename_i hk
    cases hnew
    have hdata : (((s.setNet net).setPacketsOut u (Function.update (s.allData u).packetsOut p k)).setOutPos u 0).allData u =
        { s.allData u with packetsOut := Function.update (s.allData u).packetsOut p k, outPos := 0 } := by
      rw [setOutPos_self, hself]
      rfl
    obtain ⟨hres, -⟩ := allocBlock_result hv hdlen halloc
    cases hres with
    | failed _ _ => exact absurd rfl hk
    | @placed _ content _ hfresh _ hch =>
      have hview : net.view k = some content := by rw [hch.view, Function.update_self]
      have hnot : k ∉ hs := fun hmem => view_none.mp hfresh (hlive k hmem)
      refine ⟨hs ++ [k], q ++ [content], ⟨?_, ?_, ?_⟩, ?_⟩
      · rw [hdata]
        exact hq.toLists.append hlen.symm hk
      · rw [List.nodup_append]
        refine ⟨hq.nodup, List.nodup_singleton k, ?_⟩
        rintro a ha b hb rfl
        rw [List.mem_singleton] at hb
        exact hnot (hb ▸ ha)
      · rw [List.map_append, List.map_append]
        exact congrArg₂ (· ++ ·) hq'.view (congrArg (fun x => [x]) hview)
      · rw [hdata, filled_concat, List.take_zero, List.append_nil, ← hflat]
        exact hbytes

theorem fillAll_outbound {now : BitVec 32} {k : Nat} {slots : List (Fin UIP_SOCKET_NUMPACKETS)} {buf : List Byte} {r : Attempt}
    (ho : s.Owned) (ht : Tidy True u s) (hs' : (s.allData u).sends) (hslots : slots = (List.finRange UIP_SOCKET_NUMPACKETS).drop k)
    (hroom : ∀ p : Fin UIP_SOCKET_NUMPACKETS, p.val = k → Room True u p s) (hb : Outbound u bytes s)
    (hfill : fillAll u now slots buf s = some (s', r)) :
    ∃ data rest, r.rest = some rest ∧ data ++ rest = buf ∧ Outbound u (bytes ++ data) s' := by
  induction slots generalizing buf s k bytes with
  | nil =>
    cases hfill
    exact ⟨[], buf, rfl, rfl, by rwa [List.append_nil]⟩
  | cons p rest ih =>
    obtain ⟨hp, hrest⟩ := drop_slots hslots.symm
    rw [fillAll] at hfill
    obtain ⟨h₁, hsends, hfull⟩ := fill_serves (p := p) ho ht (fun _ => hs') (hroom p hp) buf
    obtain ⟨l, hl, hlen⟩ := hroom p hp hs'
    obtain ⟨hs, q, hq, hbytes⟩ := hb
    obtain rfl := hq.toLists.unique hl.toLists
    obtain ⟨data, q', hdata, hq', hfilled⟩ := fill_outbound ht.valid hl hlen hq buf
    generalize fill s u p buf = t at hfill h₁ hsends hfull hdata hq' hfilled
    have hs₁ : (t.1.allData u).sends := hsends.trans hs'
    have hb₁ : Outbound u (bytes ++ data) t.1 := ⟨hs, q', hq', by rw [hfilled, hbytes]⟩
    simp only at hfill
    split at hfill
    · rename_i hmore
      have hleft : t.2 ≠ [] := by
        intro hnil
        rw [hnil] at hmore
        exact absurd hmore (by decide)
      cases rest with
      | nil =>
        cases hfill
        exact ⟨data, t.2, rfl, hdata, hb₁⟩
      | cons i rest =>
        have hi : i.val = p.val + 1 := hp ▸ (drop_slots hrest.symm).1
        obtain ⟨⟨s₂, got⟩, hnew, hfill⟩ := Option.bind_eq_some_iff.mp hfill
        obtain ⟨h₂, hgot⟩ := newpacket_serves h₁.owned h₁.tidy (hfull i hi hleft) hnew
        have hb₂ := newpacket_outbound h₁.tidy.valid hs₁ (hfull i hi hleft) hb₁ hnew
        have hs₂ : (s₂.allData u).sends := by
          have hstate : (s₂.allData u).state = (t.1.allData u).state :=
            congrArg (fun t : Tables => t.state u) (newpacket_tables hnew)
          rwa [Userdata.sends, hstate]
        split at hfill
        · rename_i hg
          have hroom₂ : ∀ j : Fin UIP_SOCKET_NUMPACKETS, j.val = k + 1 → Room True u j s₂ := by
            intro j hj
            obtain rfl : j = i := Fin.ext (by omega)
            exact hgot hg
          obtain ⟨data', rest', hr, hdata', hb'⟩ := ih h₂.owned h₂.tidy hs₂ hrest hroom₂ hb₂ hfill
          refine ⟨data ++ data', rest', hr, ?_, ?_⟩
          · rw [List.append_assoc, hdata', hdata]
          · rwa [← List.append_assoc]
        · cases hfill
          exact ⟨data, t.2, rfl, hdata, hb₂⟩
    · cases hfill
      have hready := ready_serves h₁.owned h₁.tidy now t.2
      refine ⟨data, t.2, rfl, hdata, hb₁.leaves hready.toLeaves ?_⟩
      rw [setTimer, setData_self]
      exact hs₁

/-- An attempt of `_write` appends what it accepts. -/
theorem attempt_outbound {now : BitVec 32} {buf : List Byte} {r : Attempt} (ho : s.Owned) (ht : Tidy True u s)
    (hs' : (s.allData u).sends) (hb : Outbound u bytes s) (hwrite : attempt s (some u) now buf = some (s', r)) :
    Outbound u (bytes ++ r.accepted buf) s' := by
  have hdone : ∀ {data rest : List Byte}, r.rest = some rest → data ++ rest = buf → r.accepted buf = data := by
    rintro data rest hr rfl
    rw [Attempt.accepted, hr, Option.getD_some, List.length_append, Nat.add_sub_cancel, List.take_left]
  obtain ⟨l, hl⟩ := ht.outgoing hs'
  have hlast := hl.currentBlock
  simp only [attempt, Option.bind_eq_bind, Option.pure_def] at hwrite
  split at hwrite
  · cases hwrite
    have hnone : Attempt.accepted .closed buf = [] := by simp [Attempt.accepted, Attempt.rest]
    rwa [hnone, List.append_nil]
  · split at hwrite
    · rename_i hnone
      have hlen := (hl.none_iff _).mp hnone
      obtain rfl : l = [] := List.length_eq_zero_iff.mp (by omega)
      obtain ⟨⟨s₁, got⟩, hnew, hwrite⟩ := Option.bind_eq_some_iff.mp hwrite
      have hfull : Full True u (currentBlock (s.allData u).packetsOut) s :=
        fun _ => ⟨[], hl, hlast.symm, fun _ hj => absurd hj (Option.not_mem_none _)⟩
      obtain ⟨h₁, hgot⟩ := newpacket_serves ho ht hfull hnew
      have hb₁ := newpacket_outbound ht.valid hs' hfull hb hnew
      have hs₁ : (s₁.allData u).sends := by
        have hstate : (s₁.allData u).state = (s.allData u).state :=
          congrArg (fun t : Tables => t.state u) (newpacket_tables hnew)
        rwa [Userdata.sends, hstate]
      split at hwrite
      · rename_i hg
        obtain ⟨data, rest, hr, hdata, hb'⟩ := fillAll_outbound h₁.owned h₁.tidy hs₁ rfl (fun p hp => by
          obtain rfl := Fin.ext hp
          exact hgot hg) hb₁ hwrite
        rwa [hdone hr hdata]
      · cases hwrite
        rwa [hdone (rfl : Attempt.rest (.again buf) = some buf) (List.nil_append buf), List.append_nil]
    · rename_i hsome
      have hlen := mt (hl.none_iff _).mpr hsome
      obtain ⟨data, rest, hr, hdata, hb'⟩ := fillAll_outbound ho ht hs' rfl (fun p hp => by
        obtain rfl := Fin.ext hp
        exact fun _ => ⟨l, hl, by omega⟩) hb hwrite
      rwa [hdone hr hdata]

-- ---------------------------------------------------------------------------
-- The callback
-- ---------------------------------------------------------------------------

/-- The head block goes with its bytes. -/
theorem eatOut_outbound (hv : s.net.Valid) (hf : Frozen u h b s) (hb : Outbound u bytes s) (heat : eatOut s u = some s') :
    ∃ rest, bytes = b ++ rest ∧ Outbound u rest s' := by
  obtain ⟨hs, q, hq, hbytes⟩ := hb
  simp only [eatOut, eatBlock, Option.bind_eq_bind, Option.bind_eq_some_iff, Prod.exists] at heat
  obtain ⟨net, block, ⟨net', hfree, heq⟩, heat⟩ := heat
  cases heq
  cases heat
  have hspares := freeBlock_spares hv hfree
  cases hs with
  | nil => exact absurd (hf.head.symm.trans (hq.head_none.mpr rfl)) hf.ne
  | cons k hs =>
    obtain rfl : k = h := hq.head.symm.trans hf.head
    cases q with
    | nil => exact absurd hq.view (List.cons_ne_nil _ _)
    | cons d q =>
      obtain ⟨hview, hviews⟩ := hq.cons
      obtain rfl := Option.some.inj (hview.symm.trans hf.view)
      have hnodup := List.nodup_cons.mp hq.nodup
      have hfilled : filled (s.allData u).outPos (d :: q) = d ++ filled (s.allData u).outPos q := by
        refine filled_cons fun hnil => Nat.le_of_eq (hf.alone ?_).symm
        have hlen : (k :: hs).length = (d :: q).length := hq.length_eq
        rw [hnil] at hlen
        exact (hq.none_iff 1).mpr (Nat.le_of_eq hlen)
      refine ⟨filled (s.allData u).outPos q, by rw [← hbytes, hfilled], hs, q, ⟨?_, hnodup.2, ?_⟩, ?_⟩
      · rw [setPacketsOut_self]
        exact hq.toLists.shift
      · refine Eq.trans (List.map_congr_left fun j hj => hspares.view j ?_) hviews
        rw [hq.head]
        rintro rfl
        exact hnodup.1 hj
      · rw [setPacketsOut_self]
        rfl

/-- A single block is cut behind the bytes that count. -/
theorem cutHead_outbound {out : List Byte} (hoffer : Offerable s u out) (hbytes : sendLength s u ≠ 0) (hb : Outbound u bytes s) :
    Outbound u bytes (cutHead s u) := by
  by_cases hone : (s.allData u).packetsOut 1 = NOBLOCK
  · obtain ⟨net, hcut, -, hch⟩ := cutHead_ok hoffer hbytes
    obtain ⟨hs, q, hq, rfl⟩ := hb
    have hlen : sendLength s u = (s.allData u).outPos := if_pos hone
    have hshort : hs.length ≤ 1 := (hq.none_iff 1).mp hone
    have hsame := hq.length_eq
    cases hs with
    | nil => exact absurd (hq.head_none.mpr rfl) hoffer.head_ne
    | cons h hs =>
      obtain rfl : hs = [] := List.length_eq_zero_iff.mp (Nat.le_zero.mp (Nat.le_of_succ_le_succ hshort))
      obtain ⟨d, rfl⟩ := List.length_eq_one_iff.mp hsame.symm
      obtain rfl := Option.some.inj ((hq.cons.1.symm.trans (hq.head ▸ rfl)).trans hoffer.block)
      rw [hcut]
      refine ⟨[h], [d.take (sendLength s u)], ⟨hq.toLists, hq.nodup, ?_⟩, ?_⟩
      · show [net.view h] = _
        rw [hch.view, hq.head, Function.update_self]
        rfl
      · show (d.take (sendLength s u)).take (s.allData u).outPos = d.take (s.allData u).outPos
        rw [hlen, List.take_take, Nat.min_self]
  · have hsame : cutHead s u = s := if_neg hone
    rwa [hsame]

theorem finish_outbound (hb : Outbound u bytes s) (sendLen : Nat) : Outbound u bytes (finish s sendLen) := by
  obtain ⟨hs, q, hq, hbytes⟩ := hb
  refine ⟨hs, q, ?_, ?_⟩
  · rw [finish_net, finish_data]
    exact hq
  · rw [finish_data]
    exact hbytes

theorem closing_outbound (hb : Outbound u bytes s) : Outbound u bytes (closing s c u) := by
  obtain ⟨hs, q, hq, hbytes⟩ := hb
  rw [closing]
  split
  · split
    · have hself : (((s.setState u 0).setAppstate c none).setFlags UIP_CLOSE).allData u = { s.allData u with state := 0 } :=
        setState_self s u 0
      refine ⟨hs, q, ?_, ?_⟩
      · rw [hself]
        exact hq
      · rw [hself]
        exact hbytes
    · exact ⟨hs, q, hq, hbytes⟩
  · exact ⟨hs, q, hq, hbytes⟩

/-- A poll offers bytes, and takes none. -/
theorem polled_outbound (ho : s.Owned) (ht : Tidy True u s) (hs' : (s.allData u).sends)
    (hat : has s.uip.uipFlags (UIP_POLL ||| UIP_REXMIT) → AtPayload s) (hb : Outbound u bytes s)
    (hpolled : polled s c u = some s') : Outbound u bytes s' := by
  by_cases hask : has s.uip.uipFlags (UIP_POLL ||| UIP_REXMIT) ∧ (s.allData u).packetsOut 0 ≠ NOBLOCK
  · obtain ⟨l, hl⟩ := ht.outgoing hs'
    have hoffer := hl.offerable ho ht.valid hs' hask.2
    rw [polled, if_pos hask] at hpolled
    by_cases hbytes : sendLength s u = 0
    · rw [offer, if_pos hbytes] at hpolled
      cases hpolled
      exact finish_outbound hb 0
    · obtain ⟨s₁, hoffered, hprep⟩ := offer_prepared (c := c) hoffer (hat hask.1) hbytes
      rw [hoffered] at hpolled
      cases hpolled
      have hcut := cutHead_serves ho ht hs' hask.2 hbytes
      refine finish_outbound ((cutHead_outbound hoffer hbytes hb).leaves (hprep.serves hcut.owned hcut.tidy).toLeaves ?_) _
      obtain ⟨net, hnet, -⟩ := cutHead_net s u
      rw [hprep.keeps.2.2.1, hnet]
      exact hs'
  · rw [polled, if_neg hask] at hpolled
    cases hpolled
    exact finish_outbound (closing_outbound hb) 0

/-- The entry of the connection, and what it has queued. -/
structure Queueing (c u : Fin UIP_CONNS) (bytes : List Byte) (s : System) : Prop where
  sound : Sound True s
  appstate : (s.uipConns c).appstate = some u
  queue : Outbound u bytes s

theorem Queueing.serving (hk : Queueing c u bytes s) : Serving s c u := ⟨hk.sound.paired, hk.appstate⟩

/-- The state in which the callback looks at the flags. -/
theorem Queueing.prepared (hk : Queueing c u bytes s) (hcall : Called s) (hpiece : Stores s u → OnePiece s)
    (hnew : newdata s c u = some s₁) : Queueing c u bytes (restart s₁ c u) ∧ ServesIn True u s (restart s₁ c u) ∧
      (has (restart s₁ c u).uip.uipFlags (UIP_POLL ||| UIP_REXMIT) → AtPayload (restart s₁ c u)) := by
  have h₁ := newdata_serves hk.sound.owned (hk.sound.tidy u) hcall.frame (fun _ => hpiece) hnew
  have h₂ := h₁.trans (restart_serves (c := c) h₁.owned h₁.tidy)
  have hserving : Serving (restart s₁ c u) c u := restart_serving (newdata_serving hk.serving hnew)
  refine ⟨⟨hk.sound.serves h₂.toServes hserving.paired, hserving.entry, hk.queue.leaves h₂.toLeaves hserving.sends⟩, h₂, ?_⟩
  rw [restart_flags (by decide), newdata_uip hnew]
  exact fun hask => restart_atPayload (by rw [AtPayload, newdata_uip hnew]; exact hcall.payload hask)

/-- A callback takes bytes away only if they are acknowledged. -/
theorem serve_outbound (hk : Queueing c u bytes s) (hcall : Called s) (hpiece : Stores s u → OnePiece s)
    (hno : ¬has s.uip.uipFlags (UIP_CLOSE ||| UIP_TIMEDOUT)) (hserve : serve s c u = some s') :
    (¬has s.uip.uipFlags UIP_ACKDATA → Outbound u bytes s') ∧
      (has s.uip.uipFlags UIP_ACKDATA → ∀ h b, Frozen u h b s → ∃ rest, bytes = b ++ rest ∧ Outbound u rest s') := by
  simp only [serve, Option.bind_eq_bind, Option.pure_def] at hserve
  obtain ⟨s₁, hnew, hserve⟩ := Option.bind_eq_some_iff.mp hserve
  obtain ⟨hk₁, hserves, hat⟩ := hk.prepared hcall hpiece hnew
  have hflags : ∀ {f : BitVec 8}, UIP_NEWDATA &&& f = 0 → has (restart s₁ c u).uip.uipFlags f = has s.uip.uipFlags f := by
    intro f hdisjoint
    rw [restart_flags hdisjoint, newdata_uip hnew]
  rw [if_neg (by rw [hflags (by decide)]; exact hno)] at hserve
  generalize restart s₁ c u = r at hk₁ hserves hat hflags hserve
  obtain ⟨s₂, hack, hpolled⟩ := Option.bind_eq_some_iff.mp hserve
  have h₂ := acked_serves hk₁.sound.owned (hk₁.sound.tidy u) hk₁.serving.sends hack
  have hs₂ : (s₂.allData u).sends := (hk₁.serving.congr (acked_tables hack)).sends
  have hat₂ : has s₂.uip.uipFlags (UIP_POLL ||| UIP_REXMIT) → AtPayload s₂ := by
    rw [AtPayload, acked_uip hack]
    exact hat
  have hdone : ∀ {rest : List Byte}, Outbound u rest s₂ → Outbound u rest s' :=
    fun hb => polled_outbound h₂.owned h₂.tidy hs₂ hat₂ hb hpolled
  refine ⟨fun hnone => hdone ?_, fun hacked h b hf => ?_⟩
  · rw [acked, hflags (by decide), if_neg hnone] at hack
    cases hack
    exact hk₁.queue
  · rw [acked, hflags (by decide), if_pos hacked] at hack
    obtain ⟨rest, hbytes, hb⟩ := eatOut_outbound (hk₁.sound.tidy u).valid (hf.leaves hserves.toLeaves hk₁.serving.sends) hk₁.queue hack
    exact ⟨rest, hbytes, hdone hb⟩

/-- No callback queues anything. -/
theorem serve_empty (hk : Queueing c u bytes s) (hcall : Called s) (hpiece : Stores s u → OnePiece s) (hempty : (s.allData u).packetsOut = fun _ => NOBLOCK)
    (hserve : serve s c u = some s') (happ : (s'.uipConns c).appstate = some u) : (s'.allData u).packetsOut 0 = NOBLOCK := by
  obtain ⟨hno, -⟩ := (serve_outcome hk.serving hserve).2.flags happ
  simp only [serve, Option.bind_eq_bind, Option.pure_def] at hserve
  obtain ⟨s₁, hnew, hserve⟩ := Option.bind_eq_some_iff.mp hserve
  obtain ⟨hk₁, hserves, -⟩ := hk.prepared hcall hpiece hnew
  rw [restart_flags (by decide), newdata_uip hnew, if_neg hno] at hserve
  have hempty₁ : ((restart s₁ c u).allData u).packetsOut = fun _ => NOBLOCK :=
    (hserves.toLeaves.out hk₁.serving.sends).2.1.trans hempty
  generalize restart s₁ c u = r at hempty₁ hserve
  obtain ⟨s₂, hack, hpolled⟩ := Option.bind_eq_some_iff.mp hserve
  have hempty₂ : (s₂.allData u).packetsOut 0 = NOBLOCK := by
    rw [acked] at hack
    split at hack
    · simp only [eatOut, eatBlock, Option.bind_eq_bind, Option.bind_eq_some_iff, Prod.exists] at hack
      obtain ⟨net, block, ⟨net', -, heq⟩, hack⟩ := hack
      cases heq
      cases hack
      show ((setPacketsOut _ u _).allData u).packetsOut 0 = NOBLOCK
      rw [setPacketsOut, setData_self, hempty₁]
      rfl
    · cases hack
      exact congrFun hempty₁ 0
  rw [polled, if_neg fun h => h.2 hempty₂] at hpolled
  cases hpolled
  rw [finish_data, closing, if_pos hempty₂]
  split
  · exact (congrArg (fun d => d.packetsOut 0) (setState_self s₂ u 0)).trans hempty₂
  · exact hempty₂

/-- A connection has nothing queued when it gets its entry. -/
theorem attached_empty (hs : Sound True s) (hcall : Called s) (huncut : Uncut s c) (hnone : (s.uipConns c).appstate = none)
    (h : uipclientAppcall s c = some s') (happ : (s'.uipConns c).appstate = some u) : (s'.allData u).packetsOut 0 = NOBLOCK := by
  have hs₁ : Sound True (attach s c) := attach_sound hs
  have hcall₁ : Called (attach s c) := attach_called hcall
  have hpiece := fun v => attach_piece (u := v) huncut
  simp only [uipclientAppcall] at h
  have hattach := attach_attach (s := s) (c := c)
  generalize attach s c = r at h hs₁ hcall₁ hpiece hattach
  cases hattach with
  | old _ =>
    rw [hnone] at h
    cases h
    rw [finish_conns] at happ
    exact absurd (hnone.symm.trans happ) (Option.some_ne_none u).symm
  | new s₁ v _ _ halloc =>
    have hentry : (((s₁.setAppstate c v).record (.attached c v)).uipConns c).appstate = some v := setAppstate_self _
    have hfresh : (((s₁.setAppstate c v).record (.attached c v)).allData v).packetsOut = fun _ => NOBLOCK := by
      simp only [allocateData] at halloc
      split at halloc
      · cases halloc
      · cases halloc
        exact congrArg Userdata.packetsOut (setData_self _)
    rw [hentry] at h
    have hserving : Serving _ c v := ⟨hs₁.paired, hentry⟩
    obtain ⟨l, hl⟩ := (hs₁.tidy v).outgoing hserving.sends
    obtain ⟨q, hq⟩ := hl.queue hs₁.owned hserving.sends
    have hsame : u = v := by
      cases (serve_outcome hserving h).2 with
      | kept _ _ happ' => exact Option.some.inj (happ.symm.trans happ')
      | freed _ hnone' => exact absurd (hnone'.symm.trans happ) (Option.some_ne_none u).symm
      | leftover _ _ _ _ hnone' => exact absurd (hnone'.symm.trans happ) (Option.some_ne_none u).symm
    subst hsame
    exact serve_empty ⟨hs₁, hentry, l, q, hq, rfl⟩ hcall₁ (hpiece u hentry) hfresh h happ

-- ---------------------------------------------------------------------------
-- The stream
-- ---------------------------------------------------------------------------

/-- What is not acknowledged is queued, and the payloads in flight are the head
block. -/
structure Flows (c u : Fin UIP_CONNS) (s : System) (t : Stream) : Prop where
  sound : Sound True s
  bytes : ∃ rest, Outbound u rest s ∧ t.written = t.acked ++ rest
  flight : t.len ≠ 0 → ∃ h b, Frozen u h b s ∧ b.length = t.len ∧ ∀ w ∈ t.wire, w = b

/-- The segment carries what was offered. -/
theorem Offers.transmits {room : Prop} {w : List Byte} (ho : Offers room b s) (hw : Transmits s b.length w) : w = b := by
  rw [Transmits] at hw
  by_cases hroom : room
  · rw [if_pos (ho.send hroom)] at hw
    obtain ⟨d, hview, hpayload⟩ := ho.payload hroom
    obtain ⟨d', hview', rfl⟩ := hw
    obtain rfl := Option.some.inj (hview.symm.trans hview')
    exact hpayload
  · obtain ⟨hpacket, hcannot⟩ := ho.refused hroom
    split at hw
    · obtain ⟨d, hview, -⟩ := hw
      exact absurd hpacket (view_ne hview).1
    · exact absurd hw.1 hcannot

/-- The callback for the connection, with what it needs to know. -/
theorem Flows.appcall {t : Stream} (hf : Flows c u s t) (happ : (s.uipConns c).appstate = some u) (hcall : Called s)
    (huncut : Uncut s c) (hno : ¬has s.uip.uipFlags (UIP_CLOSE ||| UIP_TIMEDOUT)) (hrun : uipclientAppcall s c = some s') :
    Sound True s' ∧ ∃ rest, t.written = t.acked ++ rest ∧ (¬has s.uip.uipFlags UIP_ACKDATA → Outbound u rest s') ∧
      (has s.uip.uipFlags UIP_ACKDATA → ∀ h b, Frozen u h b s → ∃ rest', rest = b ++ rest' ∧ Outbound u rest' s') := by
  obtain ⟨rest, hqueue, hbytes⟩ := hf.bytes
  refine ⟨appcall_sound hf.sound hcall (fun _ => huncut) hrun, rest, hbytes, ?_⟩
  obtain ⟨hserve, hattach⟩ := Attached.appcall happ
  rw [hserve] at hrun
  have hpiece : Stores s u → OnePiece s := by
    have hown := huncut u
    rw [hattach] at hown
    exact hown happ
  exact serve_outbound ⟨hf.sound, happ, hqueue⟩ hcall hpiece hno hrun

/-- No payload is stored by a poll. -/
theorem Polls.uncut (hpoll : Polls c s s') : Uncut s c := by
  intro v _ hstores
  have hnew := hstores.1
  rw [attach_uip] at hnew
  rcases hpoll.flags with hflag | hflag <;> rw [hflag] at hnew <;> exact absurd hnew (by decide)

theorem Polls.not_has (hpoll : Polls c s s') {f : BitVec 8} (hpolled : ¬has UIP_POLL f) (hrexmit : ¬has UIP_REXMIT f) :
    ¬has s.uip.uipFlags f := by
  rcases hpoll.flags with hflag | hflag <;> rw [hflag] <;> assumption

theorem Flows.aside {a : QueueCall} {t : Stream} (hf : Flows c u s t) (happ : (s.uipConns c).appstate = some u)
    (hcareful : OnAttached s a ∧ StoresWhole s a) (ha : NotOutput c u s a) (hstep : QueueStep s a s') : Flows c u s' t := by
  have hsound := hstep.sound hf.sound fun _ => hcareful
  by_cases hspec : Spectates c u a
  · obtain ⟨hleaves, happ'⟩ := hstep.leaves hf.sound happ hcareful hspec
    have hserving : Serving s' c u := ⟨hsound.paired, happ'.trans happ⟩
    obtain ⟨rest, hqueue, hbytes⟩ := hf.bytes
    refine ⟨hsound, ⟨rest, hqueue.leaves hleaves hserving.sends, hbytes⟩, fun hlen => ?_⟩
    obtain ⟨h, b, hfrozen, hb⟩ := hf.flight hlen
    exact ⟨h, b, hfrozen.leaves hleaves hserving.sends, hb⟩
  · cases hstep with
    | @appcall i _ hcall hrun =>
      obtain rfl := not_not.mp hspec
      have hflags := ha rfl
      rw [Tables.has_or, Bool.or_eq_true, not_or] at hflags
      have hended := hflags.1
      rw [Tables.has_or, Bool.or_eq_true, not_or] at hended
      obtain ⟨-, rest, hbytes, hkept, -⟩ := hf.appcall happ hcall hcareful.2 hended.2 hrun
      refine ⟨hsound, ⟨rest, hkept hended.1, hbytes⟩, fun hlen => ?_⟩
      obtain ⟨h, b, hfrozen, hb⟩ := hf.flight hlen
      have hflight : InFlight i u h b s := ⟨hfrozen, hf.sound, happ⟩
      exact ⟨h, b, (hflight.appcall hcall hcareful.2 hflags.1 hrun).toFrozen, hb⟩
    | write _ => exact absurd ha hspec
    | others _ | read _ | flush _ | stop _ => exact absurd trivial hspec

theorem Flows.step {x x' : System × Stream} {a : StreamCall} (hf : Flows c u x.1 x.2) (hstep : StreamStep c u x a x')
    (hcareful : Uncropped c u x.1 a) : Flows c u x'.1 x'.2 := by
  cases hstep with
  | aside happ hstep ha => exact hf.aside happ hcareful ha hstep
  | @write s now buf s' r t happ hwrite =>
    have hserving : Serving s c u := ⟨hf.sound.paired, happ⟩
    obtain ⟨rest, hqueue, hbytes⟩ := hf.bytes
    have hattached : OnAttached s (.write u now buf) := ⟨c, happ⟩
    refine ⟨(QueueStep.write hwrite).sound hf.sound fun _ => ⟨hattached, trivial⟩, ⟨rest ++ r.accepted buf, ?_, ?_⟩, fun hlen => ?_⟩
    · exact attempt_outbound hf.sound.owned (hf.sound.tidy u) hserving.sends hqueue hwrite
    · show t.written ++ _ = t.acked ++ _
      rw [hbytes, List.append_assoc]
    · obtain ⟨h, b, hfrozen, hb⟩ := hf.flight hlen
      exact ⟨h, b, attempt_frozen hf.sound.owned (hf.sound.tidy u) hserving.sends hfrozen hwrite, hb⟩
  | @poll s s' wire mss t happ hflags hpoll hidle hwire =>
    obtain ⟨hsound, rest, hbytes, hkept, -⟩ := hf.appcall happ hpoll.called hpoll.uncut (hpoll.not_has (by decide) (by decide)) hpoll.call
    refine ⟨hsound, ⟨rest, hkept (hpoll.not_has (by decide) (by decide)), hbytes⟩, fun hlen => ?_⟩
    have hslen : s'.uip.uipSlen ≠ 0 := by
      intro h0
      exact hlen (by show min s'.uip.uipSlen mss = 0; rw [h0, Nat.zero_min])
    obtain ⟨b, hb, hflight, hoffers⟩ := hpoll.inFlight hf.sound happ hslen
    have hmin : min s'.uip.uipSlen mss = b.length := by
      rw [hoffers.slen, hb]
      exact Nat.min_eq_left hcareful
    refine ⟨_, b, hflight.toFrozen, hmin.symm, fun w hw => hoffers.transmits ?_⟩
    rw [← hmin]
    exact hwire w hw
  | @rexmit s s' wire t happ hflags hpoll hlen hwire =>
    obtain ⟨hsound, rest, hbytes, hkept, -⟩ := hf.appcall happ hpoll.called hpoll.uncut (hpoll.not_has (by decide) (by decide)) hpoll.call
    obtain ⟨h, b, hfrozen, hb, hsent⟩ := hf.flight hlen
    have hflight : InFlight c u h b s := ⟨hfrozen, hf.sound, happ⟩
    have hflight' := hflight.appcall hpoll.called hpoll.uncut (hpoll.not_has (by decide) (by decide)) hpoll.call
    refine ⟨hsound, ⟨rest, hkept (hpoll.not_has (by decide) (by decide)), hbytes⟩, fun _ => ⟨h, b, hflight'.toFrozen, hb, ?_⟩⟩
    intro w hw
    rcases hwire w hw with hold | hnew
    · exact hsent w hold
    · exact (hflight.polls hpoll).transmits (hb ▸ hnew)
  | @ack s s' w t happ hflags hno hcall hrun hlen hw =>
    rw [Tables.has_or, Bool.or_eq_true, not_or] at hno
    obtain ⟨hsound, rest, hbytes, -, htaken⟩ := hf.appcall happ hcall hcareful hno.1 hrun
    obtain ⟨h, b, hfrozen, hb, hsent⟩ := hf.flight hlen
    obtain ⟨rest', rfl, hqueue⟩ := htaken hflags h b hfrozen
    refine ⟨hsound, ⟨rest', hqueue, ?_⟩, fun h0 => absurd rfl h0⟩
    show t.written = t.acked ++ w ++ rest'
    rw [hsent w hw, List.append_assoc, hbytes]

/-- From a state in which the entry of the connection has nothing queued, what the
peer has acknowledged is a prefix of what `_write` has accepted, as long as no
segment is cropped, the calls are for attached entries, and no segment that is
stored lies across the end of the ring. -/
theorem send_stream {ram : Nat → Byte} {transmissions : List Transmission} {mac : List Byte} {now : BitVec 32}
    {es : List QueueCall} {as : List StreamCall} {t : Stream}
    (hrun : Run (fun s a s' => QueueStep s a s' ∧ OnAttached s a ∧ StoresWhole s a) (System.init ram transmissions mac now) es s)
    (happ : (s.uipConns c).appstate = some u) (hempty : (s.allData u).packetsOut 0 = NOBLOCK)
    (hstream : Run (fun x a x' => StreamStep c u x a x' ∧ Uncropped c u x.1 a) (s, ⟨[], [], 0, []⟩) as (s', t)) :
    t.acked <+: t.written := by
  have hs : Sound True s := hrun.invariant (fun hs h => h.1.sound hs fun _ => h.2) (init_sound _ _ _ _)
  have hserving : Serving s c u := ⟨hs.paired, happ⟩
  have hflows : Flows c u s ⟨[], [], 0, []⟩ := by
    refine ⟨hs, ⟨[], ?_, rfl⟩, fun h0 => absurd rfl h0⟩
    obtain ⟨l, hl⟩ := (hs.tidy u).outgoing hserving.sends
    obtain ⟨q, hq⟩ := hl.queue hs.owned hserving.sends
    obtain rfl := hq.head_none.mp hempty
    obtain rfl : q = [] := List.length_eq_zero_iff.mp hq.length_eq.symm
    exact ⟨[], [], hq, rfl⟩
  have hflows' : Flows c u s' t := hstream.invariant (I := fun x => Flows c u x.1 x.2) (fun hf h => hf.step h.1 h.2) hflows
  obtain ⟨rest, -, hbytes⟩ := hflows'.bytes
  exact ⟨rest, hbytes.symm⟩

theorem transmits_packet {len : Nat} {w : List Byte} (hsend : has s.packetstate UIPETHERNET_SENDPACKET)
    (hlive : Live s.net.blocks s.uipPacket) (hpayload : ((contents s.net.blocks s.net.ram s.uipPacket).drop
      (UIP_IPTCPH_LEN + UIP_LLH_LEN + UIP_SENDBUFFER_OFFSET)).take len = w) : Transmits s len w := by
  rw [Transmits, if_pos hsend]
  exact ⟨_, view_some.mpr ⟨hlive, rfl⟩, hpayload.symm⟩

/-- A poll behind a run, and its segment. -/
theorem poll_run {P : System → StreamCall → Prop} {x₀ : System × Stream} {as : List StreamCall} {t : Stream} {w : List Byte}
    (hs : Sound clean s) (hrun : Run (fun x a x' => StreamStep c u x a x' ∧ P x.1 a) x₀ as (s, t))
    (happ : (s.uipConns c).appstate = some u) (hothers : P s (.aside .others)) (hpoll : P (prompted s UIP_POLL 0 0) (.poll n))
    (hidle : t.len = 0) (h : uipclientAppcall (prompted s UIP_POLL 0 0) c = some s')
    (hw : Transmits s' (min s'.uip.uipSlen n) w) : Run (fun x a x' => StreamStep c u x a x' ∧ P x.1 a) x₀
      (as ++ [.aside .others] ++ [.poll n]) (s', { t with len := min s'.uip.uipSlen n, wire := [w] }) := by
  refine (hrun.snoc ⟨.aside happ (.others (prompted_beside hs UIP_POLL 0 0)) trivial, hothers⟩).snoc
    ⟨.poll happ rfl (prompted_polls (.inl rfl) h) hidle fun v hv => ?_, hpoll⟩
  rw [List.mem_singleton.mp hv]
  exact hw

/-- The acknowledgement of what is in flight, behind a run. -/
theorem ack_run {P : System → StreamCall → Prop} {x₀ : System × Stream} {as : List StreamCall} {t : Stream} {w : List Byte}
    (hs : Sound clean s) (hrun : Run (fun x a x' => StreamStep c u x a x' ∧ P x.1 a) x₀ as (s, t))
    (happ : (s.uipConns c).appstate = some u) (hothers : P s (.aside .others)) (hack : P (prompted s UIP_ACKDATA 0 0) (.ack w))
    (hlen : t.len ≠ 0) (hw : w ∈ t.wire) (h : uipclientAppcall (prompted s UIP_ACKDATA 0 0) c = some s') :
    Run (fun x a x' => StreamStep c u x a x' ∧ P x.1 a) x₀
      (as ++ [.aside .others] ++ [.ack w]) (s', { t with acked := t.acked ++ w, len := 0, wire := [] }) := by
  have hflags : has UIP_ACKDATA UIP_ACKDATA ∧ ¬has UIP_ACKDATA ((UIP_CLOSE ||| UIP_TIMEDOUT) ||| (UIP_POLL ||| UIP_REXMIT)) := by
    decide
  exact (hrun.snoc ⟨.aside happ (.others (prompted_beside hs UIP_ACKDATA 0 0)) trivial, hothers⟩).snoc
    ⟨.ack happ hflags.1 hflags.2 (prompted_called _ _ _) h hlen hw, hack⟩

/-- The first connection, with its entry. -/
theorem connected_run (h : uipclientAppcall (prompted (System.init (fun _ => 0) [] [] 0) UIP_CONNECTED 0 0) 0 = some s) :
    ∃ es, Run (fun s a s' => QueueStep s a s' ∧ OnAttached s a ∧ StoresWhole s a) (System.init (fun _ => 0) [] [] 0) es s := by
  have hs₀ : Sound True (System.init (fun _ => 0) [] [] 0) := init_sound _ _ _ _
  have hwhole : Uncut (prompted (System.init (fun _ => 0) [] [] 0) UIP_CONNECTED 0 0) 0 := by
    rintro u - ⟨hnew, -⟩
    rw [attach_uip] at hnew
    exact absurd hnew (by decide)
  have hstart : Run (fun s a s' => QueueStep s a s' ∧ OnAttached s a ∧ StoresWhole s a) (System.init (fun _ => 0) [] [] 0) []
      (System.init (fun _ => 0) [] [] 0) := .nil
  exact ⟨_, prompted_run (P := fun s a => OnAttached s a ∧ StoresWhole s a) hs₀ hstart ⟨trivial, trivial⟩ ⟨trivial, hwhole⟩ h⟩

/-- Two bytes are written, sent and acknowledged. -/
theorem send_stream_example : ∃ (s' : System) (t : Stream), t.acked = [7, 8] ∧ t.acked <+: t.written ∧
    (s'.uipConns 0).appstate = some 0 := by
  have hcompute : ((uipclientAppcall (prompted (System.init (fun _ => 0) [] [] 0) UIP_CONNECTED 0 0) 0).bind fun s₁ =>
      (attempt s₁ (some 0) 0 [7, 8]).bind fun x₂ => (uipclientAppcall (prompted x₂.1 UIP_POLL 0 0) 0).bind fun s₃ =>
      (uipclientAppcall (prompted s₃ UIP_ACKDATA 0 0) 0).map fun s₄ => decide ((s₁.uipConns 0).appstate = some 0 ∧
        (s₁.allData 0).packetsOut 0 = NOBLOCK ∧ x₂.2.accepted [7, 8] = [7, 8] ∧ (x₂.1.uipConns 0).appstate = some 0 ∧
        sendLength x₂.1 0 ≤ 512 ∧ (s₃.uipConns 0).appstate = some 0 ∧ s₃.uip.uipSlen = 2 ∧
        has s₃.packetstate UIPETHERNET_SENDPACKET ∧
        (0 < s₃.uipPacket ∧ s₃.uipPacket ≤ MEMPOOL_NUM_MEMBLOCKS ∧ 0 < (s₃.net.blocks s₃.uipPacket).size) ∧
        ((contents s₃.net.blocks s₃.net.ram s₃.uipPacket).drop
          (UIP_IPTCPH_LEN + UIP_LLH_LEN + UIP_SENDBUFFER_OFFSET)).take 2 = [7, 8] ∧ (s₄.uipConns 0).appstate = some 0)) =
      some true := by
    decide +kernel
  obtain ⟨s₁, h₁, hcompute⟩ := Option.bind_eq_some_iff.mp hcompute
  obtain ⟨⟨s₂, r⟩, h₂, hcompute⟩ := Option.bind_eq_some_iff.mp hcompute
  obtain ⟨s₃, h₃, hcompute⟩ := Option.bind_eq_some_iff.mp hcompute
  obtain ⟨s₄, h₄, hcompute⟩ := Option.map_eq_some_iff.mp hcompute
  obtain ⟨happ₁, hempty, hall, happ₂, hfits, happ₃, hlen, hsend, hlive, hpayload, happ₄⟩ := of_decide_eq_true hcompute
  obtain ⟨es, hrun⟩ := connected_run h₁
  have hs₁ : Sound True s₁ := hrun.invariant (fun hs h => h.1.sound hs fun _ => h.2) (init_sound _ _ _ _)
  have hwrite : OnAttached s₁ (.write 0 0 [7, 8]) := ⟨0, happ₁⟩
  have hs₂ : Sound True s₂ := (QueueStep.write h₂).sound hs₁ fun _ => ⟨hwrite, trivial⟩
  have hpoll : Polls 0 (prompted s₂ UIP_POLL 0 0) s₃ := prompted_polls (.inl rfl) h₃
  have hs₃ : Sound True s₃ := appcall_sound (hs₂.beside (prompted_beside hs₂ UIP_POLL 0 0)) hpoll.called (fun _ => hpoll.uncut) h₃
  have hack : Uncut (prompted s₃ UIP_ACKDATA 0 0) 0 := by
    rintro v - ⟨hnew, -⟩
    rw [attach_uip] at hnew
    exact absurd hnew (by decide : ¬has UIP_ACKDATA UIP_NEWDATA)
  have hstart : Run (fun x a x' => StreamStep 0 0 x a x' ∧ Uncropped 0 0 x.1 a) (s₁, ⟨[], [], 0, []⟩) _ _ :=
    .snoc .nil ⟨.write happ₁ h₂, trivial⟩
  have hmin : min s₃.uip.uipSlen 512 = 2 := by simp [hlen]
  have hrun₃ := poll_run (n := 512) (w := [7, 8]) hs₂ hstart happ₂ ⟨trivial, trivial⟩ hfits rfl h₃
    (by rw [hmin]; exact transmits_packet hsend hlive hpayload)
  have hrun₄ := ack_run hs₃ hrun₃ happ₃ ⟨trivial, trivial⟩ hack (fun h0 => absurd (hmin.symm.trans h0) (by decide)) List.mem_cons_self h₄
  exact ⟨s₄, _, rfl, send_stream hrun happ₁ hempty hrun₄, happ₄⟩

/-- With an mss of 1 the first of two bytes is sent. Its acknowledgement takes both
away, and the next one is that of a byte written behind them. -/
theorem cropped_segment : ∃ (es : List QueueCall) (as : List StreamCall) (s s' : System) (t : Stream),
    Run (fun s a s' => QueueStep s a s' ∧ OnAttached s a ∧ StoresWhole s a) (System.init (fun _ => 0) [] [] 0) es s ∧
    (s.uipConns 0).appstate = some 0 ∧ (s.allData 0).packetsOut 0 = NOBLOCK ∧
    Run (fun x a x' => StreamStep 0 0 x a x' ∧ ∀ mss, a = .poll mss → 1 ≤ mss) (s, ⟨[], [], 0, []⟩) as (s', t) ∧
    t.written = [7, 8, 9] ∧ t.acked = [7, 9] := by
  have hcompute : ((uipclientAppcall (prompted (System.init (fun _ => 0) [] [] 0) UIP_CONNECTED 0 0) 0).bind fun s₁ =>
      (attempt s₁ (some 0) 0 [7, 8]).bind fun x₂ => (uipclientAppcall (prompted x₂.1 UIP_POLL 0 0) 0).bind fun s₃ =>
      (uipclientAppcall (prompted s₃ UIP_ACKDATA 0 0) 0).bind fun s₄ => (attempt s₄ (some 0) 0 [9]).bind fun x₅ =>
      (uipclientAppcall (prompted x₅.1 UIP_POLL 0 0) 0).bind fun s₆ =>
      (uipclientAppcall (prompted s₆ UIP_ACKDATA 0 0) 0).map fun _ => decide ((s₁.allData 0).packetsOut 0 = NOBLOCK ∧
        x₂.2.accepted [7, 8] = [7, 8] ∧ x₅.2.accepted [9] = [9] ∧
        ([s₁, x₂.1, s₃, s₄, x₅.1, s₆].all fun s => decide ((s.uipConns 0).appstate = some 0)) ∧
        [(s₃, 7), (s₆, (9 : Byte))].all fun x => decide (1 ≤ x.1.uip.uipSlen ∧ has x.1.packetstate UIPETHERNET_SENDPACKET ∧
          (0 < x.1.uipPacket ∧ x.1.uipPacket ≤ MEMPOOL_NUM_MEMBLOCKS ∧ 0 < (x.1.net.blocks x.1.uipPacket).size) ∧
          ((contents x.1.net.blocks x.1.net.ram x.1.uipPacket).drop
            (UIP_IPTCPH_LEN + UIP_LLH_LEN + UIP_SENDBUFFER_OFFSET)).take 1 = [x.2]))) = some true := by
    decide +kernel
  obtain ⟨s₁, h₁, hcompute⟩ := Option.bind_eq_some_iff.mp hcompute
  obtain ⟨⟨s₂, r⟩, h₂, hcompute⟩ := Option.bind_eq_some_iff.mp hcompute
  obtain ⟨s₃, h₃, hcompute⟩ := Option.bind_eq_some_iff.mp hcompute
  obtain ⟨s₄, h₄, hcompute⟩ := Option.bind_eq_some_iff.mp hcompute
  obtain ⟨⟨s₅, r'⟩, h₅, hcompute⟩ := Option.bind_eq_some_iff.mp hcompute
  obtain ⟨s₆, h₆, hcompute⟩ := Option.bind_eq_some_iff.mp hcompute
  obtain ⟨s₇, h₇, hcompute⟩ := Option.map_eq_some_iff.mp hcompute
  obtain ⟨hempty, hfirst, hsecond, happs, hsegments⟩ := of_decide_eq_true hcompute
  have happ : ∀ s ∈ [s₁, s₂, s₃, s₄, s₅, s₆], (s.uipConns 0).appstate = some 0 :=
    fun s hs => of_decide_eq_true (List.all_eq_true.mp happs s hs)
  have hsegment : ∀ x ∈ [(s₃, 7), (s₆, (9 : Byte))], min x.1.uip.uipSlen 1 = 1 ∧ Transmits x.1 1 [x.2] := by
    intro x hx
    obtain ⟨hlen, hsend, hlive, hpayload⟩ := of_decide_eq_true (List.all_eq_true.mp hsegments x hx)
    exact ⟨Nat.min_eq_right hlen, transmits_packet hsend hlive hpayload⟩
  obtain ⟨hmin₃, hw₃⟩ := hsegment (s₃, 7) List.mem_cons_self
  obtain ⟨hmin₆, hw₆⟩ := hsegment (s₆, 9) (List.mem_cons_of_mem _ List.mem_cons_self)
  obtain ⟨es, hrun⟩ := connected_run h₁
  have hs₁ : Sound False s₁ := hrun.invariant (fun hs h => h.1.sound hs False.elim) (init_sound _ _ _ _)
  have hs₂ : Sound False s₂ := (QueueStep.write h₂).sound hs₁ False.elim
  have hs₃ := hs₂.prompted h₃
  have hs₄ := hs₃.prompted h₄
  have hs₅ : Sound False s₅ := (QueueStep.write h₅).sound hs₄ False.elim
  have hs₆ := hs₅.prompted h₆
  have hother : ∀ {a : StreamCall}, (∀ mss, a ≠ .poll mss) → ∀ mss, a = .poll mss → 1 ≤ mss := fun hne mss he => absurd he (hne mss)
  have hpolled : ∀ mss, StreamCall.poll 1 = .poll mss → 1 ≤ mss := by
    rintro mss ⟨⟩
    exact Nat.le_refl 1
  have hrun₂ : Run (fun x a x' => StreamStep 0 0 x a x' ∧ ∀ mss, a = .poll mss → 1 ≤ mss) (s₁, ⟨[], [], 0, []⟩) _ _ :=
    .snoc .nil ⟨.write (happ s₁ (by simp)) h₂, hother (by rintro mss ⟨⟩)⟩
  have hrun₃ := poll_run (P := fun _ a => ∀ mss, a = .poll mss → 1 ≤ mss) (n := 1) hs₂ hrun₂ (happ s₂ (by simp))
    (hother (by rintro mss ⟨⟩)) hpolled rfl h₃ (by rw [hmin₃]; exact hw₃)
  have hrun₄ := ack_run (P := fun _ a => ∀ mss, a = .poll mss → 1 ≤ mss) hs₃ hrun₃ (happ s₃ (by simp))
    (hother (by rintro mss ⟨⟩)) (hother (by rintro mss ⟨⟩)) (fun h0 => absurd (hmin₃.symm.trans h0) (by decide)) List.mem_cons_self h₄
  have hrun₅ := hrun₄.snoc ⟨.write (happ s₄ (by simp)) h₅, hother (by rintro mss ⟨⟩)⟩
  have hrun₆ := poll_run (P := fun _ a => ∀ mss, a = .poll mss → 1 ≤ mss) (n := 1) hs₅ hrun₅ (happ s₅ (by simp))
    (hother (by rintro mss ⟨⟩)) hpolled rfl h₆ (by rw [hmin₆]; exact hw₆)
  have hrun₇ := ack_run (P := fun _ a => ∀ mss, a = .poll mss → 1 ≤ mss) hs₆ hrun₆ (happ s₆ (by simp))
    (hother (by rintro mss ⟨⟩)) (hother (by rintro mss ⟨⟩)) (fun h0 => absurd (hmin₆.symm.trans h0) (by decide)) List.mem_cons_self h₇
  refine ⟨es, _, s₁, s₇, _, hrun, happ s₁ (by simp), hempty, hrun₇, ?_, rfl⟩
  show [] ++ r.accepted [7, 8] ++ r'.accepted [9] = [7, 8, 9]
  rw [hfirst, hsecond]
  rfl

end UIPClient

end UIPEthernet
