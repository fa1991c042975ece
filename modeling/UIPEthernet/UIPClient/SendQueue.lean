import UIPEthernet.UIPClient.PacketQueue

/-!
# The outgoing blocks of an entry

The callback takes them from the front, offers the first one and cuts it when it
is alone; `_write` fills the last one and puts others behind it.
-/

namespace UIPEthernet.UIPClient

open UIPEthernet.System Slot Enc28J60Network MemoryPool

variable {clean : Prop} {s s' s₁ s₂ : System} {c u v : Fin UIP_CONNS} {hs : List Handle} {h : Handle} {n : Nat}

-- ---------------------------------------------------------------------------
-- packets_out
-- ---------------------------------------------------------------------------

theorem Outgoing.none (hl : Lists (s.allData u).packetsOut []) : Outgoing clean s u [] :=
  ⟨hl, fun _ hj => absurd hj (Option.not_mem_none _), fun _ _ hj => absurd hj List.not_mem_nil,
    fun _ _ hj => absurd hj (Option.not_mem_none _)⟩

/-- The first block goes. -/
theorem Outgoing.eaten (hl : Outgoing clean s u (h :: hs)) (hout : (s'.allData u).packetsOut = shift (s.allData u).packetsOut)
    (hpos : (s'.allData u).outPos = (s.allData u).outPos)
    (hsame : ∀ j ∈ hs, s'.sizeAt j = s.sizeAt j ∧ s'.net.view j = s.net.view j) (hhist : s'.history = s.history) :
    Outgoing clean s' u hs := by
  cases hs with
  | nil => exact .none (hout ▸ hl.shift)
  | cons k hs =>
    refine ⟨hout ▸ hl.shift, fun j hj => ?_, fun hc j hj => ?_, fun hc j hj => ?_⟩
    · rw [hpos, (hsame j (List.mem_of_getLast? hj)).1]
      exact hl.pos j hj
    · rw [(hsame j ((List.dropLast_sublist _).subset hj)).2, hhist]
      exact hl.full hc j (List.mem_cons_of_mem h hj)
    · rw [(hsame j (List.mem_of_getLast? hj)).2, hhist, hpos]
      exact hl.last hc j hj

/-- The blocks are different. -/
theorem Outgoing.nodup (ho : s.Owned) (hs' : (s.allData u).sends) (hl : Outgoing clean s u hs) : hs.Nodup := by
  refine List.pairwise_iff_getElem.mpr fun i j hi hj hij he => ?_
  have hlen := hl.length
  have hget : ∀ (k : Nat) (hk : k < hs.length), s.own (.packetsOut u ⟨k, by omega⟩) = hs[k] := by
    intro k hk
    rw [own_out _ hs', hl.get, List.getD_eq_getElem?_getD, List.getElem?_eq_getElem hk, Option.getD_some]
  have hne : s.own (.packetsOut u ⟨i, by omega⟩) ≠ NOBLOCK := by
    rw [hget i hi]
    exact hl.used _ (List.getElem_mem hi)
  have hslot := ho.distinct hne ((hget i hi).trans (he.trans (hget j hj).symm))
  have hindex : i = j := Fin.mk.inj (packetsOut.inj hslot).2
  omega

theorem eatOut_serves (ho : s.Owned) (ht : Tidy clean u s) (hs : (s.allData u).sends) (h : eatOut s u = some s') :
    Serves clean u s s' := by
  have hkeeps := eatOut_keeps ho hs h
  have hwithin := eatOut_within h
  simp only [eatOut, eatBlock, Option.bind_eq_bind, Option.bind_eq_some_iff, Prod.exists] at h
  obtain ⟨net, block, ⟨net', hfree, heq⟩, h⟩ := h
  cases heq
  cases h
  have hspares := freeBlock_spares ht.valid hfree
  obtain ⟨li, hli⟩ := ht.incoming
  obtain ⟨l, hl⟩ := ht.outgoing hs
  refine ⟨hkeeps, ⟨hspares.valid, ⟨li, ?_⟩, fun _ => ⟨l.tail, ?_⟩⟩, hwithin.others, fun hc x hx hne => ?_, fun _ _ _ => rfl⟩
  · rw [setPacketsOut_self]
    exact hli
  · cases l with
    | nil => exact .none (by rw [setPacketsOut_self]; exact hl.shift)
    | cons k l =>
      refine hl.eaten (by rw [setPacketsOut_self]) (by rw [setPacketsOut_self]; rfl) (fun j hj => ?_) rfl
      have hkept : j ≠ (s.allData u).packetsOut 0 := by
        rw [hl.head]
        rintro rfl
        exact (List.nodup_cons.mp (hl.nodup ho hs)).1 hj
      exact ⟨hspares.size j hkept, hspares.view j hkept⟩
  · refine hspares.view _ fun he => hx ?_
    have hslot := ho.distinct hne (he.trans (own_out 0 hs).symm)
    rw [hslot]
    exact rfl

theorem flushOut_serves (ho : s.Owned) (ht : Tidy clean u s) (hs : (s.allData u).sends) (h : flushOut s u = some s') :
    Serves clean u s s' := by
  have hkeeps := flushOut_keeps ho hs h
  have hwithin := flushOut_within h
  simp only [flushOut, Option.bind_eq_bind, Option.bind_eq_some_iff, Prod.exists] at h
  obtain ⟨net, block, hflush, h⟩ := h
  cases h
  obtain rfl := flushBlocks_none hflush
  have hspares := flushBlocks_spares ht.valid hflush
  obtain ⟨li, hli⟩ := ht.incoming
  refine ⟨hkeeps, ⟨hspares.valid, ⟨li, ?_⟩, fun _ => ⟨[], .none ?_⟩⟩, hwithin.others, fun hc x hx hne => ?_, fun _ _ _ => rfl⟩
  · rw [setPacketsOut_self]
    exact hli
  · rw [setPacketsOut_self]
    exact .empty
  · refine hspares.view _ ?_
    rintro ⟨i, he⟩
    refine hx ?_
    have hslot := ho.distinct hne (he.symm.trans (own_out i hs).symm)
    rw [hslot]
    exact rfl

/-- An entry that is given back, or kept for what is unread. -/
theorem retired_serves (ho : s.Owned) (ht : Tidy clean u s) {d : Userdata} (hin : d.packetsIn = (s.allData u).packetsIn)
    (hd : d.sends = false) : ServesIn clean u s (s.setData u d) := by
  have hkeeps : Keeps (ofEntry u) s (s.setData u d) :=
    ho.entry_dropped (fun _ _ => by rw [hin]) fun _ hs' => absurd (hd.symm.trans hs') Bool.false_ne_true
  obtain ⟨l, hl⟩ := ht.incoming
  refine .aside ht hkeeps (fun v hv => Function.update_of_ne hv _ _) ht.valid ⟨l, ?_⟩ ?_
    (fun _ _ _ => ⟨rfl, fun _ => rfl⟩) fun _ _ => rfl
  · rw [setData_self, hin]
    exact hl
  · rw [setData_self]
    exact fun hs' => absurd (hd.symm.trans hs') Bool.false_ne_true

theorem closed_serves (ho : s.Owned) (ht : Tidy clean u s) (hs : (s.allData u).sends) (h : closed s c u = some s') :
    Serves clean u s s' := by
  simp only [closed, Option.bind_eq_bind, Option.bind_eq_some_iff, Option.pure_def, Option.some.injEq] at h
  obtain ⟨s₁, hflush, rfl⟩ := h
  have h₁ := flushOut_serves ho ht hs hflush
  refine h₁.trans (ServesIn.toServes ?_)
  split
  · let d := { s₁.allData u with
      packetsOut := ((s₁.allData u).setLport (s₁.uipConns c).lport).packetsOut
      state := (s₁.allData u).state ||| UIP_CLIENT_REMOTECLOSED }
    have hremote : ∀ x : BitVec 8, has (x ||| UIP_CLIENT_REMOTECLOSED) UIP_CLIENT_REMOTECLOSED := by decide
    have hd : d.sends = false := by
      refine Bool.eq_false_iff.mpr fun hs' => (sends_iff.mp hs').2 (hremote _)
    have h₂ : ServesIn clean u s₁ (s₁.setData u d) := retired_serves h₁.owned h₁.tidy rfl hd
    refine h₂.trans (.same h₂.owned h₂.tidy ?_ rfl rfl rfl)
    simp only [setAppstate, mapConn, setState, setPacketsOut, setData, Function.update_self, Function.update_idem, d]
  · have h₂ : ServesIn clean u s₁ (s₁.setState u 0) := retired_serves h₁.owned h₁.tidy rfl rfl
    exact h₂.trans (.same h₂.owned h₂.tidy rfl rfl rfl rfl)

theorem acked_serves (ho : s.Owned) (ht : Tidy clean u s) (hs : (s.allData u).sends) (h : acked s u = some s') :
    Serves clean u s s' := by
  rw [acked] at h
  split at h
  · exact eatOut_serves ho ht hs h
  · cases h
    exact .refl ho ht

theorem finish_serves (ho : s.Owned) (ht : Tidy clean u s) (sendLen : Nat) : ServesIn clean u s (finish s sendLen) := by
  simp only [finish]
  split <;> exact .same ho ht rfl rfl rfl rfl

theorem closing_serves (ho : s.Owned) (ht : Tidy clean u s) : ServesIn clean u s (closing s c u) := by
  rw [closing]
  split
  · split
    · have h₁ : ServesIn clean u s (s.setState u 0) := retired_serves ho ht rfl rfl
      exact h₁.trans (.same h₁.owned h₁.tidy rfl rfl rfl rfl)
    · exact .same ho ht rfl rfl rfl rfl
  · exact .refl ho ht

-- ---------------------------------------------------------------------------
-- What is offered
-- ---------------------------------------------------------------------------

/-- One block, or more than one. -/
theorem Outgoing.single (hl : Outgoing clean s u hs) (hhead : (s.allData u).packetsOut 0 ≠ NOBLOCK)
    (hone : (s.allData u).packetsOut 1 = NOBLOCK) : hs = [(s.allData u).packetsOut 0] := by
  have hlen := (hl.none_iff 1).mp hone
  cases hs with
  | nil => exact absurd (hl.head_none.mpr rfl) hhead
  | cons h hs =>
    rw [hl.head]
    exact congrArg (h :: ·) (List.length_eq_zero_iff.mp (Nat.le_zero.mp (Nat.le_of_succ_le_succ hlen)))

theorem Outgoing.offerable (ho : s.Owned) (hv : s.net.Valid) (hs' : (s.allData u).sends) (hl : Outgoing clean s u hs)
    (hhead : (s.allData u).packetsOut 0 ≠ NOBLOCK) :
    Offerable s u (contents s.net.blocks s.net.ram ((s.allData u).packetsOut 0)) := by
  have hlive : Live s.net.blocks ((s.allData u).packetsOut 0) := own_out 0 hs' ▸ ho.block (own_out 0 hs' ▸ hhead)
  have hview := view_some.mpr ⟨hlive, rfl⟩
  refine ⟨hv, hview, fun hone => ?_⟩
  rw [view_length hview]
  exact hl.pos _ (by rw [hl.single hhead hone]; rfl)

/-- A single block is cut behind what has been written. -/
theorem cutHead_serves (ho : s.Owned) (ht : Tidy clean u s) (hs : (s.allData u).sends)
    (hhead : (s.allData u).packetsOut 0 ≠ NOBLOCK) (hbytes : sendLength s u ≠ 0) : Serves clean u s (cutHead s u) := by
  have hkeeps := cutHead_keeps ho hs hbytes
  obtain ⟨l, hl⟩ := ht.outgoing hs
  by_cases hone : (s.allData u).packetsOut 1 = NOBLOCK
  · obtain ⟨net, hcut, -, hch⟩ := cutHead_ok (hl.offerable ho ht.valid hs hhead) hbytes
    have hlen : sendLength s u = (s.allData u).outPos := if_pos hone
    rw [hlen] at hch
    rw [hcut] at hkeeps ⊢
    obtain ⟨li, hli⟩ := ht.incoming
    have hoffer := hl.offerable ho ht.valid hs hhead
    obtain rfl := hl.single hhead hone
    generalize hbytes' : contents s.net.blocks s.net.ram ((s.allData u).packetsOut 0) = bytes at hch hoffer
    have hself : net.view ((s.allData u).packetsOut 0) = some (bytes.take (s.allData u).outPos) := by
      rw [hch.view, Function.update_self]
    have hpos : (s.allData u).outPos ≤ bytes.length := hoffer.within hone
    refine ⟨hkeeps, ⟨hch.valid, ⟨li, hli⟩, fun _ => ⟨_, hl.toLists, fun j hj => ?_, fun _ _ hj => absurd hj List.not_mem_nil,
      fun hc j hj => ?_⟩⟩, fun _ _ => rfl, fun _ x hx hne => ?_, fun _ _ _ => rfl⟩
    · obtain rfl := Option.some.inj hj
      have hlength := view_length hself
      rw [List.length_take, Nat.min_eq_left hpos] at hlength
      exact Nat.le_of_eq hlength
    · obtain ⟨b, hview, hsuffix⟩ := hl.last hc j hj
      obtain rfl := Option.some.inj hj
      obtain rfl := Option.some.inj (hoffer.block.symm.trans hview)
      refine ⟨_, hself, ?_⟩
      rw [show ((s.setNet net).allData u).outPos = (s.allData u).outPos from rfl, List.take_take, Nat.min_self]
      exact hsuffix
    · have hkept : s.own x ≠ (s.allData u).packetsOut 0 := by
        intro he
        have hslot := ho.distinct hne (he.trans (own_out 0 hs).symm)
        rw [hslot] at hx
        exact hx rfl
      rw [show (s.setNet net).net.view = _ from hch.view, Function.update_of_ne hkept]
  · have hsame : cutHead s u = s := if_neg hone
    rw [hsame]
    exact .refl ho ht

/-- The copy of a segment lies in a block of its own. -/
theorem Prepared.serves {bytes : List Byte} (ho : s.Owned) (ht : Tidy clean u s) (hp : Prepared s c v bytes s') :
    ServesIn clean u s s' := by
  have hall : s'.allData = s.allData ∧ s'.sockets = s.sockets ∧ s'.net.sent = s.net.sent ∧ s'.net.Valid ∧
      (∀ x, s.own x ≠ NOBLOCK → s'.net.view (s.own x) = s.net.view (s.own x)) ∧
      ∀ v h, writtenTo v h s'.history = writtenTo v h s.history := by
    have hsent := hp.keeps.2.2.2.2
    cases hp with
    | refused hch _ => exact ⟨rfl, rfl, hsent, hch.valid, fun x _ => congrFun hch.view (s.own x), fun _ _ => rfl⟩
    | copied hfresh _ _ hch _ =>
      refine ⟨rfl, rfl, hsent, hch.valid, fun x hne => ?_, fun _ _ => rfl⟩
      refine (congrFun hch.view (s.own x)).trans (Function.update_of_ne ?_ _ _)
      rintro rfl
      exact view_none.mp hfresh (ho.block hne)
  obtain ⟨hdata, hsockets, hsent, hvalid, hview, hwritten⟩ := hall
  have hsize : ∀ x, s.own x ≠ NOBLOCK → s'.sizeAt (s.own x) = s.sizeAt (s.own x) :=
    fun x hne => size_of_view (ho.block hne) (hview x hne)
  obtain ⟨l, hl⟩ := ht.incoming
  refine .aside ht ⟨ho.same (fun x => by rw [own_congr hdata hsockets]) hsize, hsent⟩ (fun _ _ => by rw [hdata]) hvalid
    ⟨l, hdata ▸ hl⟩ ?_ (fun x _ hne => ⟨hsize x hne, fun _ => hview x hne⟩) hwritten
  rw [hdata]
  exact fun hs' => ⟨hs', rfl, rfl⟩

theorem offer_serves {sendLen : Nat} (ho : s.Owned) (ht : Tidy clean u s) (hs : (s.allData u).sends) (hat : AtPayload s)
    (hhead : (s.allData u).packetsOut 0 ≠ NOBLOCK) (h : offer s c u = some (s', sendLen)) : Serves clean u s s' := by
  by_cases hbytes : sendLength s u = 0
  · rw [offer, if_pos hbytes] at h
    cases h
    exact .refl ho ht
  · obtain ⟨l, hl⟩ := ht.outgoing hs
    have h₁ := cutHead_serves ho ht hs hhead hbytes
    obtain ⟨s₁, hoffer, hp⟩ := offer_prepared (c := c) (hl.offerable ho ht.valid hs hhead) hat hbytes
    obtain ⟨rfl, rfl⟩ := Prod.mk.inj (Option.some.inj (hoffer.symm.trans h))
    exact h₁.trans (hp.serves h₁.owned h₁.tidy).toServes

theorem polled_serves (ho : s.Owned) (ht : Tidy clean u s) (hs : (s.allData u).sends)
    (hat : has s.uip.uipFlags (UIP_POLL ||| UIP_REXMIT) → AtPayload s) (h : polled s c u = some s') : Serves clean u s s' := by
  simp only [polled, Option.bind_eq_bind, Option.pure_def] at h
  split at h
  · rename_i hask
    obtain ⟨⟨s₁, sendLen⟩, hoffer, h⟩ := Option.bind_eq_some_iff.mp h
    cases h
    have h₁ := offer_serves ho ht hs (hat hask.1) hask.2 hoffer
    exact h₁.trans (finish_serves h₁.owned h₁.tidy _).toServes
  · cases h
    have h₁ : ServesIn clean u s (closing s c u) := closing_serves ho ht
    exact (h₁.trans (finish_serves h₁.owned h₁.tidy 0)).toServes

/-- What `uip_process` has set up when it calls back. -/
structure Called (s : System) : Prop where
  payload : has s.uip.uipFlags (UIP_POLL ||| UIP_REXMIT) → AtPayload s
  frame : has s.uip.uipFlags UIP_NEWDATA → s.inPacket = UIP_RECEIVEBUFFERHANDLE

/-- The callback for the connection of the entry. -/
theorem serve_serves (hs : Serving s c u) (ho : s.Owned) (ht : Tidy clean u s) (hcall : Called s)
    (hpiece : clean → Stores s u → OnePiece s) (h : serve s c u = some s') : Serves clean u s s' := by
  simp only [serve, Option.bind_eq_bind, Option.pure_def] at h
  obtain ⟨s₁, hnew, h⟩ := Option.bind_eq_some_iff.mp h
  have h₁ := newdata_serves ho ht hcall.frame hpiece hnew
  have h₂ : Serves clean u s (restart s₁ c u) := (h₁.trans (restart_serves h₁.owned h₁.tidy)).toServes
  have hs₂ : Serving (restart s₁ c u) c u := restart_serving (newdata_serving hs hnew)
  have hat₂ : has (restart s₁ c u).uip.uipFlags (UIP_POLL ||| UIP_REXMIT) → AtPayload (restart s₁ c u) := by
    rw [restart_flags (by decide), newdata_uip hnew]
    exact fun hask => restart_atPayload (by rw [AtPayload, newdata_uip hnew]; exact hcall.payload hask)
  split at h
  · obtain ⟨s₃, hclosed, h⟩ := Option.bind_eq_some_iff.mp h
    cases h
    have h₃ := h₂.trans (closed_serves h₂.owned h₂.tidy hs₂.sends hclosed)
    exact h₃.trans (finish_serves h₃.owned h₃.tidy 0).toServes
  · obtain ⟨s₃, hack, h⟩ := Option.bind_eq_some_iff.mp h
    have h₃ := h₂.trans (acked_serves h₂.owned h₂.tidy hs₂.sends hack)
    refine h₃.trans (polled_serves h₃.owned h₃.tidy (hs₂.congr (acked_tables hack)).sends ?_ h)
    rw [AtPayload, acked_uip hack]
    exact hat₂

-- ---------------------------------------------------------------------------
-- What is written
-- ---------------------------------------------------------------------------

/-- There is a block for the first bytes of `buf` in slot `p`, and the ones
before it are full. -/
def Room (clean : Prop) (u : Fin UIP_CONNS) (p : Fin UIP_SOCKET_NUMPACKETS) (s : System) : Prop :=
  (s.allData u).sends → ∃ hs, Outgoing clean s u hs ∧ hs.length = p.val + 1

/-- The slot is behind the last block, which is full. -/
def Full (clean : Prop) (u : Fin UIP_CONNS) (p : Fin UIP_SOCKET_NUMPACKETS) (s : System) : Prop :=
  (s.allData u).sends → ∃ hs, Outgoing clean s u hs ∧ hs.length = p.val ∧ ∀ h ∈ hs.getLast?, (s.allData u).outPos = s.sizeAt h

/-- A full block is one before the last. -/
theorem Outgoing.whole (hl : Outgoing clean s u hs)
    (hfull : ∀ h ∈ hs.getLast?, (s.allData u).outPos = s.sizeAt h) (hc : clean) (hh : h ∈ hs) :
    ∃ b, s.net.view h = some b ∧ b <:+ writtenTo u h s.history := by
  have hne : hs ≠ [] := List.ne_nil_of_mem hh
  rw [← List.dropLast_append_getLast hne] at hh
  rcases List.mem_append.mp hh with hh | hh
  · exact hl.full hc h hh
  · have hlast : h ∈ hs.getLast? := by
      rw [List.mem_singleton.mp hh]
      exact List.getLast?_eq_some_getLast hne
    obtain ⟨b, hview, hsuffix⟩ := hl.last hc h hlast
    have hlen : b.length ≤ s.sizeAt h := Nat.le_of_eq (view_length hview)
    rw [hfull h hlast, List.take_of_length_le hlen] at hsuffix
    exact ⟨b, hview, hsuffix⟩

theorem newpacket_serves {p : Fin UIP_SOCKET_NUMPACKETS} {got : Bool} (ho : s.Owned) (ht : Tidy clean u s)
    (hfull : Full clean u p s) (h : newpacket s u p = some (s', got)) :
    Serves clean u s s' ∧ (got → Room clean u p s') := by
  have hkeeps := newpacket_keeps ho h
  have hdlen : 1 ≤ UIP_SOCKET_DATALEN := by decide
  simp only [newpacket, Option.bind_eq_bind, Option.pure_def] at h
  obtain ⟨⟨net, b⟩, halloc, h⟩ := Option.bind_eq_some_iff.mp h
  have hvalid : net.Valid := allocBlock_valid ht.valid hdlen halloc
  have hspares : ∀ x, s.own x ≠ NOBLOCK → (net.blocks (s.own x)).size = s.sizeAt (s.own x) ∧ net.view (s.own x) = s.net.view (s.own x) :=
    fun x hne => allocBlock_spares ht.valid hdlen halloc (ho.block hne)
  obtain ⟨li, hli⟩ := ht.incoming
  have hviews : ∀ x : Slot, s.own x ≠ NOBLOCK → net.view (s.own x) = s.net.view (s.own x) := fun x hne => (hspares x hne).2
  have hsame : (s.allData u).sends → ∀ {hs}, Outgoing clean s u hs → ∀ j ∈ hs,
      (net.blocks j).size = s.sizeAt j ∧ net.view j = s.net.view j := by
    intro hs' l hl j hj
    obtain ⟨i, rfl, hne⟩ := hl.mem_own hs' hj
    exact hspares _ hne
  simp only at h
  split at h
  · rename_i hb
    cases h
    have hself := setPacketsOut_self (s.setNet net) u (Function.update (s.allData u).packetsOut p b)
    refine ⟨⟨hkeeps, ⟨hvalid, ⟨li, by rw [hself]; exact hli⟩, fun hs' => ?_⟩, fun v hv => Function.update_of_ne hv _ _,
      fun _ x _ hne => hviews x hne, fun _ _ _ => rfl⟩, fun hgot => absurd hgot Bool.false_ne_true⟩
    rw [hself] at hs'
    obtain ⟨l, hl, hlen, -⟩ := hfull hs'
    have hnone : Function.update (s.allData u).packetsOut p b = (s.allData u).packetsOut := by
      rw [hb, ← (hl.none_iff p).mpr (Nat.le_of_eq hlen), Function.update_eq_self]
    refine ⟨l, hl.congr (by rw [hself]; exact hnone) (by rw [hself]; rfl) (fun j hj => ?_) fun _ => rfl⟩
    exact ⟨(hsame hs' hl j hj).1, fun _ => (hsame hs' hl j hj).2⟩
  · rename_i hb
    cases h
    obtain ⟨hres, -⟩ := allocBlock_result ht.valid hdlen halloc
    obtain ⟨bytes, hnew⟩ : ∃ bytes, net.view b = some bytes := by
      cases hres with
      | @placed _ bytes _ _ _ hch => exact ⟨bytes, by rw [hch.view, Function.update_self]⟩
      | failed _ _ => exact absurd rfl hb
    let s₁ := (s.setNet net).setPacketsOut u (Function.update (s.allData u).packetsOut p b)
    have hself : (s₁.setOutPos u 0).allData u =
        { s.allData u with packetsOut := Function.update (s.allData u).packetsOut p b, outPos := 0 } := by
      rw [setOutPos_self, setPacketsOut_self]
      rfl
    have hroom : Room clean u p (s₁.setOutPos u 0) := by
      intro hs'
      rw [hself] at hs'
      obtain ⟨l, hl, hlen, hlast⟩ := hfull hs'
      have hget : (l ++ [b]).getLast? = some b := List.getLast?_concat ..
      refine ⟨l ++ [b], ⟨?_, fun j hj => ?_, fun hc j hj => ?_, fun _ j hj => ?_⟩, by rw [List.length_append, hlen]; rfl⟩
      · rw [hself]
        exact hl.append hlen.symm hb
      · rw [hself]
        exact Nat.zero_le _
      · rw [List.dropLast_concat] at hj
        obtain ⟨bytes', hview, hsuffix⟩ := hl.whole hlast hc hj
        exact ⟨bytes', (hsame hs' hl j hj).2.trans hview, hsuffix⟩
      · rw [hget] at hj
        obtain rfl := Option.some.inj hj
        refine ⟨bytes, hnew, ?_⟩
        rw [hself]
        exact List.nil_suffix
    refine ⟨⟨hkeeps, ⟨hvalid, ⟨li, ?_⟩, fun hs' => ?_⟩, fun v hv => ?_, fun _ x _ hne => hviews x hne, fun _ _ _ => rfl⟩,
      fun _ => hroom⟩
    · rw [hself]
      exact hli
    · obtain ⟨l, hl, -⟩ := hroom hs'
      exact ⟨l, hl⟩
    · exact (Function.update_of_ne hv _ _).trans (Function.update_of_ne hv _ _)

theorem writtenTo_self (data : List Byte) (es : List Event) : writtenTo u h (.written u h data :: es) = writtenTo u h es ++ data :=
  if_pos ⟨rfl, rfl⟩

theorem writtenTo_other {k : Handle} (data : List Byte) (es : List Event) (hne : ¬(v = u ∧ k = h)) :
    writtenTo u h (.written v k data :: es) = writtenTo u h es := if_neg hne

theorem splice_take {b r : List Byte} (hn : n ≤ b.length) : (Lib.splice b n r).take (n + r.length) = b.take n ++ r := by
  have hlen : (b.take n ++ r).length = n + r.length := by rw [List.length_append, List.length_take, Nat.min_eq_left hn]
  rw [Lib.splice, ← hlen, List.take_left]

/-- The last block takes what there is room for. -/
theorem fill_outgoing {p : Fin UIP_SOCKET_NUMPACKETS} (ho : s.Owned) (hv : s.net.Valid) (hs' : (s.allData u).sends)
    (hl : Outgoing clean s u hs) (hlen : hs.length = p.val + 1) (buf : List Byte) :
    Outgoing clean (fill s u p buf).1 u hs ∧
      (∀ j, j ≠ (s.allData u).packetsOut p → (fill s u p buf).1.net.view j = s.net.view j) ∧
      ((fill s u p buf).2 ≠ [] →
        ∀ h ∈ hs.getLast?, ((fill s u p buf).1.allData u).outPos = (fill s u p buf).1.sizeAt h) := by
  obtain rfl | ⟨front, h, hconcat⟩ := List.eq_nil_or_concat hs
  · exact absurd hlen (Nat.succ_ne_zero _).symm
  rw [List.concat_eq_append] at hconcat
  subst hconcat
  rw [List.length_append, List.length_singleton, Nat.add_right_cancel_iff] at hlen
  have hslot : (s.allData u).packetsOut p = h := by
    rw [hl.get, List.getD_eq_getElem?_getD, List.getElem?_append_right (Nat.le_of_eq hlen), hlen, Nat.sub_self]
    rfl
  have hget : (front ++ [h]).getLast? = some h := List.getLast?_concat ..
  obtain ⟨i, hi, hne⟩ := hl.mem_own hs' (List.mem_append_right front List.mem_cons_self)
  have hview : s.net.view h = some (contents s.net.blocks s.net.ram h) := by
    refine view_some.mpr ⟨?_, rfl⟩
    rw [← hi]
    exact ho.block (hi ▸ hne)
  generalize contents s.net.blocks s.net.ram h = b at hview
  have hsize : b.length = s.sizeAt h := view_length hview
  have hpos : (s.allData u).outPos ≤ b.length := hsize ▸ hl.pos h hget
  obtain ⟨hcount, hch⟩ := writePacket_ok hv hview hpos buf
  have hbound : b.length ≤ MEMORY_SIZE := Nat.le_trans (Nat.le_add_left _ _) (hv.bounds hview).2
  have hm : MEMORY_SIZE = 8192 := rfl
  generalize hdata : buf.take (b.length - (s.allData u).outPos) = data at hch
  have hdlen : data.length = min buf.length (b.length - (s.allData u).outPos) := by
    rw [← hdata, List.length_take, Nat.min_comm]
  have htake : buf.take data.length = data := by
    rw [hdlen, ← hdata, List.take_eq_take_iff]
    omega
  have hfill : fill s u p buf = (((s.setNet (s.net.writePacket h (s.allData u).outPos buf).1).setOutPos u
      ((s.allData u).outPos + data.length)).record (.written u h data), buf.drop data.length) := by
    simp only [fill, hslot, hcount, ← hdlen, htake]
    rw [add16_eq (by omega)]
  have hself : ((fill s u p buf).1.allData u) = { s.allData u with outPos := (s.allData u).outPos + data.length } := by
    rw [hfill]
    exact setOutPos_self ..
  have hview' : (fill s u p buf).1.net.view =
      Function.update s.net.view h (some (Lib.splice b (s.allData u).outPos data)) := by
    rw [hfill]
    exact hch.view
  have hblocks : ∀ j, (fill s u p buf).1.sizeAt j = s.sizeAt j := fun _ => rfl
  have hhist : (fill s u p buf).1.history = .written u h data :: s.history := by
    rw [hfill]
    rfl
  have hnodup := hl.nodup ho hs'
  rw [List.nodup_append] at hnodup
  refine ⟨⟨?_, fun j hj => ?_, fun hc j hj => ?_, fun hc j hj => ?_⟩, fun j hj => ?_, fun hrest j hj => ?_⟩
  · rw [hself]
    exact hl.toLists
  · rw [hget] at hj
    obtain rfl := Option.some.inj hj
    rw [hself, hblocks, ← hsize]
    show (s.allData u).outPos + data.length ≤ b.length
    omega
  · have hjh : j ≠ h := by
      rw [List.dropLast_concat] at hj
      exact hnodup.2.2 j hj h List.mem_cons_self
    rw [hview', Function.update_of_ne hjh, hhist, writtenTo_other _ _ fun he => hjh he.2.symm]
    exact hl.full hc j hj
  · obtain ⟨b', hb', hsuffix⟩ := hl.last hc j hj
    rw [hget] at hj
    obtain rfl := Option.some.inj hj
    obtain rfl := Option.some.inj (hview.symm.trans hb')
    refine ⟨_, by rw [hview', Function.update_self], ?_⟩
    rw [hself, hhist, writtenTo_self]
    show (Lib.splice b (s.allData u).outPos data).take ((s.allData u).outPos + data.length) <:+ _
    rw [splice_take hpos]
    obtain ⟨older, holder⟩ := hsuffix
    exact ⟨older, by rw [← holder, List.append_assoc]⟩
  · rw [hview', Function.update_of_ne (hslot ▸ hj)]
  · rw [hget] at hj
    obtain rfl := Option.some.inj hj
    rw [hself, hblocks, ← hsize]
    rw [hfill] at hrest
    have hleft : data.length < buf.length := Nat.lt_of_not_le fun hle => hrest (List.drop_of_length_le hle)
    show (s.allData u).outPos + data.length = b.length
    omega

theorem fill_serves {p : Fin UIP_SOCKET_NUMPACKETS} (ho : s.Owned) (ht : Tidy clean u s) (hclean : clean → (s.allData u).sends)
    (hroom : Room clean u p s) (buf : List Byte) :
    Serves clean u s (fill s u p buf).1 ∧ ((fill s u p buf).1.allData u).sends = (s.allData u).sends ∧
      ∀ q : Fin UIP_SOCKET_NUMPACKETS, q.val = p.val + 1 → (fill s u p buf).2 ≠ [] → Full clean u q (fill s u p buf).1 := by
  have hkeeps := fill_keeps (u := u) ho p buf
  have hself : ∃ outPos, (fill s u p buf).1.allData u = { s.allData u with outPos } := ⟨_, setOutPos_self ..⟩
  obtain ⟨outPos, hself⟩ := hself
  have hsends : ((fill s u p buf).1.allData u).sends = (s.allData u).sends := by
    rw [hself]
    rfl
  obtain ⟨li, hli⟩ := ht.incoming
  refine ⟨⟨hkeeps, ⟨ht.valid, ⟨li, by rw [hself]; exact hli⟩, fun hs' => ?_⟩, fun v hv => Function.update_of_ne hv _ _,
    fun hc x hx hne => ?_, fun v hv j => writtenTo_other _ _ fun he => hv he.1.symm⟩, hsends, fun q hq hrest hs' => ?_⟩
  · rw [hsends] at hs'
    obtain ⟨l, hl, hlen⟩ := hroom hs'
    exact ⟨l, (fill_outgoing ho ht.valid hs' hl hlen buf).1⟩
  · have hs' := hclean hc
    obtain ⟨l, hl, hlen⟩ := hroom hs'
    refine (fill_outgoing ho ht.valid hs' hl hlen buf).2.1 _ fun he => hx ?_
    have hslot := ho.distinct hne (he.trans (own_out p hs').symm)
    rw [hslot]
    exact rfl
  · rw [hsends] at hs'
    obtain ⟨l, hl, hlen⟩ := hroom hs'
    obtain ⟨hl', -, hfull⟩ := fill_outgoing ho ht.valid hs' hl hlen buf
    exact ⟨l, hl', hlen.trans hq.symm, hfull hrest⟩

theorem ready_serves (ho : s.Owned) (ht : Tidy clean u s) (now : BitVec 32) (remain : List Byte) :
    ServesIn clean u s (ready s u now remain).1 := by
  have hself : (ready s u now remain).1.allData u = { s.allData u with timer := now + UIP_CLIENT_TIMER } :=
    Function.update_self ..
  obtain ⟨li, hli⟩ := ht.incoming
  refine .aside ht (ready_keeps ho now remain) (fun v hv => Function.update_of_ne hv _ _) ht.valid ⟨li, by rw [hself]; exact hli⟩ ?_
    (fun _ _ _ => ⟨rfl, fun _ => rfl⟩) fun _ _ => rfl
  rw [hself]
  exact fun hs' => ⟨hs', rfl, rfl⟩

theorem fillAll_serves {now : BitVec 32} {k : Nat} {slots : List (Fin UIP_SOCKET_NUMPACKETS)} {buf : List Byte} {r : Attempt}
    (ho : s.Owned) (ht : Tidy clean u s) (hclean : clean → (s.allData u).sends)
    (hslots : slots = (List.finRange UIP_SOCKET_NUMPACKETS).drop k)
    (hroom : ∀ p : Fin UIP_SOCKET_NUMPACKETS, p.val = k → Room clean u p s)
    (h : fillAll u now slots buf s = some (s', r)) : Serves clean u s s' := by
  induction slots generalizing buf s k with
  | nil =>
    cases h
    exact .refl ho ht
  | cons p rest ih =>
    obtain ⟨hp, hrest⟩ := drop_slots hslots.symm
    rw [fillAll] at h
    obtain ⟨h₁, hsends, hfull⟩ := fill_serves (p := p) ho ht hclean (hroom p hp) buf
    generalize fill s u p buf = filled at h h₁ hsends hfull
    simp only at h
    split at h
    · rename_i hmore
      have hleft : filled.2 ≠ [] := by
        rintro hnil
        rw [hnil] at hmore
        exact absurd hmore (by decide)
      cases rest with
      | nil =>
        cases h
        exact h₁
      | cons q rest =>
        have hq : q.val = p.val + 1 := hp ▸ (drop_slots hrest.symm).1
        obtain ⟨⟨s₂, got⟩, hnew, h⟩ := Option.bind_eq_some_iff.mp h
        obtain ⟨h₂, hgot⟩ := newpacket_serves h₁.owned h₁.tidy (hfull q hq hleft) hnew
        have hclean₂ : clean → (s₂.allData u).sends := fun hc => by
          have hstate : (s₂.allData u).state = (filled.1.allData u).state :=
            congrArg (fun t : Tables => t.state u) (newpacket_tables hnew)
          rw [Userdata.sends, hstate, ← Userdata.sends, hsends]
          exact hclean hc
        split at h
        · rename_i hg
          have hroom₂ : ∀ i : Fin UIP_SOCKET_NUMPACKETS, i.val = k + 1 → Room clean u i s₂ := by
            intro i hi
            obtain rfl : i = q := Fin.ext (by omega)
            exact hgot hg
          exact (h₁.trans h₂).trans (ih h₂.owned h₂.tidy hclean₂ hrest hroom₂ h)
        · cases h
          exact h₁.trans h₂
    · cases h
      exact h₁.trans (ready_serves h₁.owned h₁.tidy now filled.2).toServes

/-- An attempt of `_write`. -/
theorem attempt_serves {now : BitVec 32} {buf : List Byte} {r : Attempt} (ho : s.Owned) (ht : Tidy clean u s)
    (hclean : clean → (s.allData u).sends) (h : attempt s (some u) now buf = some (s', r)) : Serves clean u s s' := by
  simp only [attempt, Option.bind_eq_bind, Option.pure_def] at h
  split at h
  · cases h
    exact .refl ho ht
  · split at h
    · rename_i hnone
      obtain ⟨⟨s₁, got⟩, hnew, h⟩ := Option.bind_eq_some_iff.mp h
      have hfull : Full clean u (currentBlock (s.allData u).packetsOut) s := by
        intro hs'
        obtain ⟨l, hl⟩ := ht.outgoing hs'
        have hlast := hl.currentBlock
        have hlen := (hl.none_iff _).mp hnone
        obtain rfl : l = [] := List.length_eq_zero_iff.mp (by omega)
        exact ⟨[], hl, hlast.symm, fun _ hj => absurd hj (Option.not_mem_none _)⟩
      obtain ⟨h₁, hgot⟩ := newpacket_serves ho ht hfull hnew
      have hclean₁ : clean → (s₁.allData u).sends := fun hc => by
        have hstate : (s₁.allData u).state = (s.allData u).state :=
          congrArg (fun t : Tables => t.state u) (newpacket_tables hnew)
        rw [Userdata.sends, hstate]
        exact hclean hc
      split at h
      · rename_i hg
        refine h₁.trans (fillAll_serves h₁.owned h₁.tidy hclean₁ rfl (fun p hp => ?_) h)
        obtain rfl := Fin.ext hp
        exact hgot hg
      · cases h
        exact h₁
    · rename_i hsome
      refine fillAll_serves ho ht hclean rfl (fun p hp => ?_) h
      obtain rfl := Fin.ext hp
      intro hs'
      obtain ⟨l, hl⟩ := ht.outgoing hs'
      have hlast := hl.currentBlock
      have hlen := mt (hl.none_iff _).mpr hsome
      exact ⟨l, hl, by omega⟩

end UIPEthernet.UIPClient
