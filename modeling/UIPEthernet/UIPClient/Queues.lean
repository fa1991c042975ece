import UIPEthernet.UIPClient.Outcome
import UIPEthernet.UIPEthernetClass.Held
import UIPEthernet.UIPEthernetClass.Slots

/-!
# The blocks of an entry

The callback and the calls of a client allocate, pass on and free the blocks
of one entry only.
-/

namespace UIPEthernet

open Enc28J60Network Lib

namespace Slot

/-- Where the block of a slot of `packets_in` comes from when the first is
eaten. -/
def nextIn (u : Fin UIP_CONNS) : Slot → Slot
  | packetsIn v i => if v = u then packetsIn v (i + 1) else packetsIn v i
  | x => x

/-- The same for `packets_out`. -/
def nextOut (u : Fin UIP_CONNS) : Slot → Slot
  | packetsOut v i => if v = u then packetsOut v (i + 1) else packetsOut v i
  | x => x

end Slot

namespace System

variable {s s' : System} {u : Fin UIP_CONNS} {x : Slot}

theorem own_setData_other (d : Userdata) (hx : ¬x.ofEntry u) : (s.setData u d).own x = s.own x := by
  cases x with
  | packetsIn v i =>
    have hv : v ≠ u := hx
    simp only [own, setData, Function.update_of_ne hv]
  | packetsOut v i =>
    have hv : v ≠ u := hx
    simp only [own, setData, Function.update_of_ne hv]
  | packetNext _ => rfl
  | packetIn _ => rfl
  | packetOut _ => rfl

theorem own_setData_in (d : Userdata) (i : Fin UIP_SOCKET_NUMPACKETS) : (s.setData u d).own (.packetsIn u i) = d.packetsIn i := by
  simp only [own, setData, Function.update_self]

theorem own_setData_out (d : Userdata) (i : Fin UIP_SOCKET_NUMPACKETS) :
    (s.setData u d).own (.packetsOut u i) = if d.sends then d.packetsOut i else NOBLOCK := by
  simp only [own, setData, Function.update_self]

theorem own_out (i : Fin UIP_SOCKET_NUMPACKETS) (hs : (s.allData u).sends) :
    s.own (.packetsOut u i) = (s.allData u).packetsOut i := if_pos hs

/-- Blocks of an entry are freed, and others passed on. -/
theorem Owned.entry (ho : s.Owned) {net : Enc28J60Network} {d : Userdata} (gone : Slot → Prop) (source : Slot → Slot)
    (hsent : net.sent = s.net.sent) (hsize : ∀ j, (∀ x, gone x → s.own x ≠ j) → (net.blocks j).size = s.sizeAt j)
    (hin : ∀ i, d.packetsIn i ≠ NOBLOCK →
      d.packetsIn i = s.own (source (.packetsIn u i)) ∧ ¬gone (source (.packetsIn u i)))
    (hout : ∀ i, d.sends → d.packetsOut i ≠ NOBLOCK →
      d.packetsOut i = s.own (source (.packetsOut u i)) ∧ ¬gone (source (.packetsOut u i)))
    (hinj : ∀ x y, source x = source y → x = y) (hkind : ∀ x, (source x).isOut = x.isOut) (hgone : ∀ x, gone x → x.ofEntry u)
    (hother : ∀ x, ¬x.ofEntry u → source x = x) : Keeps (Slot.ofEntry u) s ((s.setNet net).setData u d) := by
  have hsame : ∀ x : Slot, ¬x.ofEntry u → ((s.setNet net).setData u d).own x = s.own x := fun x hx => own_setData_other d hx
  refine ⟨ho.freed gone source hsize (fun x hx => ?_) hinj hkind fun x hx => ⟨hsame x hx, fun hg => hx (hgone x hg)⟩, hsent⟩
  by_cases hmine : x.ofEntry u
  · cases x with
    | packetsIn v i =>
      obtain rfl : v = u := hmine
      rw [own_setData_in] at hx ⊢
      exact hin i hx
    | packetsOut v i =>
      obtain rfl : v = u := hmine
      rw [own_setData_out] at hx ⊢
      split at hx
      · rename_i hs
        rw [if_pos hs]
        exact hout i hs hx
      · exact absurd rfl hx
    | _ => exact hmine.elim
  · rw [hother x hmine]
    exact ⟨hsame x hmine, fun hg => hmine (hgone x hg)⟩

/-- An entry gives up some of its slots. -/
theorem Owned.entry_dropped (ho : s.Owned) {d : Userdata}
    (hin : ∀ i, d.packetsIn i ≠ NOBLOCK → d.packetsIn i = (s.allData u).packetsIn i)
    (hout : ∀ i, d.sends → d.packetsOut i ≠ NOBLOCK → d.packetsOut i = s.own (.packetsOut u i)) :
    Keeps (Slot.ofEntry u) s (s.setData u d) := by
  have h : Keeps (Slot.ofEntry u) s ((s.setNet s.net).setData u d) :=
    ho.entry (fun _ => False) id rfl (fun _ _ => rfl) (fun i hi => ⟨hin i hi, id⟩) (fun i hs hi => ⟨hout i hs hi, id⟩)
      (fun _ _ h => h) (fun _ => rfl) (fun _ h => h.elim) fun _ _ => rfl
  exact h

/-- A slot of `packets_in` gets a new block. -/
theorem Owned.entry_in {net : Enc28J60Network} {h : Handle} {n : Nat} {i : Fin UIP_SOCKET_NUMPACKETS} {t : System} (ho : s.Owned)
    (halloc : s.net.allocBlock n = some (net, h)) (hn : n ≠ 0) (hblocks : t.net.blocks = net.blocks)
    (hsent : t.net.sent = net.sent) (hown : t.own = (s.setPacketsIn u (Function.update (s.allData u).packetsIn i h)).own) : Keeps (Slot.ofEntry u) s t := by
  refine ho.allocated (x := .packetsIn u i) halloc hn rfl hblocks hsent ?_ fun y hy => ?_
  · rw [hown, setPacketsIn, own_setData_in]
    exact Function.update_self ..
  · rw [hown, setPacketsIn]
    by_cases hmine : y.ofEntry u
    · cases y with
      | packetsIn v j =>
        obtain rfl : v = u := hmine
        rw [own_setData_in]
        have hj : j ≠ i := by
          rintro rfl
          exact hy rfl
        exact Function.update_of_ne hj ..
      | packetsOut v j =>
        obtain rfl : v = u := hmine
        exact own_setData_out ..
      | _ => exact hmine.elim
    · exact own_setData_other _ hmine

/-- A slot of `packets_out` gets a new block, unless the entry is not in use. -/
theorem Owned.entry_out {net : Enc28J60Network} {h : Handle} {n : Nat} {i : Fin UIP_SOCKET_NUMPACKETS} {t : System} (ho : s.Owned)
    (halloc : s.net.allocBlock n = some (net, h)) (hn : n ≠ 0) (hblocks : t.net.blocks = net.blocks)
    (hsent : t.net.sent = net.sent) (hown : t.own = (s.setPacketsOut u (Function.update (s.allData u).packetsOut i h)).own) : Keeps (Slot.ofEntry u) s t := by
  have hothers : ∀ y, y ≠ .packetsOut u i → t.own y = s.own y := by
    intro y hy
    rw [hown, setPacketsOut]
    by_cases hmine : y.ofEntry u
    · cases y with
      | packetsIn v j =>
        obtain rfl : v = u := hmine
        exact own_setData_in ..
      | packetsOut v j =>
        obtain rfl : v = u := hmine
        rw [own_setData_out]
        have hj : j ≠ i := by
          rintro rfl
          exact hy rfl
        exact congrArg (if (s.allData v).sends then · else NOBLOCK) (Function.update_of_ne hj ..)
      | _ => exact hmine.elim
    · exact own_setData_other _ hmine
  have hself : t.own (.packetsOut u i) = if (s.allData u).sends then h else NOBLOCK := by
    rw [hown, setPacketsOut, own_setData_out]
    exact congrArg (if (s.allData u).sends then · else NOBLOCK) (Function.update_self ..)
  by_cases hs : (s.allData u).sends
  · exact ho.allocated (x := .packetsOut u i) halloc hn rfl hblocks hsent (hself.trans (if_pos hs)) hothers
  · refine (ho.borrowed halloc hblocks hsent (funext fun y => ?_)).1
    by_cases hy : y = .packetsOut u i
    · rw [hy, hself, if_neg hs]
      exact (if_neg hs).symm
    · exact hothers y hy

end System

namespace UIPClient

open UIPEthernet.System Slot

variable {s s' s₁ s₂ : System} {c u : Fin UIP_CONNS}

theorem shift_next {block : Packets} {i : Fin UIP_SOCKET_NUMPACKETS} (h : shift block i ≠ NOBLOCK) :
    shift block i = block (i + 1) ∧ i + 1 ≠ 0 := by
  unfold shift at h ⊢
  split
  · rename_i hi
    have hnext : i + 1 = ⟨i.val + 1, hi⟩ := Fin.ext (by rw [Fin.val_add]; exact Nat.mod_eq_of_lt hi)
    rw [hnext]
    exact ⟨rfl, fun h => Nat.succ_ne_zero _ (Fin.mk.inj h)⟩
  · rename_i hi
    exact absurd (dif_neg hi) h

theorem next_inj : ∀ i j : Fin UIP_SOCKET_NUMPACKETS, i + 1 = j + 1 → i = j := by decide

theorem nextIn_inj {x y : Slot} (h : x.nextIn u = y.nextIn u) : x = y := by
  cases x <;> cases y <;> grind [nextIn, next_inj]

theorem nextOut_inj {x y : Slot} (h : x.nextOut u = y.nextOut u) : x = y := by
  cases x <;> cases y <;> grind [nextOut, next_inj]

theorem nextIn_other {x : Slot} (hx : ¬x.ofEntry u) : x.nextIn u = x := by
  cases x with
  | packetsIn v i => exact if_neg hx
  | _ => rfl

theorem nextOut_other {x : Slot} (hx : ¬x.ofEntry u) : x.nextOut u = x := by
  cases x with
  | packetsOut v i => exact if_neg hx
  | _ => rfl

theorem nextIn_isOut (x : Slot) : (x.nextIn u).isOut = x.isOut := by
  cases x with
  | packetsIn v i =>
    rw [nextIn]
    split <;> rfl
  | _ => rfl

theorem nextOut_isOut (x : Slot) : (x.nextOut u).isOut = x.isOut := by
  cases x with
  | packetsOut v i =>
    rw [nextOut]
    split <;> rfl
  | _ => rfl

theorem eatIn_keeps (ho : s.Owned) (h : eatIn s u = some s') : Keeps (ofEntry u) s s' := by
  simp only [eatIn, eatBlock, Option.bind_eq_bind, Option.bind_eq_some_iff, Prod.exists] at h
  obtain ⟨net, block, ⟨net', hfree, heq⟩, h⟩ := h
  cases heq
  cases h
  refine ho.entry (fun x => x = .packetsIn u 0) (nextIn u) (freeBlock_sent hfree) (fun j hj => ?_) (fun i hi => ?_) (fun i hs _ => ?_)
    (fun x y => nextIn_inj) nextIn_isOut ?_ fun x => nextIn_other
  · exact freeBlock_size hfree fun he => hj _ rfl he.symm
  · obtain ⟨hnext, hne⟩ := shift_next hi
    rw [nextIn, if_pos rfl]
    exact ⟨hnext, fun h => hne (packetsIn.inj h).2⟩
  · refine ⟨(own_out i hs).symm, ?_⟩
    rintro ⟨⟩
  · rintro x rfl
    exact rfl

theorem eatOut_keeps (ho : s.Owned) (hs : (s.allData u).sends) (h : eatOut s u = some s') : Keeps (ofEntry u) s s' := by
  simp only [eatOut, eatBlock, Option.bind_eq_bind, Option.bind_eq_some_iff, Prod.exists] at h
  obtain ⟨net, block, ⟨net', hfree, heq⟩, h⟩ := h
  cases heq
  cases h
  refine ho.entry (fun x => x = .packetsOut u 0) (nextOut u) (freeBlock_sent hfree) (fun j hj => ?_) (fun i _ => ⟨rfl, ?_⟩) (fun i _ hi => ?_)
    (fun x y => nextOut_inj) nextOut_isOut ?_ fun x => nextOut_other
  · exact freeBlock_size hfree fun he => hj _ rfl ((own_out 0 hs).trans he.symm)
  · rintro ⟨⟩
  · obtain ⟨hnext, hne⟩ := shift_next hi
    rw [nextOut, if_pos rfl, own_out _ hs]
    exact ⟨hnext, fun h => hne (packetsOut.inj h).2⟩
  · rintro x rfl
    exact rfl

theorem flushBlocks_none {net net' : Enc28J60Network} {block block' : Packets}
    (h : flushBlocks net block = some (net', block')) : block' = fun _ => NOBLOCK := by
  simp only [flushBlocks, Option.bind_eq_bind, Option.bind_eq_some_iff] at h
  obtain ⟨net₁, -, h⟩ := h
  cases h
  rfl

theorem flushBlocks_size {net net' : Enc28J60Network} {block block' : Packets} {j : Handle}
    (h : flushBlocks net block = some (net', block')) (hj : ∀ i, block i ≠ j) :
    (net'.blocks j).size = (net.blocks j).size := by
  simp only [flushBlocks, Option.bind_eq_bind, Option.bind_eq_some_iff] at h
  obtain ⟨net₁, hfold, h⟩ := h
  cases h
  revert hfold
  generalize List.finRange UIP_SOCKET_NUMPACKETS = slots
  intro hfold
  induction slots generalizing net with
  | nil =>
    cases hfold
    rfl
  | cons i rest ih =>
    obtain ⟨net₂, hfree, hrest⟩ := Option.bind_eq_some_iff.mp hfold
    rw [ih hrest, freeBlock_size hfree (hj i).symm]

theorem flushBlocks_sent {net net' : Enc28J60Network} {block block' : Packets}
    (h : flushBlocks net block = some (net', block')) : net'.sent = net.sent := by
  simp only [flushBlocks, Option.bind_eq_bind, Option.bind_eq_some_iff] at h
  obtain ⟨net₁, hfold, h⟩ := h
  cases h
  revert hfold
  generalize List.finRange UIP_SOCKET_NUMPACKETS = slots
  intro hfold
  induction slots generalizing net with
  | nil =>
    cases hfold
    rfl
  | cons i rest ih =>
    obtain ⟨net₂, hfree, hrest⟩ := Option.bind_eq_some_iff.mp hfold
    exact (ih hrest).trans (freeBlock_sent hfree)

theorem flushIn_keeps (ho : s.Owned) (h : flushIn s u = some s') : Keeps (ofEntry u) s s' := by
  simp only [flushIn, Option.bind_eq_bind, Option.bind_eq_some_iff, Prod.exists] at h
  obtain ⟨net, block, hflush, h⟩ := h
  cases h
  obtain rfl := flushBlocks_none hflush
  refine ho.entry (fun x => ∃ i, x = .packetsIn u i) id (flushBlocks_sent hflush) (fun j hj => flushBlocks_size hflush fun i => hj _ ⟨i, rfl⟩)
    (fun i hi => absurd rfl hi) (fun i hs _ => ⟨(own_out i hs).symm, ?_⟩) (fun x y h => h) (fun _ => rfl) ?_ fun x _ => rfl
  · rintro ⟨j, ⟨⟩⟩
  · rintro x ⟨i, rfl⟩
    exact rfl

theorem flushOut_keeps (ho : s.Owned) (hs : (s.allData u).sends) (h : flushOut s u = some s') : Keeps (ofEntry u) s s' := by
  simp only [flushOut, Option.bind_eq_bind, Option.bind_eq_some_iff, Prod.exists] at h
  obtain ⟨net, block, hflush, h⟩ := h
  cases h
  obtain rfl := flushBlocks_none hflush
  refine ho.entry (fun x => ∃ i, x = .packetsOut u i) id (flushBlocks_sent hflush)
    (fun j hj => flushBlocks_size hflush fun i => (own_out i hs) ▸ hj _ ⟨i, rfl⟩) (fun i _ => ⟨rfl, ?_⟩)
    (fun i _ hi => absurd rfl hi) (fun x y h => h) (fun _ => rfl) ?_ fun x _ => rfl
  · rintro ⟨j, ⟨⟩⟩
  · rintro x ⟨i, rfl⟩
    exact rfl

-- ---------------------------------------------------------------------------
-- The callback
-- ---------------------------------------------------------------------------

theorem attach_keeps (ho : s.Owned) : Keeps ofTcp s (attach s c) := by
  rw [attach]
  split
  · split
    · exact .refl ho
    · rename_i s₁ v halloc
      simp only [allocateData] at halloc
      split at halloc
      · cases halloc
      · cases halloc
        have hdrop := ho.entry_dropped (u := v) (d := ⟨BitVec.ofNat 8 v ||| UIP_CLIENT_CONNECTED, fun _ => NOBLOCK,
          fun _ => NOBLOCK, 0, 0⟩) (fun _ hi => absurd rfl hi) fun _ _ hi => absurd rfl hi
        exact (hdrop.mono fun _ => ofEntry.tcp).trans ⟨hdrop.owned.same (fun _ => rfl) fun _ _ => rfl, rfl⟩
  · exact .refl ho

theorem storeData_keeps {slots : List (Fin UIP_SOCKET_NUMPACKETS)} {stored : Bool} (ho : s.Owned) (hlen : s.uip.uipLen ≠ 0)
    (h : storeData c u slots s = some (s', stored)) : Keeps (ofEntry u) s s' := by
  induction slots generalizing s with
  | nil =>
    cases h
    exact .refl ho
  | cons i rest ih =>
    rw [storeData] at h
    split at h
    · obtain ⟨⟨net, b⟩, halloc, h⟩ := Option.bind_eq_some_iff.mp h
      have hput : ∀ t : System, t.net.blocks = net.blocks → t.net.sent = net.sent → t.sockets = s.sockets → t.allData =
          (s.setPacketsIn u (Function.update (s.allData u).packetsIn i b)).allData → Keeps (ofEntry u) s t :=
        fun t hblocks hsent hsockets hdata => ho.entry_in halloc hlen hblocks hsent (own_congr hdata hsockets)
      simp only at h
      split at h
      · have h₁ := hput ((s.setNet net).setPacketsIn u (Function.update (s.allData u).packetsIn i b)) rfl rfl rfl rfl
        exact h₁.trans (ih h₁.owned hlen h)
      · obtain ⟨net', hcopy, h⟩ := Option.bind_eq_some_iff.mp h
        cases h
        have hblocks := copyPacket_blocks hcopy
        have hsent := copyPacket_sent hcopy
        split
        · exact hput _ hblocks hsent rfl rfl
        · exact hput _ hblocks hsent rfl rfl
    · exact ih ho hlen h

theorem newdata_keeps (ho : s.Owned) (h : newdata s c u = some s') : Keeps (ofEntry u) s s' := by
  rw [newdata] at h
  split at h
  · rename_i hnew
    simp only [Option.bind_eq_bind, Option.bind_eq_some_iff, Prod.exists] at h
    obtain ⟨s₁, stored, hstore, h⟩ := h
    have h₁ := storeData_keeps ho hnew.2.1 hstore
    split at h
    · cases h
      exact h₁
    · cases h
      exact h₁.trans (h₁.owned.aside rfl rfl rfl rfl)
  · cases h
    exact .refl ho

theorem sends_restart : ∀ state : BitVec 8, state &&& ~~~UIP_CLIENT_RESTART ≠ 0 ∧
    ¬has (state &&& ~~~UIP_CLIENT_RESTART) UIP_CLIENT_REMOTECLOSED → state ≠ 0 ∧ ¬has state UIP_CLIENT_REMOTECLOSED := by
  decide

theorem sends_iff {d : Userdata} : d.sends ↔ d.state ≠ 0 ∧ ¬has d.state UIP_CLIENT_REMOTECLOSED := by
  simp [Userdata.sends]

/-- A change of the state that puts nothing to use. -/
theorem setState_keeps {state : BitVec 8} (ho : s.Owned)
    (hs : state ≠ 0 ∧ ¬has state UIP_CLIENT_REMOTECLOSED → (s.allData u).sends) : Keeps (ofEntry u) s (s.setState u state) :=
  ho.entry_dropped (fun _ _ => rfl) fun i hd _ => (own_out i (hs (sends_iff.mp hd))).symm

theorem restart_keeps (ho : s.Owned) : Keeps (ofEntry u) s (restart s c u) := by
  rw [restart]
  split
  · have h₁ := setState_keeps (u := u) ho fun h => sends_iff.mpr (sends_restart (s.allData u).state h)
    exact h₁.trans (h₁.owned.aside rfl rfl rfl rfl)
  · exact .refl ho

theorem closed_keeps (ho : s.Owned) (hs : (s.allData u).sends) (h : closed s c u = some s') : Keeps (ofEntry u) s s' := by
  simp only [closed, Option.bind_eq_bind, Option.bind_eq_some_iff, Option.pure_def, Option.some.injEq] at h
  obtain ⟨s₁, hflush, rfl⟩ := h
  have h₁ := flushOut_keeps ho hs hflush
  refine h₁.trans ?_
  split
  · let d := { s₁.allData u with
      packetsOut := ((s₁.allData u).setLport (s₁.uipConns c).lport).packetsOut
      state := (s₁.allData u).state ||| UIP_CLIENT_REMOTECLOSED }
    have hremote : ∀ x : BitVec 8, has (x ||| UIP_CLIENT_REMOTECLOSED) UIP_CLIENT_REMOTECLOSED := by decide
    have h₂ : Keeps (ofEntry u) s₁ (s₁.setData u d) :=
      h₁.owned.entry_dropped (fun _ _ => rfl) fun _ hd _ => absurd (hremote _) (sends_iff.mp hd).2
    refine h₂.trans (h₂.owned.aside ?_ rfl rfl rfl)
    simp only [setAppstate, mapConn, setState, setPacketsOut, setData, Function.update_self, Function.update_idem, d]
  · have h₂ : Keeps (ofEntry u) s₁ (s₁.setState u 0) := setState_keeps h₁.owned fun h => absurd rfl h.1
    exact h₂.trans (h₂.owned.aside rfl rfl rfl rfl)

theorem acked_keeps (ho : s.Owned) (hs : (s.allData u).sends) (h : acked s u = some s') : Keeps (ofEntry u) s s' := by
  rw [acked] at h
  split at h
  · exact eatOut_keeps ho hs h
  · cases h
    exact .refl ho

theorem finish_keeps {mine : Slot → Prop} (ho : s.Owned) (sendLen : Nat) : Keeps mine s (finish s sendLen) := by
  simp only [finish]
  split <;> exact ho.aside rfl rfl rfl rfl

section
variable (s : System) (sendLen : Nat)

theorem finish_net : (finish s sendLen).net = s.net := by
  simp only [finish]
  split <;> rfl

theorem finish_routes : (finish s sendLen).uip.routes = s.uip.routes := by
  simp only [finish]
  split <;> rfl

theorem finish_packetstate : (finish s sendLen).packetstate = s.packetstate := by
  simp only [finish]
  split <;> rfl

theorem finish_uipPacket : (finish s sendLen).uipPacket = s.uipPacket := by
  simp only [finish]
  split <;> rfl

theorem finish_own : (finish s sendLen).own = s.own := by
  simp only [finish]
  split <;> exact own_congr rfl rfl

end

theorem closing_keeps (ho : s.Owned) : Keeps (ofEntry u) s (closing s c u) := by
  rw [closing]
  split
  · split
    · have h₁ : Keeps (ofEntry u) s (s.setState u 0) := setState_keeps ho fun h => absurd rfl h.1
      exact h₁.trans (h₁.owned.aside rfl rfl rfl rfl)
    · exact ho.aside rfl rfl rfl rfl
  · exact .refl ho

theorem cutHead_keeps (ho : s.Owned) (hs : (s.allData u).sends) (hpos : sendLength s u ≠ 0) :
    Keeps (ofEntry u) s (cutHead s u) := by
  simp only [cutHead]
  split
  · rename_i hone
    have hlen : sendLength s u = (s.allData u).outPos := if_pos hone
    refine ⟨ho.resized (x := .packetsOut u 0) rfl rfl (fun _ => ?_) fun j hj => ?_, rfl⟩
    · rw [own_out 0 hs]
      refine ⟨(resizeBlockTo_self 0).trans_ne (hlen ▸ hpos), ?_⟩
      rintro ⟨⟩
    · rw [own_out 0 hs] at hj
      exact resizeBlockTo_other 0 hj
  · exact .refl ho

/-- What the callback has put into a block of its own for a segment. -/
structure Offered (s : System) (u : Fin UIP_CONNS) (s' : System) : Prop where
  copies : Copies s u
  send : has s'.packetstate UIPETHERNET_SENDPACKET
  own : ∀ x, s'.own x ≠ NOBLOCK → s'.own x ≠ s'.uipPacket
  size : s'.sizeAt s'.uipPacket = segmentSize (sendLength s u)
  slen : s'.uip.uipSlen = sendLength s u
  flags : s'.uip.uipFlags = s.uip.uipFlags
  routes : s'.uip.routes = s.uip.routes

theorem cutHead_packetstate : (cutHead s u).packetstate = s.packetstate := by
  obtain ⟨net, hcut, -⟩ := cutHead_net s u
  rw [hcut]
  rfl

/-- A segment is offered in a block, or none is prepared. -/
theorem offer_keeps {sendLen : Nat} (ho : s.Owned) (hs : (s.allData u).sends) (happ : AtPayload s)
    (hhead : (s.allData u).packetsOut 0 ≠ NOBLOCK) (h : offer s c u = some (s', sendLen)) :
    Keeps (ofEntry u) s s' ∧ (s'.packetstate = s.packetstate ∨ Offered s u (finish s' sendLen)) := by
  have huip := offer_uip h
  simp only [offer, Option.bind_eq_bind, Option.pure_def] at h
  split at h
  · cases h
    exact ⟨.refl ho, .inl rfl⟩
  · rename_i hbytes
    obtain ⟨s₂, hprep, h⟩ := Option.bind_eq_some_iff.mp h
    obtain ⟨rfl, rfl⟩ := Prod.mk.inj (Option.some.inj h)
    have h₁ := cutHead_keeps ho hs hbytes
    have hstate : (cutHead s u).packetstate = s.packetstate := cutHead_packetstate
    have hhdr : (cutHead s u).uip.uipAppdata % 256 = UIP_IPTCPH_LEN + UIP_LLH_LEN := by
      obtain ⟨net, hcut, -⟩ := cutHead_net s u
      rw [hcut]
      exact congrArg (· % 256) happ
    simp only [prepare, Option.bind_eq_bind, Option.pure_def, hhdr] at hprep
    obtain ⟨⟨net, b⟩, halloc, hprep⟩ := Option.bind_eq_some_iff.mp hprep
    have hborrow : ∀ t : System, t.net.blocks = net.blocks → t.net.sent = net.sent → t.allData = (cutHead s u).allData →
        t.sockets = (cutHead s u).sockets → Keeps (ofEntry u) (cutHead s u) t ∧ ∀ x, t.own x ≠ NOBLOCK → t.own x ≠ b := by
      intro t hblocks hsent hdata hsockets
      have hown := own_congr hdata hsockets
      rw [hown]
      exact h₁.owned.borrowed halloc hblocks hsent hown
    simp only at hprep
    split at hprep
    · cases hprep
      have h₂ := hborrow ((((cutHead s u).setNet net).setUipPacket b).setHdrlen (UIP_IPTCPH_LEN + UIP_LLH_LEN)) rfl rfl rfl rfl
      exact ⟨h₁.trans h₂.1, .inl hstate⟩
    · rename_i hb
      obtain ⟨net', hcopy, hprep⟩ := Option.bind_eq_some_iff.mp hprep
      cases hprep
      have hblocks := copyPacket_blocks hcopy
      obtain ⟨hkeeps, hfree⟩ := hborrow ((((((cutHead s u).setNet net).setUipPacket b).setHdrlen
        (UIP_IPTCPH_LEN + UIP_LLH_LEN)).setNet net').setPacketstate ((cutHead s u).packetstate ||| UIPETHERNET_SENDPACKET))
        hblocks (copyPacket_sent hcopy) rfl rfl
      refine ⟨h₁.trans (hkeeps.trans (hkeeps.owned.aside rfl rfl rfl rfl)), .inr ?_⟩
      refine ⟨⟨hhead, hbytes, net, b, halloc, hb⟩, ?_, ?_, ?_, finish_slen _, by rw [finish_flags, huip],
        by rw [finish_routes, huip]⟩
      · rw [finish_packetstate]
        exact has_set _
      · rw [finish_own, finish_uipPacket]
        exact hfree
      · rw [finish_uipPacket]
        refine (congrArg (fun e : Enc28J60Network => (e.blocks b).size) (finish_net ..)).trans ?_
        exact (congrArg (fun m => (m b).size) hblocks).trans (allocBlock_new halloc hb)

theorem closing_packetstate : (closing s c u).packetstate = s.packetstate := by
  rw [closing]
  split
  · split <;> rfl
  · rfl

theorem polled_keeps (ho : s.Owned) (hs : (s.allData u).sends) (happ : AtPayload s) (h : polled s c u = some s') :
    Keeps (ofEntry u) s s' ∧ (s'.packetstate = s.packetstate ∨ Offered s u s') := by
  simp only [polled, Option.bind_eq_bind, Option.pure_def] at h
  split at h
  · rename_i hhead
    obtain ⟨⟨s₁, sendLen⟩, hoffer, h⟩ := Option.bind_eq_some_iff.mp h
    cases h
    obtain ⟨hkeeps, hout⟩ := offer_keeps ho hs happ hhead.2 hoffer
    refine ⟨hkeeps.trans (finish_keeps hkeeps.owned _), hout.imp_left fun hstate => ?_⟩
    exact (finish_packetstate ..).trans hstate
  · cases h
    have h₁ : Keeps (ofEntry u) s (closing s c u) := closing_keeps ho
    refine ⟨h₁.trans (finish_keeps h₁.owned 0), .inl ?_⟩
    rw [finish_packetstate, closing_packetstate]

/-- A callback that is not asked for bytes prepares no segment. -/
theorem polled_unasked (ho : s.Owned) (hflags : ¬has s.uip.uipFlags (UIP_POLL ||| UIP_REXMIT)) (h : polled s c u = some s') :
    Keeps (ofEntry u) s s' ∧ s'.packetstate = s.packetstate := by
  rw [polled, if_neg (fun h => hflags h.1)] at h
  cases h
  have h₁ : Keeps (ofEntry u) s (closing s c u) := closing_keeps ho
  exact ⟨h₁.trans (finish_keeps h₁.owned 0), by rw [finish_packetstate, closing_packetstate]⟩

theorem Serving.sends (h : Serving s c u) : (s.allData u).sends :=
  sends_iff.mpr ⟨h.paired.ne_zero h.entry, (h.paired.attached c u h.entry).2⟩

end UIPClient

end UIPEthernet
