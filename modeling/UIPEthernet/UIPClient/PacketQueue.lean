import UIPEthernet.UIPClient.ByteQueue
import UIPEthernet.UIPClient.Ownership

/-!
# The packet queues of an entry

Blocks lie in front of `packets_in` and `packets_out`, `out_pos` is inside the
last outgoing block, and the ones before it hold nothing but what has been
written. That they do is up to the copies of received segments: `clean` says
that none of them has written behind its block.
-/

namespace UIPEthernet

open Enc28J60Network MemoryPool

/-- The bytes that `_write` has put into blocks with the handle, in order. -/
def writtenTo (u : Fin UIP_CONNS) (h : Handle) : List Event → List Byte
  | [] => []
  | .written v j data :: es => if v = u ∧ j = h then writtenTo u h es ++ data else writtenTo u h es
  | _ :: es => writtenTo u h es

namespace System

variable {s : System} {x : Slot}

/-- A handle that is held is that of a block. -/
theorem Owned.block (ho : s.Owned) (hx : s.own x ≠ NOBLOCK) : Live s.net.blocks (s.own x) :=
  ⟨Nat.pos_of_ne_zero hx, (ho.good hx).2.1, Nat.pos_of_ne_zero (ho.good hx).1⟩

section
variable (s : System) (u : Fin UIP_CONNS)

theorem setPacketsIn_self (packets : Packets) :
    (s.setPacketsIn u packets).allData u = { s.allData u with packetsIn := packets } := Function.update_self ..

theorem setPacketsOut_self (packets : Packets) :
    (s.setPacketsOut u packets).allData u = { s.allData u with packetsOut := packets } := Function.update_self ..

theorem setState_self (state : BitVec 8) : (s.setState u state).allData u = { s.allData u with state } :=
  Function.update_self ..

theorem setOutPos_self (outPos : Nat) : (s.setOutPos u outPos).allData u = { s.allData u with outPos } :=
  Function.update_self ..

end

end System

namespace UIPClient

open UIPEthernet.System Slot

/-- The blocks of `packets_out` with what has been written. -/
structure Outgoing (clean : Prop) (s : System) (u : Fin UIP_CONNS) (hs : List Handle) : Prop
    extends Lists (s.allData u).packetsOut hs where
  pos : ∀ h ∈ hs.getLast?, (s.allData u).outPos ≤ s.sizeAt h
  full : clean → ∀ h ∈ hs.dropLast, ∃ b, s.net.view h = some b ∧ b <:+ writtenTo u h s.history
  last : clean → ∀ h ∈ hs.getLast?, ∃ b, s.net.view h = some b ∧ b.take (s.allData u).outPos <:+ writtenTo u h s.history

/-- The two queues of an entry; `packets_out` of an entry that is not in use, or
closed, is no queue. -/
structure Tidy (clean : Prop) (u : Fin UIP_CONNS) (s : System) : Prop where
  valid : s.net.Valid
  incoming : ∃ hs, Lists (s.allData u).packetsIn hs
  outgoing : (s.allData u).sends → ∃ hs, Outgoing clean s u hs

/-- What a function does that works on the queues of one entry. -/
structure Serves (clean : Prop) (u : Fin UIP_CONNS) (s s' : System) : Prop extends Keeps (ofEntry u) s s' where
  tidy : Tidy clean u s'
  entries : ∀ v ≠ u, s'.allData v = s.allData v
  views : clean → ∀ x : Slot, ¬x.ofEntry u → s.own x ≠ NOBLOCK → s'.net.view (s.own x) = s.net.view (s.own x)
  written : ∀ v ≠ u, ∀ h, writtenTo v h s'.history = writtenTo v h s.history

/-- What a function leaves of `packets_out`, as long as the entry sends. -/
structure Leaves (clean : Prop) (u : Fin UIP_CONNS) (s s' : System) : Prop where
  out : (s'.allData u).sends → (s.allData u).sends ∧ (s'.allData u).packetsOut = (s.allData u).packetsOut ∧
    (s'.allData u).outPos = (s.allData u).outPos
  blocks : (s'.allData u).sends → ∀ i, s.own (.packetsOut u i) ≠ NOBLOCK →
    s'.sizeAt (s.own (.packetsOut u i)) = s.sizeAt (s.own (.packetsOut u i)) ∧
      (clean → s'.net.view (s.own (.packetsOut u i)) = s.net.view (s.own (.packetsOut u i)))

/-- What a function does that is not about `packets_out` of the entry. -/
structure ServesIn (clean : Prop) (u : Fin UIP_CONNS) (s s' : System) : Prop extends Serves clean u s s', Leaves clean u s s'

variable {clean : Prop} {s s' s₁ s₂ : System} {c u v : Fin UIP_CONNS} {hs : List Handle} {h : Handle} {net : Enc28J60Network}
  {packets : Packets} {a n : Nat}

theorem Serves.refl (ho : s.Owned) (ht : Tidy clean u s) : Serves clean u s s :=
  ⟨.refl ho, ht, fun _ _ => rfl, fun _ _ _ _ => rfl, fun _ _ _ => rfl⟩

theorem Serves.trans (h : Serves clean u s s₁) (h' : Serves clean u s₁ s₂) : Serves clean u s s₂ := by
  refine ⟨h.toKeeps.trans h'.toKeeps, h'.tidy, fun v hv => (h'.entries v hv).trans (h.entries v hv), fun hc x hx hne => ?_,
    fun v hv j => (h'.written v hv j).trans (h.written v hv j)⟩
  have hsecond := h'.views hc x hx
  rw [h.own x hx] at hsecond
  exact (hsecond hne).trans (h.views hc x hx hne)

theorem Leaves.refl (clean : Prop) (u : Fin UIP_CONNS) (s : System) : Leaves clean u s s :=
  ⟨fun hs => ⟨hs, rfl, rfl⟩, fun _ _ _ => ⟨rfl, fun _ => rfl⟩⟩

theorem Leaves.trans (h : Leaves clean u s s₁) (h' : Leaves clean u s₁ s₂) : Leaves clean u s s₂ := by
  refine ⟨fun hs₂ => ?_, fun hs₂ i hne => ?_⟩
  · obtain ⟨hs₁, hout', hpos'⟩ := h'.out hs₂
    obtain ⟨hs, hout, hpos⟩ := h.out hs₁
    exact ⟨hs, hout'.trans hout, hpos'.trans hpos⟩
  · obtain ⟨hs₁, -, -⟩ := h'.out hs₂
    obtain ⟨hs, hout, -⟩ := h.out hs₁
    have hown : s₁.own (.packetsOut u i) = s.own (.packetsOut u i) := by
      rw [own_out i hs₁, own_out i hs, hout]
    obtain ⟨hsize, hview⟩ := h.blocks hs₁ i hne
    rw [← hown] at hne
    obtain ⟨hsize', hview'⟩ := h'.blocks hs₂ i hne
    rw [hown] at hsize' hview'
    exact ⟨hsize'.trans hsize, fun hc => (hview' hc).trans (hview hc)⟩

theorem ServesIn.refl (ho : s.Owned) (ht : Tidy clean u s) : ServesIn clean u s s := ⟨.refl ho ht, .refl clean u s⟩

theorem ServesIn.trans (h : ServesIn clean u s s₁) (h' : ServesIn clean u s₁ s₂) : ServesIn clean u s s₂ :=
  ⟨h.toServes.trans h'.toServes, h.toLeaves.trans h'.toLeaves⟩

-- ---------------------------------------------------------------------------
-- What leaves the outgoing blocks alone
-- ---------------------------------------------------------------------------

theorem Outgoing.mem_own (ho : Outgoing clean s u hs) (hs' : (s.allData u).sends) (hh : h ∈ hs) :
    ∃ i, s.own (.packetsOut u i) = h ∧ h ≠ NOBLOCK := by
  obtain ⟨i, hi, rfl⟩ := List.getElem_of_mem hh
  have hlen := ho.length
  refine ⟨⟨i, by omega⟩, ?_, ho.used _ hh⟩
  rw [own_out _ hs', ho.get]
  rw [List.getD_eq_getElem?_getD, List.getElem?_eq_getElem hi, Option.getD_some]

theorem Outgoing.congr (ho : Outgoing clean s u hs) (hout : (s'.allData u).packetsOut = (s.allData u).packetsOut)
    (hpos : (s'.allData u).outPos = (s.allData u).outPos)
    (hsame : ∀ h ∈ hs, s'.sizeAt h = s.sizeAt h ∧ (clean → s'.net.view h = s.net.view h))
    (hwritten : ∀ h, writtenTo u h s'.history = writtenTo u h s.history) : Outgoing clean s' u hs := by
  refine ⟨hout ▸ ho.toLists, fun h hh => ?_, fun hc h hh => ?_, fun hc h hh => ?_⟩
  · rw [hpos, (hsame h (List.mem_of_getLast? hh)).1]
    exact ho.pos h hh
  · rw [(hsame h ((List.dropLast_sublist hs).subset hh)).2 hc, hwritten]
    exact ho.full hc h hh
  · rw [(hsame h (List.mem_of_getLast? hh)).2 hc, hwritten, hpos]
    exact ho.last hc h hh

/-- A function that is not about `packets_out` of the entry. -/
theorem ServesIn.aside (ht : Tidy clean u s) (hkeeps : Keeps (ofEntry u) s s')
    (hentries : ∀ v ≠ u, s'.allData v = s.allData v) (hvalid : s'.net.Valid) (hin : ∃ hs, Lists (s'.allData u).packetsIn hs)
    (hsends : (s'.allData u).sends → (s.allData u).sends ∧ (s'.allData u).packetsOut = (s.allData u).packetsOut ∧
      (s'.allData u).outPos = (s.allData u).outPos)
    (hsame : ∀ x : Slot, (∀ i, x ≠ .packetsIn u i) → s.own x ≠ NOBLOCK →
      s'.sizeAt (s.own x) = s.sizeAt (s.own x) ∧ (clean → s'.net.view (s.own x) = s.net.view (s.own x)))
    (hwritten : ∀ v h, writtenTo v h s'.history = writtenTo v h s.history) : ServesIn clean u s s' := by
  refine ⟨⟨hkeeps, ⟨hvalid, hin, fun hs' => ?_⟩, hentries, fun hc x hx hne => ?_, fun v _ => hwritten v⟩,
    hsends, fun _ i hne => hsame _ (by rintro _ ⟨⟩) hne⟩
  · obtain ⟨hs, hout, hpos⟩ := hsends hs'
    obtain ⟨l, hl⟩ := ht.outgoing hs
    refine ⟨l, hl.congr hout hpos (fun h hh => ?_) (hwritten u)⟩
    obtain ⟨i, rfl, hne⟩ := hl.mem_own hs hh
    exact hsame _ (by rintro _ ⟨⟩) hne
  · refine (hsame x ?_ hne).2 hc
    rintro i rfl
    exact hx rfl

-- ---------------------------------------------------------------------------
-- What the pool does
-- ---------------------------------------------------------------------------

/-- Nothing is freed but the blocks that are `gone`. -/
structure Spares (gone : Handle → Prop) (net net' : Enc28J60Network) : Prop where
  valid : net'.Valid
  size : ∀ h, ¬gone h → (net'.blocks h).size = (net.blocks h).size
  view : ∀ h, ¬gone h → net'.view h = net.view h

theorem freeBlock_spares {net' : Enc28J60Network} (hv : net.Valid) (hfree : net.freeBlock h = some net') :
    Spares (· = h) net net' := by
  obtain ⟨net₁, hfree₁, hch, -⟩ := freeBlock_ok hv h
  obtain rfl := Option.some.inj (hfree₁.symm.trans hfree)
  refine ⟨hch.valid, fun j hj => freeBlock_size hfree hj, fun j hj => ?_⟩
  rw [hch.view, Function.update_of_ne hj]

theorem flushBlocks_spares {net' : Enc28J60Network} {packets' : Packets} (hv : net.Valid)
    (hflush : flushBlocks net packets = some (net', packets')) : Spares (fun h => ∃ i, packets i = h) net net' := by
  simp only [flushBlocks, Option.bind_eq_bind, Option.bind_eq_some_iff] at hflush
  obtain ⟨net₁, hfold, heq⟩ := hflush
  cases heq
  revert hfold
  generalize List.finRange UIP_SOCKET_NUMPACKETS = slots
  intro hfold
  induction slots generalizing net with
  | nil =>
    cases hfold
    exact ⟨hv, fun _ _ => rfl, fun _ _ => rfl⟩
  | cons i rest ih =>
    obtain ⟨net₂, hfree, hrest⟩ := Option.bind_eq_some_iff.mp hfold
    have h₁ := freeBlock_spares hv hfree
    have h₂ := ih h₁.valid hrest
    have hne : ∀ j, (¬∃ i, packets i = j) → j ≠ packets i := fun j hj he => hj ⟨i, he.symm⟩
    exact ⟨h₂.valid, fun j hj => (h₂.size j hj).trans (h₁.size j (hne j hj)),
      fun j hj => (h₂.view j hj).trans (h₁.view j (hne j hj))⟩

-- ---------------------------------------------------------------------------
-- packets_in
-- ---------------------------------------------------------------------------

theorem eatIn_serves (ho : s.Owned) (ht : Tidy clean u s) (h : eatIn s u = some s') : ServesIn clean u s s' := by
  have hkeeps := eatIn_keeps ho h
  have hwithin := eatIn_within h
  simp only [eatIn, eatBlock, Option.bind_eq_bind, Option.bind_eq_some_iff, Prod.exists] at h
  obtain ⟨net, block, ⟨net', hfree, heq⟩, h⟩ := h
  cases heq
  cases h
  have hspares := freeBlock_spares ht.valid hfree
  obtain ⟨hs, hl⟩ := ht.incoming
  refine .aside ht hkeeps hwithin.others hspares.valid ?_ ?_ (fun x hx hne => ?_) fun _ _ => rfl
  · rw [setPacketsIn_self]
    exact ⟨hs.tail, hl.shift⟩
  · rw [setPacketsIn_self]
    exact fun hs => ⟨hs, rfl, rfl⟩
  · have hhead : s.own x ≠ (s.allData u).packetsIn 0 := fun he => hx 0 (ho.distinct hne he)
    exact ⟨hspares.size _ hhead, fun _ => hspares.view _ hhead⟩

theorem flushIn_serves (ho : s.Owned) (ht : Tidy clean u s) (h : flushIn s u = some s') : ServesIn clean u s s' := by
  have hkeeps := flushIn_keeps ho h
  have hwithin := flushIn_within h
  simp only [flushIn, Option.bind_eq_bind, Option.bind_eq_some_iff, Prod.exists] at h
  obtain ⟨net, block, hflush, h⟩ := h
  cases h
  obtain rfl := flushBlocks_none hflush
  have hspares := flushBlocks_spares ht.valid hflush
  refine .aside ht hkeeps hwithin.others hspares.valid ?_ ?_ (fun x hx hne => ?_) fun _ _ => rfl
  · rw [setPacketsIn_self]
    exact ⟨[], .empty⟩
  · rw [setPacketsIn_self]
    exact fun hs => ⟨hs, rfl, rfl⟩
  · have hkept : ¬∃ i, (s.allData u).packetsIn i = s.own x := by
      rintro ⟨i, he⟩
      exact hx i (ho.distinct hne he.symm)
    exact ⟨hspares.size _ hkept, fun _ => hspares.view _ hkept⟩

theorem size_of_view {net' : Enc28J60Network} (hl : Live net.blocks h) (hview : net'.view h = net.view h) :
    (net'.blocks h).size = (net.blocks h).size := by
  have hc : net.view h = some (contents net.blocks net.ram h) := view_some.mpr ⟨hl, rfl⟩
  rw [← view_length hc, ← view_length (hview.trans hc)]

/-- The payload lies in the ring without a wrap. -/
def OnePiece (s : System) : Prop :=
  s.net.readStart UIP_RECEIVEBUFFERHANDLE s.uip.uipAppdata + s.uip.uipLen ≤ RXSTOP_INIT + 1

/-- The callback puts the payload into `packets_in` of the entry. -/
def Stores (s : System) (u : Fin UIP_CONNS) : Prop :=
  has s.uip.uipFlags UIP_NEWDATA ∧ s.uip.uipLen ≠ 0 ∧
    ¬has (s.allData u).state (UIP_CLIENT_CLOSE ||| UIP_CLIENT_REMOTECLOSED) ∧
    (∃ i, (s.allData u).packetsIn i = NOBLOCK) ∧ CanAlloc s.net.blocks s.uip.uipLen

theorem allocBlock_result {net' : Enc28J60Network} {n : Nat} (hv : net.Valid) (hn : 1 ≤ n)
    (halloc : net.allocBlock n = some (net', h)) :
    AllocResult net n net' h ∧ net' = { net with blocks := net'.blocks, ram := net'.ram } := by
  obtain ⟨net₁, h₁, halloc₁, hres, hsame⟩ := allocBlock_ok hv hn
  obtain ⟨rfl, rfl⟩ := Prod.mk.inj (Option.some.inj (halloc₁.symm.trans halloc))
  exact ⟨hres, hsame⟩

theorem allocBlock_spares {net' : Enc28J60Network} {n : Nat} (hv : net.Valid) (hn : 1 ≤ n)
    (halloc : net.allocBlock n = some (net', h)) {j : Handle} (hj : Live net.blocks j) :
    (net'.blocks j).size = (net.blocks j).size ∧ net'.view j = net.view j := by
  have hview : net'.view j = net.view j := by
    cases (allocBlock_result hv hn halloc).1 with
    | placed _ hfresh _ hch =>
      have hne : j ≠ h := by
        rintro rfl
        exact view_none.mp hfresh hj
      rw [hch.view, Function.update_of_ne hne]
    | failed _ hch => rw [hch.view]
  exact ⟨size_of_view hj hview, hview⟩

/-- No block for the segment: the other slots are tried in vain. -/
theorem storeData_refused {slots : List (Fin UIP_SOCKET_NUMPACKETS)} {stored : Bool} (hv : s.net.Valid) (hlen : s.uip.uipLen ≠ 0)
    (hno : ¬CanAlloc s.net.blocks s.uip.uipLen) (hempty : ∀ i ∈ slots, (s.allData u).packetsIn i = NOBLOCK)
    (h : storeData c u slots s = some (s', stored)) :
    s'.allData = s.allData ∧ s'.net.Valid ∧ s'.net.view = s.net.view ∧ s'.history = s.history := by
  induction slots generalizing s with
  | nil =>
    cases h
    exact ⟨rfl, hv, rfl, rfl⟩
  | cons i rest ih =>
    have hi := hempty i List.mem_cons_self
    rw [storeData, if_pos hi] at h
    obtain ⟨⟨net, b⟩, halloc, h⟩ := Option.bind_eq_some_iff.mp h
    cases (allocBlock_result hv (Nat.pos_of_ne_zero hlen) halloc).1 with
    | placed hcan => exact absurd hcan hno
    | failed _ hch =>
      have hdata : (s.setNet net).setPacketsIn u (Function.update (s.allData u).packetsIn i NOBLOCK) = s.setNet net := by
        rw [← hi, Function.update_eq_self, setPacketsIn, setData]
        exact congrArg (fun f => { s.setNet net with allData := f }) (Function.update_eq_self u s.allData)
      simp only [if_true] at h
      rw [hdata] at h
      have hcan : ¬CanAlloc net.blocks s.uip.uipLen := by
        rwa [canAlloc_of_view (e := s.net) (fun j => by rw [hch.view])]
      obtain ⟨hdata', hv', hview', hhist'⟩ := ih (s := s.setNet net) hch.valid hlen hcan
        (fun j hj => hempty j (List.mem_cons_of_mem i hj)) h
      exact ⟨hdata', hv', hview'.trans hch.view, hhist'⟩

/-- A segment is copied from the ring into its new block. -/
theorem copyPacket_piece {net' : Enc28J60Network} {b : List Byte} (hv : net.Valid) (hview : net.view h = some b)
    (hpiece : net.readStart UIP_RECEIVEBUFFERHANDLE a + n ≤ RXSTOP_INIT + 1) (hn : n ≠ 0) (hlen : b.length = n)
    (hcopy : net.copyPacket h 0 UIP_RECEIVEBUFFERHANDLE a n = some net') {j : Handle} (hj : j ≠ h) :
    net'.view j = net.view j := by
  have hb := hv.bounds hview
  have hr : RXSTOP_INIT = 2047 := rfl
  have hm : MEMORY_SIZE = 8192 := rfl
  have hlin : Linear (net.readStart UIP_RECEIVEBUFFERHANDLE a) n := .inr hpiece
  have hover : Ahead ((net.blocks h).begin + 0) (net.readStart UIP_RECEIVEBUFFERHANDLE a) n := .inr (by omega)
  obtain ⟨net₁, hcopy₁, hch, -⟩ := copyPacket_ok hv hview (Nat.pos_of_ne_zero hn) (show 0 + n ≤ b.length by omega) hlin
    (by omega) hover
  obtain rfl := Option.some.inj (hcopy₁.symm.trans hcopy)
  rw [hch.view, Function.update_of_ne hj]

theorem drop_slots {k : Nat} {i : Fin UIP_SOCKET_NUMPACKETS} {rest : List (Fin UIP_SOCKET_NUMPACKETS)}
    (h : (List.finRange UIP_SOCKET_NUMPACKETS).drop k = i :: rest) :
    i.val = k ∧ rest = (List.finRange UIP_SOCKET_NUMPACKETS).drop (k + 1) := by
  constructor
  · have hget : ((List.finRange UIP_SOCKET_NUMPACKETS).drop k)[0]? = some i := by rw [h]; rfl
    rw [List.getElem?_drop, Nat.add_zero] at hget
    obtain ⟨hk, hi⟩ := List.getElem?_eq_some_iff.mp hget
    rw [← hi, List.getElem_finRange]
    rfl
  · rw [← List.tail_drop, h]
    rfl

theorem mem_drop_slots {k : Nat} {i : Fin UIP_SOCKET_NUMPACKETS} (h : i ∈ (List.finRange UIP_SOCKET_NUMPACKETS).drop k) :
    k ≤ i.val := by
  obtain ⟨j, hj, rfl⟩ := List.getElem_of_mem h
  rw [List.getElem_drop, List.getElem_finRange]
  exact Nat.le_add_right k j

/-- The segment is put behind the blocks in `packets_in`, or dropped. -/
theorem storeData_serves {k : Nat} {slots : List (Fin UIP_SOCKET_NUMPACKETS)} {stored : Bool} (ho : s.Owned) (ht : Tidy clean u s)
    (hl : Lists (s.allData u).packetsIn hs) (hslots : slots = (List.finRange UIP_SOCKET_NUMPACKETS).drop k) (hk : k ≤ hs.length)
    (hlen : s.uip.uipLen ≠ 0) (hframe : s.inPacket = UIP_RECEIVEBUFFERHANDLE)
    (hpiece : clean → (∃ i, (s.allData u).packetsIn i = NOBLOCK) → CanAlloc s.net.blocks s.uip.uipLen → OnePiece s)
    (h : storeData c u slots s = some (s', stored)) : ServesIn clean u s s' := by
  have hkeeps := storeData_keeps ho hlen h
  have hwithin := storeData_within h
  induction slots generalizing k with
  | nil =>
    cases h
    exact .refl ho ht
  | cons i rest ih =>
    obtain ⟨hi, hrest⟩ := drop_slots hslots.symm
    by_cases hnone : (s.allData u).packetsIn i = NOBLOCK
    · have hge := (hl.none_iff i).mp hnone
      by_cases hcan : CanAlloc s.net.blocks s.uip.uipLen
      · rw [storeData, if_pos hnone] at h
        obtain ⟨⟨net, b⟩, halloc, h⟩ := Option.bind_eq_some_iff.mp h
        obtain ⟨hres, hsame⟩ := allocBlock_result ht.valid (Nat.pos_of_ne_zero hlen) halloc
        cases hres with
        | failed hcannot _ => exact absurd hcan hcannot
        | @placed _ bytes _ hfresh hbytes hch =>
          have hview : net.view b = some bytes := by rw [hch.view, Function.update_self]
          have hb : b ≠ NOBLOCK := (view_ne hview).1
          simp only [if_neg hb] at h
          obtain ⟨net', hcopy, h⟩ := Option.bind_eq_some_iff.mp h
          have hblocks : net'.blocks = net.blocks := copyPacket_blocks hcopy
          have hself : (s'.allData u) = { s.allData u with packetsIn := Function.update (s.allData u).packetsIn i b } ∧
              s'.net = net' ∧ ∀ v j, writtenTo v j s'.history = writtenTo v j s.history := by
            cases h
            split <;> exact ⟨setPacketsIn_self .., rfl, fun _ _ => rfl⟩
          obtain ⟨hdata, rfl, hwritten⟩ := hself
          refine .aside ht hkeeps hwithin.others ?_ ⟨hs ++ [b], ?_⟩ ?_ (fun x _ hne => ?_) hwritten
          · rw [Valid, hblocks]
            exact hch.valid
          · rw [hdata]
            exact hl.append (by omega) hb
          · rw [hdata]
            exact fun hs' => ⟨hs', rfl, rfl⟩
          · obtain ⟨hsize, hkept⟩ := allocBlock_spares ht.valid (Nat.pos_of_ne_zero hlen) halloc (ho.block hne)
            refine ⟨(congrArg (fun m : Blocks => (m (s.own x)).size) hblocks).trans hsize, fun hc => ?_⟩
            have hring := hpiece hc ⟨i, hnone⟩ hcan
            have hne' : s.own x ≠ b := by
              intro he
              exact view_none.mp hfresh (he ▸ ho.block hne)
            have hstart : net.readStart UIP_RECEIVEBUFFERHANDLE s.uip.uipAppdata =
                s.net.readStart UIP_RECEIVEBUFFERHANDLE s.uip.uipAppdata := by
              rw [hsame]
              rfl
            have hcopy' : net.copyPacket b 0 UIP_RECEIVEBUFFERHANDLE s.uip.uipAppdata s.uip.uipLen = some s'.net := by
              rw [← hframe]
              exact hcopy
            have hpiece' : net.readStart UIP_RECEIVEBUFFERHANDLE s.uip.uipAppdata + s.uip.uipLen ≤ RXSTOP_INIT + 1 :=
              hstart ▸ hring
            exact (copyPacket_piece hch.valid hview hpiece' hlen hbytes hcopy' hne').trans hkept
      · have hempty : ∀ j ∈ i :: rest, (s.allData u).packetsIn j = NOBLOCK := by
          intro j hj
          have hle := mem_drop_slots (hslots ▸ hj)
          exact (hl.none_iff j).mpr (by omega)
        obtain ⟨hdata, hvalid, hview, hhist⟩ := storeData_refused ht.valid hlen hcan hempty h
        refine .aside ht hkeeps hwithin.others hvalid ⟨hs, hdata ▸ hl⟩ ?_ (fun x _ hne => ?_) fun _ _ => by rw [hhist]
        · rw [hdata]
          exact fun hs' => ⟨hs', rfl, rfl⟩
        · have hsame := congrFun hview (s.own x)
          exact ⟨size_of_view (ho.block hne) hsame, fun _ => hsame⟩
    · rw [storeData, if_neg hnone] at h
      have hlt : k + 1 ≤ hs.length := by
        have hge := mt (hl.none_iff i).mpr hnone
        omega
      exact ih hrest hlt h

/-- A change beside the queues and the pool. -/
theorem ServesIn.same (ho : s.Owned) (ht : Tidy clean u s) (hdata : s'.allData = s.allData) (hsockets : s'.sockets = s.sockets)
    (hnet : s'.net = s.net) (hhist : s'.history = s.history) : ServesIn clean u s s' := by
  obtain ⟨hs, hl⟩ := ht.incoming
  refine .aside ht (ho.aside hdata hsockets (by rw [hnet]) (by rw [hnet])) (fun v _ => by rw [hdata]) (hnet ▸ ht.valid)
    ⟨hs, hdata ▸ hl⟩ ?_ (fun x _ _ => ⟨by rw [sizeAt, hnet]; rfl, fun _ => by rw [hnet]⟩) fun _ _ => by rw [hhist]
  rw [hdata]
  exact fun hs' => ⟨hs', rfl, rfl⟩

theorem newdata_serves (ho : s.Owned) (ht : Tidy clean u s)
    (hframe : has s.uip.uipFlags UIP_NEWDATA → s.inPacket = UIP_RECEIVEBUFFERHANDLE)
    (hpiece : clean → Stores s u → OnePiece s) (h : newdata s c u = some s') : ServesIn clean u s s' := by
  rw [newdata] at h
  split at h
  · rename_i hnew
    obtain ⟨hs, hl⟩ := ht.incoming
    obtain ⟨⟨s₁, stored⟩, hstore, h⟩ := Option.bind_eq_some_iff.mp h
    have hpiece' : clean → (∃ i, (s.allData u).packetsIn i = NOBLOCK) → CanAlloc s.net.blocks s.uip.uipLen → OnePiece s :=
      fun hc hfree hcan => hpiece hc ⟨hnew.1, hnew.2.1, hnew.2.2, hfree, hcan⟩
    have h₁ := storeData_serves ho ht hl List.drop_zero.symm (Nat.zero_le _) hnew.2.1 (hframe hnew.1) hpiece' hstore
    simp only at h
    split at h
    · cases h
      exact h₁
    · cases h
      exact h₁.trans (.same h₁.owned h₁.tidy rfl rfl rfl rfl)
  · cases h
    exact .refl ho ht

/-- A change of the state that puts nothing to use. -/
theorem setState_serves {state : BitVec 8} (ho : s.Owned) (ht : Tidy clean u s)
    (hs : state ≠ 0 ∧ ¬has state UIP_CLIENT_REMOTECLOSED → (s.allData u).sends) : ServesIn clean u s (s.setState u state) := by
  obtain ⟨l, hl⟩ := ht.incoming
  refine .aside ht (setState_keeps ho hs) (fun v hv => Function.update_of_ne hv _ _) ht.valid ⟨l, ?_⟩ ?_
    (fun _ _ _ => ⟨rfl, fun _ => rfl⟩) fun _ _ => rfl
  · rw [setState_self]
    exact hl
  · rw [setState_self]
    exact fun hs' => ⟨hs (sends_iff.mp hs'), rfl, rfl⟩

theorem restart_serves (ho : s.Owned) (ht : Tidy clean u s) : ServesIn clean u s (restart s c u) := by
  rw [restart]
  split
  · have h₁ := setState_serves (u := u) ho ht fun h => sends_iff.mpr (sends_restart (s.allData u).state h)
    exact h₁.trans (.same h₁.owned h₁.tidy rfl rfl rfl rfl)
  · exact .refl ho ht

end UIPClient

end UIPEthernet
