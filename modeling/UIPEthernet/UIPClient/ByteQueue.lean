import UIPEthernet.Lib.Chunks
import UIPEthernet.UIPClient.Write

/-!
# The read side is a byte queue

The blocks of `packets_in` are the chunks of a byte stream: `available` is its
length, `peek` its first byte, and `read` takes bytes from its front.
-/

namespace UIPEthernet.UIPClient

open UIPEthernet.System Enc28J60Network Lib MemoryPool

-- ---------------------------------------------------------------------------
-- Handles in an array
-- ---------------------------------------------------------------------------

/-- The handles `hs` in front of the array, and nothing behind them. -/
structure Lists (packets : Packets) (hs : List Handle) : Prop where
  get : ∀ i : Fin UIP_SOCKET_NUMPACKETS, packets i = hs.getD i NOBLOCK
  length : hs.length ≤ UIP_SOCKET_NUMPACKETS
  used : ∀ h ∈ hs, h ≠ NOBLOCK

/-- They are blocks of the pool, each once, with the contents `q`. -/
structure Queue (net : Enc28J60Network) (packets : Packets) (hs : List Handle) (q : List (List Byte)) : Prop
    extends Lists packets hs where
  nodup : hs.Nodup
  view : hs.map net.view = q.map some

variable {s s' : System} {u : Fin UIP_CONNS} {net net' : Enc28J60Network} {packets : Packets} {hs : List Handle} {h : Handle}
  {q : List (List Byte)} {c : List Byte} {n : Nat}

theorem Lists.empty : Lists (fun _ => NOBLOCK) [] := ⟨fun _ => rfl, Nat.zero_le _, fun _ h => absurd h List.not_mem_nil⟩

theorem Lists.head (hl : Lists packets (h :: hs)) : packets 0 = h := hl.get 0

theorem Lists.head_none (hl : Lists packets hs) : packets 0 = NOBLOCK ↔ hs = [] := by
  cases hs with
  | nil => exact ⟨fun _ => rfl, fun _ => hl.get 0⟩
  | cons h hs =>
    rw [hl.head]
    exact ⟨fun h0 => absurd h0 (hl.used h List.mem_cons_self), fun h0 => absurd h0 (List.cons_ne_nil h hs)⟩

theorem Lists.shift (hl : Lists packets hs) : Lists (shift packets) hs.tail := by
  refine ⟨fun i => ?_, ?_, fun h hh => hl.used h (List.mem_of_mem_tail hh)⟩
  · have htail : hs.tail.getD i NOBLOCK = hs.getD (i + 1) NOBLOCK := by
      cases hs <;> rfl
    rw [htail, UIPClient.shift]
    split
    · exact hl.get _
    · have hlen := hl.length
      rw [List.getD_eq_getElem?_getD, List.getElem?_eq_none (by omega), Option.getD_none]
  · rw [List.length_tail]
    exact (Nat.sub_le _ _).trans hl.length

theorem Lists.none_iff (hl : Lists packets hs) (i : Fin UIP_SOCKET_NUMPACKETS) : packets i = NOBLOCK ↔ hs.length ≤ i := by
  rw [hl.get, List.getD_eq_getElem?_getD]
  constructor
  · intro hnone
    refine Nat.le_of_not_lt fun hi => ?_
    rw [List.getElem?_eq_getElem hi, Option.getD_some] at hnone
    exact hl.used _ (List.getElem_mem hi) hnone
  · intro hi
    rw [List.getElem?_eq_none hi, Option.getD_none]

theorem Lists.currentBlock (hl : Lists packets hs) : (currentBlock packets).val = hs.length - 1 := by
  have hlen : hs.length ≤ 5 := hl.length
  have hslot : ∀ (i : Fin UIP_SOCKET_NUMPACKETS) (k : Nat), i.val = k → (packets i = NOBLOCK ↔ hs.length ≤ k) := by
    rintro i k rfl
    exact hl.none_iff i
  unfold UIPClient.currentBlock
  simp only [hslot 1 1 rfl, hslot 2 2 rfl, hslot 3 3 rfl, hslot 4 4 rfl]
  have hval : ∀ (i : Fin UIP_SOCKET_NUMPACKETS) (k : Nat), i.val = k → hs.length - 1 = k → i.val = hs.length - 1 :=
    fun i k hi hk => hi.trans hk.symm
  split
  · exact hval 0 0 rfl (by omega)
  · split
    · exact hval 1 1 rfl (by omega)
    · split
      · exact hval 2 2 rfl (by omega)
      · split
        · exact hval 3 3 rfl (by omega)
        · exact hval 4 4 rfl (by omega)

/-- A block is put behind the others. -/
theorem Lists.append (hl : Lists packets hs) {i : Fin UIP_SOCKET_NUMPACKETS} (hi : i.val = hs.length) (hh : h ≠ NOBLOCK) :
    Lists (Function.update packets i h) (hs ++ [h]) := by
  refine ⟨fun j => ?_, ?_, ?_⟩
  · rw [List.getD_eq_getElem?_getD, List.getElem?_append]
    by_cases hj : j = i
    · rw [hj, Function.update_self, if_neg (by omega), hi, Nat.sub_self]
      rfl
    · rw [Function.update_of_ne hj, hl.get, List.getD_eq_getElem?_getD]
      have hne : j.val ≠ hs.length := fun he => hj (Fin.ext (he.trans hi.symm))
      split
      · rfl
      · rw [List.getElem?_eq_none (by omega), List.getElem?_eq_none (by rw [List.length_singleton]; omega)]
  · rw [List.length_append, List.length_singleton]
    omega
  · intro j hj
    rcases List.mem_append.mp hj with hj | hj
    · exact hl.used j hj
    · rw [List.mem_singleton.mp hj]
      exact hh

theorem Queue.empty : Queue net (fun _ => NOBLOCK) [] [] := ⟨.empty, List.nodup_nil, rfl⟩

theorem Queue.cons (hq : Queue net packets (h :: hs) (c :: q)) : net.view h = some c ∧ hs.map net.view = q.map some :=
  List.cons.inj hq.view

theorem Queue.length_eq (hq : Queue net packets hs q) : hs.length = q.length := by
  have hlen := congrArg List.length hq.view
  rwa [List.length_map, List.length_map] at hlen

theorem Queue.mem_view (hq : Queue net packets hs q) (hc : c ∈ q) : ∃ h ∈ hs, net.view h = some c := by
  have hmem : some c ∈ hs.map net.view := by
    rw [hq.view]
    exact List.mem_map_of_mem hc
  exact List.mem_map.mp hmem

theorem Queue.held (hq : Queue net packets hs q) (hh : h ∈ hs) : ∃ c, net.view h = some c := by
  have hmem : net.view h ∈ q.map some := hq.view ▸ List.mem_map_of_mem hh
  obtain ⟨c, -, hc⟩ := List.mem_map.mp hmem
  exact ⟨c, hc.symm⟩

theorem Queue.nonempty (hq : Queue net packets hs q) : ∀ c ∈ q, c ≠ [] := by
  intro c hc
  obtain ⟨h, -, hview⟩ := hq.mem_view hc
  exact List.ne_nil_of_length_pos (view_pos hview)

/-- The same handles, with views that have not changed. -/
theorem Queue.congr (hq : Queue net packets hs q) (hview : ∀ h ∈ hs, net'.view h = net.view h) : Queue net' packets hs q :=
  ⟨hq.toLists, hq.nodup, (List.map_congr_left hview).trans hq.view⟩

-- ---------------------------------------------------------------------------
-- available
-- ---------------------------------------------------------------------------

theorem Queue.blockSize (hq : Queue net packets hs q) : hs.map net.blockSize = q.map List.length := by
  have hsizes : hs.map net.blockSize = (hs.map net.view).map fun v => (v.map List.length).getD 0 := by
    rw [List.map_map]
    refine List.map_congr_left fun h hh => ?_
    obtain ⟨c, hc⟩ := hq.held hh
    rw [Function.comp_apply, hc, blockSize_eq (.inr hc)]
    rfl
  rw [hsizes, hq.view, List.map_map]
  rfl

/-- Blocks that are all different fit into the pool together. -/
theorem sizes_le (hv : net.Valid) (hnodup : hs.Nodup) (hlive : ∀ h ∈ hs, Live net.blocks h) :
    (hs.map fun h => (net.blocks h).size).sum ≤ MEMPOOL_SIZE := by
  obtain ⟨l, hw⟩ := hv
  have hsub : hs.Subperm l := hnodup.subperm fun h hh => hw.mem_iff.mpr (hlive h hh)
  have hle : (hs.map fun h => (net.blocks h).size).sum ≤ total net.blocks l := by
    obtain ⟨l', hperm, hsublist⟩ := hsub
    rw [← (hperm.map _).sum_eq]
    exact (hsublist.map _).sum_le_sum fun _ _ => Nat.zero_le _
  have huse := hw.inUse_freesize (c := POOLSTART) List.mem_cons_self
  rw [hw.inUse_eq] at huse
  omega

theorem foldl_add16 {l : List Nat} {a : Nat} (h : a + l.sum < 65536) : l.foldl add16 a = a + l.sum := by
  induction l generalizing a with
  | nil => rfl
  | cons x l ih =>
    rw [List.sum_cons] at h ⊢
    rw [List.foldl_cons, add16_eq (by omega), ih (by omega), Nat.add_assoc]

/-- A slot without a block counts nothing. -/
theorem sum_slots {f : Handle → Nat} (hnone : f NOBLOCK = 0) (hlen : hs.length ≤ n) :
    ((List.finRange n).map fun i : Fin n => f (hs.getD i NOBLOCK)).sum = (hs.map f).sum := by
  induction hs generalizing n with
  | nil =>
    refine List.sum_eq_zero fun x hx => ?_
    obtain ⟨i, -, rfl⟩ := List.mem_map.mp hx
    exact hnone
  | cons h hs ih =>
    cases n with
    | zero => exact absurd hlen (Nat.not_succ_le_zero _)
    | succ n =>
      rw [List.finRange_succ, List.map_cons, List.sum_cons, List.map_map, List.map_cons, List.sum_cons,
        ← ih (Nat.le_of_succ_le_succ hlen)]
      rfl

theorem operatorBool_some : operatorBool s (some u) = false ↔
    has (s.allData u).state UIP_CLIENT_REMOTECLOSED ∧ (s.allData u).packetsIn 0 = NOBLOCK := by
  simp [operatorBool]

theorem available_queue (hv : s.net.Valid) (hq : Queue s.net (s.allData u).packetsIn hs q) :
    available s (some u) = q.flatten.length := by
  rw [available, List.length_flatten, ← hq.blockSize]
  split
  · have hsum := sum_slots (f := s.net.blockSize) rfl hq.length
    have hle : (hs.map s.net.blockSize).sum ≤ MEMPOOL_SIZE := by
      refine Nat.le_trans (Nat.le_of_eq (congrArg List.sum (List.map_congr_left fun h hh => ?_)))
        (sizes_le hv hq.nodup fun h hh => ?_)
      · obtain ⟨c, hc⟩ := hq.held hh
        rw [blockSize_eq (.inr hc), view_length hc]
      · obtain ⟨c, hc⟩ := hq.held hh
        exact (view_some.mp hc).1
    have hpool : MEMPOOL_SIZE < 65536 := by decide
    simp only [hq.get]
    rw [foldl_add16 (by omega), hsum, Nat.zero_add]
  · rename_i hno
    have hnil : hs = [] := hq.head_none.mp (operatorBool_some.mp (Bool.eq_false_iff.mpr hno)).2
    rw [hnil]
    rfl

-- ---------------------------------------------------------------------------
-- peek
-- ---------------------------------------------------------------------------

theorem Queue.open (hq : Queue s.net (s.allData u).packetsIn (h :: hs) q) : operatorBool s (some u) = true := by
  rw [← Bool.not_eq_false, operatorBool_some, hq.head]
  exact fun hclosed => hq.used h List.mem_cons_self hclosed.2

theorem peek_queue (hv : s.net.Valid) (hq : Queue s.net (s.allData u).packetsIn hs q) :
    peek s (some u) = q.flatten.head? := by
  cases hs with
  | nil =>
    obtain rfl : q = [] := List.length_eq_zero_iff.mp hq.length_eq.symm
    exact if_neg fun h => h.2 (hq.head_none.mpr rfl)
  | cons h hs =>
    cases q with
    | nil => exact absurd hq.length_eq (Nat.succ_ne_zero _)
    | cons c q =>
      obtain ⟨b, bytes, hc⟩ := List.exists_cons_of_ne_nil (hq.nonempty c List.mem_cons_self)
      have hread : s.net.readPacket h 0 1 = [b] := by
        rw [readPacket_ok hv hq.cons.1 (Nat.zero_le _), hc]
        rfl
      rw [peek, if_pos ⟨hq.open, fun h0 => hq.used h List.mem_cons_self (hq.head ▸ h0)⟩, hq.head, hread, List.flatten_cons, hc]
      rfl

-- ---------------------------------------------------------------------------
-- read
-- ---------------------------------------------------------------------------

/-- A block that is read to its end may restart the connection. -/
def Restarts (s : System) (u : Fin UIP_CONNS) (s' : System) : Prop :=
  (s'.allData u).state = (s.allData u).state ∨ (s'.allData u).state = (s.allData u).state ||| UIP_CLIENT_RESTART

theorem Restarts.remoteclosed (h : Restarts s u s') :
    has (s'.allData u).state UIP_CLIENT_REMOTECLOSED = has (s.allData u).state UIP_CLIENT_REMOTECLOSED := by
  rcases h with h | h
  · rw [h]
  · rw [h, Tables.has_setFlag _ (by decide)]

theorem Restarts.trans {s₁ : System} (h : Restarts s u s₁) (h' : Restarts s₁ u s') : Restarts s u s' := by
  rcases h with h | h
  · rw [Restarts, ← h]
    exact h'
  · refine .inr ?_
    rcases h' with h' | h'
    · rw [h', h]
    · rw [h', h, BitVec.or_assoc, BitVec.or_self]

/-- The entry behind a `read` that leaves `rest`, and the handle of the client. -/
def Left (s : System) (u : Fin UIP_CONNS) (rest : List (List Byte)) (s' : System) (client : Option (Fin UIP_CONNS)) : Prop :=
  if has (s.allData u).state UIP_CLIENT_REMOTECLOSED ∧ rest = [] then (s'.allData u).state = 0 ∧ client = none
  else Restarts s u s' ∧ client = some u

/-- `n` bytes are taken from the front of the queue. -/
structure Taken (s : System) (u : Fin UIP_CONNS) (hs : List Handle) (q : List (List Byte)) (n : Nat) (s' : System) : Prop where
  valid : s'.net.Valid
  queue : Queue s'.net (s'.allData u).packetsIn (hs.drop (drained n q)) (drain n q)
  freed : ∀ h ∈ hs.take (drained n q), s'.net.view h = none
  others : ∀ h ∉ hs, s'.net.view h = s.net.view h

theorem readBlock_queue (hv : s.net.Valid) (hq : Queue s.net (s.allData u).packetsIn (h :: hs) (c :: q)) :
    ∃ s', readBlock s u = some (s', decide (hs = [])) ∧ s'.net.Valid ∧ s'.net.view = Function.update s.net.view h none ∧
      Queue s'.net (s'.allData u).packetsIn hs q ∧ Restarts s u s' := by
  obtain ⟨net, hfree, hch, -⟩ := freeBlock_ok hv h
  let s₁ := (s.setNet net).setPacketsIn u (shift (s.allData u).packetsIn)
  have heat : eatIn s u = some s₁ := by
    simp only [eatIn, eatBlock, hq.head, hfree, Option.bind_eq_bind, Option.bind_some, Option.pure_def, s₁]
  have hdata : s₁.allData u = { s.allData u with packetsIn := shift (s.allData u).packetsIn } := Function.update_self ..
  have hq₁ : Queue net (shift (s.allData u).packetsIn) hs q := by
    refine ⟨hq.shift, (List.nodup_cons.mp hq.nodup).2, ?_⟩
    rw [← hq.cons.2, hch.view]
    refine List.map_congr_left fun j hj => Function.update_of_ne ?_ _ _
    rintro rfl
    exact (List.nodup_cons.mp hq.nodup).1 hj
  obtain ⟨s₂, hblock, hnet, hin, hrestarts⟩ : ∃ s₂, readBlock s u = some (s₂, decide ((s₂.allData u).packetsIn 0 = NOBLOCK)) ∧
      s₂.net = net ∧ (s₂.allData u).packetsIn = shift (s.allData u).packetsIn ∧ Restarts s u s₂ := by
    simp only [readBlock, heat, Option.bind_eq_bind, Option.bind_some, Option.pure_def]
    split
    · have hself : (s₁.setState u ((s₁.allData u).state ||| UIP_CLIENT_RESTART)).allData u =
          { s₁.allData u with state := (s₁.allData u).state ||| UIP_CLIENT_RESTART } := Function.update_self ..
      exact ⟨_, rfl, rfl, by rw [hself, hdata], .inr (by rw [hself, hdata])⟩
    · exact ⟨_, rfl, rfl, by rw [hdata], .inl (by rw [hdata])⟩
  rw [← hin] at hq₁
  rw [← hnet] at hq₁ hch
  exact ⟨s₂, by rw [hblock, decide_eq_decide.mpr hq₁.head_none], hch.valid, hch.view, hq₁, hrestarts⟩

/-- The first block is used up. -/
theorem Taken.block {s₁ : System} (hle : c.length ≤ n) (hv : s₁.net.view = Function.update s.net.view h none) (hh : h ∉ hs)
    (ht : Taken s₁ u hs q (n - c.length) s') : Taken s u (h :: hs) (c :: q) n s' := by
  have hdrain : drain n (c :: q) = drain (n - c.length) q := if_pos hle
  have hdrained : drained n (c :: q) = drained (n - c.length) q + 1 := if_pos hle
  refine ⟨ht.valid, ?_, ?_, ?_⟩
  · rw [hdrain, hdrained]
    exact ht.queue
  · rw [hdrained, List.take_succ_cons]
    intro j hj
    rcases List.mem_cons.mp hj with rfl | hj
    · rw [ht.others j hh, hv, Function.update_self]
    · exact ht.freed j hj
  · intro j hj
    rw [List.mem_cons, not_or] at hj
    rw [ht.others j hj.2, hv, Function.update_of_ne hj.1]

theorem Taken.nothing (hv : s.net.Valid) (hq : Queue s.net (s.allData u).packetsIn hs q) : Taken s u hs q 0 s := by
  refine ⟨hv, ?_, ?_, fun _ _ => rfl⟩
  · rw [drain_zero hq.nonempty, drained_zero hq.nonempty]
    exact hq
  · rw [drained_zero hq.nonempty]
    exact fun _ hj => absurd hj List.not_mem_nil

/-- The last block that is read keeps its rest. -/
theorem resizeBlock_taken (hv : s.net.Valid) (hq : Queue s.net (s.allData u).packetsIn (h :: hs) (c :: q)) (hlt : n < c.length) :
    Taken s u (h :: hs) (c :: q) n (s.setNet (s.net.resizeBlock h n)) := by
  have hch := resizeBlock_ok hv hq.cons.1 hlt
  have hdrain : drain n (c :: q) = c.drop n :: q := if_neg (by omega)
  have hdrained : drained n (c :: q) = 0 := if_neg (by omega)
  refine ⟨hch.valid, ?_, ?_, fun j hj => ?_⟩
  · rw [hdrain, hdrained]
    refine ⟨hq.toLists, hq.nodup, ?_⟩
    have hrest : hs.map (Function.update s.net.view h (some (c.drop n))) = q.map some := by
      rw [← hq.cons.2]
      refine List.map_congr_left fun j hj => Function.update_of_ne ?_ _ _
      rintro rfl
      exact (List.nodup_cons.mp hq.nodup).1 hj
    rw [List.drop_zero, show (s.setNet (s.net.resizeBlock h n)).net.view = _ from hch.view, List.map_cons, List.map_cons,
      Function.update_self, hrest]
  · rw [hdrained]
    exact fun _ hj => absurd hj List.not_mem_nil
  · rw [show (s.setNet (s.net.resizeBlock h n)).net.view = _ from hch.view]
    refine Function.update_of_ne ?_ _ _
    rintro rfl
    exact hj List.mem_cons_self

theorem readLoop_queue {fuel : Nat} (hv : s.net.Valid) (hq : Queue s.net (s.allData u).packetsIn (h :: hs) (c :: q))
    (hfuel : hs.length < fuel) : ∃ s' client, readLoop u fuel n s = some (s', client, (c :: q).flatten.take n) ∧
      Taken s u (h :: hs) (c :: q) n s' ∧ Left s u (drain n (c :: q)) s' client := by
  induction fuel generalizing s n h hs c q with
  | zero => exact absurd hfuel (Nat.not_lt_zero _)
  | succ fuel ih =>
    have hread : s.net.readPacket h 0 n = c.take n := readPacket_ok hv hq.cons.1 (Nat.zero_le _)
    simp only [readLoop, hq.head, hread, Option.bind_eq_bind, Option.pure_def]
    generalize hrec : s.record (.returned u h (c.take n)) = s₀
    have hnet : s₀.net = s.net := hrec ▸ rfl
    have hdata : s₀.allData = s.allData := hrec ▸ rfl
    have hsize : s₀.net.blockSize h = c.length := by rw [hnet, blockSize_eq (.inr hq.cons.1)]
    have hstart : ∀ {s₁}, Restarts s₀ u s₁ → Restarts s u s₁ := fun h => by rwa [Restarts, ← hdata]
    rw [hsize]
    rw [← hnet] at hv
    rw [← hnet, ← hdata] at hq
    by_cases hle : c.length ≤ n
    · obtain ⟨s₁, hblock, hv₁, hview, hq₁, hrestarts⟩ := readBlock_queue hv hq
      have hh : h ∉ hs := (List.nodup_cons.mp hq.nodup).1
      have hdrain : drain n (c :: q) = drain (n - c.length) q := if_pos hle
      have hcut : (c :: q).flatten.take n = c ++ q.flatten.take (n - c.length) := by
        rw [List.flatten_cons, List.take_append, List.take_of_length_le hle]
      have htaken : ∀ {s'}, Taken s₁ u hs q (n - c.length) s' → Taken s u (h :: hs) (c :: q) n s' :=
        fun ht => ht.block hle (by rw [hview, hnet]) hh
      have hremote : has (s₁.allData u).state UIP_CLIENT_REMOTECLOSED = has (s.allData u).state UIP_CLIENT_REMOTECLOSED :=
        (hstart hrestarts).remoteclosed
      rw [List.take_of_length_le hle, if_pos rfl, hblock, hdrain, hcut]
      simp only [Option.bind_some, decide_eq_true_eq]
      cases hs with
      | nil =>
        -- the queue is empty now
        obtain rfl : q = [] := List.length_eq_zero_iff.mp hq₁.length_eq.symm
        rw [if_pos rfl, List.flatten_nil, List.take_nil, List.append_nil]
        split
        · rename_i hrc
          refine ⟨_, _, rfl, htaken ⟨hv₁, ?_, fun _ hj => absurd hj List.not_mem_nil, fun _ _ => rfl⟩, ?_⟩
          · simp only [setState, setData, Function.update_self]
            exact hq₁
          · rw [Left, if_pos ⟨hremote ▸ hrc, rfl⟩, setState, setData_self]
            exact ⟨rfl, rfl⟩
        · rename_i hrc
          refine ⟨_, _, rfl, htaken ⟨hv₁, hq₁, fun _ hj => absurd hj List.not_mem_nil, fun _ _ => rfl⟩, ?_⟩
          rw [Left, if_neg fun hclosed => hrc (hremote ▸ hclosed.1)]
          exact ⟨hstart hrestarts, rfl⟩
      | cons h₂ hs =>
        cases q with
        | nil => exact absurd hq₁.length_eq (Nat.succ_ne_zero _)
        | cons c₂ q =>
          rw [if_neg (List.cons_ne_nil h₂ hs)]
          split
          · obtain ⟨s₂, client, hloop, htaken₂, hleft⟩ := ih (n := n - c.length) hv₁ hq₁ (Nat.lt_of_succ_lt_succ hfuel)
            rw [hloop]
            refine ⟨_, _, rfl, htaken htaken₂, ?_⟩
            rw [Left, hremote] at hleft
            rw [Left]
            split at hleft
            · rename_i hend
              rwa [if_pos hend]
            · rename_i hmore
              rw [if_neg hmore]
              exact ⟨(hstart hrestarts).trans hleft.1, hleft.2⟩
          · -- exactly up to the end of the block
            have hzero : n - c.length = 0 := by omega
            rw [hzero, List.take_zero, List.append_nil, drain_zero hq₁.nonempty]
            refine ⟨_, _, rfl, htaken (hzero ▸ .nothing hv₁ hq₁), ?_⟩
            rw [Left, if_neg fun hclosed => List.cons_ne_nil c₂ q hclosed.2]
            exact ⟨hstart hrestarts, rfl⟩
    · have hlen : (c.take n).length = n := by rw [List.length_take]; omega
      have hcut : (c :: q).flatten.take n = c.take n := by
        rw [List.flatten_cons, List.take_append, Nat.sub_eq_zero_of_le (by omega), List.take_zero, List.append_nil]
      rw [if_neg (by omega), hlen, hcut]
      refine ⟨_, _, rfl, ?_, ?_⟩
      · have htaken := resizeBlock_taken hv hq (Nat.lt_of_not_le hle)
        exact ⟨htaken.valid, htaken.queue, htaken.freed, fun j hj => hnet ▸ htaken.others j hj⟩
      · have hrest : drain n (c :: q) ≠ [] := by
          rw [drain, if_neg hle]
          exact List.cons_ne_nil _ _
        rw [Left, if_neg fun hclosed => hrest hclosed.2]
        exact ⟨hstart (.inl rfl), rfl⟩

theorem read_taken (hv : s.net.Valid) (hq : Queue s.net (s.allData u).packetsIn (h :: hs) (c :: q)) :
    ∃ s' client, read s (some u) n = some (s', client, some ((c :: q).flatten.take n)) ∧
      Taken s u (h :: hs) (c :: q) n s' ∧ Left s u (drain n (c :: q)) s' client := by
  have hfuel : hs.length < UIP_SOCKET_NUMPACKETS := Nat.lt_of_succ_le hq.length
  obtain ⟨s', client, hloop, htaken, hleft⟩ := readLoop_queue (n := n) hv hq hfuel
  refine ⟨s', client, ?_, htaken, hleft⟩
  have hne : (s.allData u).packetsIn 0 ≠ NOBLOCK := fun h0 => List.cons_ne_nil h hs (hq.head_none.mp h0)
  rw [read, if_pos hq.open, if_neg hne, hloop]
  rfl

/-- An entry is released with its last block, and only then. -/
theorem Left.released {client : Option (Fin UIP_CONNS)} {rest : List (List Byte)} (h : Left s u rest s' client) :
    ((s.allData u).state ≠ 0 ∧ (s'.allData u).state = 0) ↔ has (s.allData u).state UIP_CLIENT_REMOTECLOSED ∧ rest = [] := by
  rw [Left] at h
  split at h
  · rename_i hend
    exact ⟨fun _ => hend, fun _ => ⟨Tables.has_ne_zero hend.1, h.1⟩⟩
  · rename_i hmore
    refine ⟨fun h0 => ?_, fun hend => absurd hend hmore⟩
    rcases h.1 with hsame | hset
    · exact absurd (hsame ▸ h0.2) h0.1
    · exact absurd (BitVec.or_eq_zero_iff.mp (hset ▸ h0.2)).1 h0.1

/-- The read side of an entry is a byte queue. Only a closed connection with
nothing left in it is told apart from an empty queue, by the -1 of `read`. -/
theorem read_queue (hv : s.net.Valid) (hq : Queue s.net (s.allData u).packetsIn hs q) (n : Nat) :
    available s (some u) = q.flatten.length ∧ peek s (some u) = q.flatten.head? ∧
    ∃ s' client bytes, read s (some u) n = some (s', client, bytes) ∧
      (has (s.allData u).state UIP_CLIENT_REMOTECLOSED ∧ q = [] → bytes = none ∧ s' = s) ∧
      (¬(has (s.allData u).state UIP_CLIENT_REMOTECLOSED ∧ q = []) →
        bytes = some (q.flatten.take n) ∧ (q.flatten.take n).length = min n (available s (some u))) ∧
      Queue s'.net (s'.allData u).packetsIn (hs.drop (drained n q)) (drain n q) ∧
      (drain n q).flatten = q.flatten.drop n ∧ (∀ h ∈ hs.take (drained n q), s'.net.view h = none) ∧
      (∀ h ∉ hs, s'.net.view h = s.net.view h) ∧
      ((s.allData u).state ≠ 0 ∧ (s'.allData u).state = 0 ↔
        has (s.allData u).state UIP_CLIENT_REMOTECLOSED ∧ q ≠ [] ∧ q.flatten.length ≤ n) := by
  have havailable := available_queue hv hq
  refine ⟨havailable, peek_queue hv hq, ?_⟩
  rw [havailable, List.length_take]
  cases hs with
  | nil =>
    obtain rfl : q = [] := List.length_eq_zero_iff.mp hq.length_eq.symm
    have hnone : (s.allData u).packetsIn 0 = NOBLOCK := hq.head_none.mpr rfl
    have hread : read s (some u) n = some (s, some u, if has (s.allData u).state UIP_CLIENT_REMOTECLOSED then none else some []) := by
      rw [read]
      by_cases hr : has (s.allData u).state UIP_CLIENT_REMOTECLOSED
      · rw [if_neg (Bool.eq_false_iff.mp (operatorBool_some.mpr ⟨hr, hnone⟩)), if_pos hr]
      · rw [if_pos (Bool.not_eq_false _ ▸ fun hb => hr (operatorBool_some.mp hb).1), if_pos hnone, if_neg hr]
    refine ⟨s, some u, _, hread, fun hr => ⟨if_pos hr.1, rfl⟩, fun hr => ?_, hq, List.drop_nil.symm,
      fun _ hj => absurd hj List.not_mem_nil, fun _ _ => rfl, fun h0 => absurd h0.2 h0.1, fun hr => absurd rfl hr.2.1⟩
    rw [if_neg fun h => hr ⟨h, rfl⟩, List.flatten_nil, List.take_nil]
    exact ⟨rfl, rfl⟩
  | cons h hs =>
    cases q with
    | nil => exact absurd hq.length_eq (Nat.succ_ne_zero _)
    | cons c q =>
      obtain ⟨s', client, hread, htaken, hleft⟩ := read_taken (n := n) hv hq
      refine ⟨s', client, _, hread, fun hr => absurd hr.2 (List.cons_ne_nil c q), fun _ => ⟨rfl, rfl⟩, htaken.queue,
        drain_flatten n _, htaken.freed, htaken.others, ?_⟩
      rw [hleft.released, drain_nil_iff hq.nonempty]
      exact and_congr_right fun _ => ⟨fun hle => ⟨List.cons_ne_nil c q, hle⟩, And.right⟩

/-- Two blocks of an entry that the remote end has closed: the first is read with
a part of the second, or both to their ends. -/
theorem read_queue_example : ∃ (s s₁ s₂ : System) (client client' : Option (Fin UIP_CONNS)), (s.allData 0).state ≠ 0 ∧
    read s (some 0) 3 = some (s₁, client, some [1, 2, 3]) ∧ Queue s₁.net (s₁.allData 0).packetsIn [2] [[4]] ∧
    read s (some 0) 5 = some (s₂, client', some [1, 2, 3, 4]) ∧ (s₂.allData 0).state = 0 := by
  let s₀ : System := System.init (fun a => BitVec.ofNat 8 a) [] [] 0
  have hcompute : (s₀.net.allocBlock 2).bind (fun x => (x.1.allocBlock 2).map fun y => decide (x.2 = 1 ∧ y.2 = 2 ∧
      Live y.1.blocks 1 ∧ contents y.1.blocks y.1.ram 1 = [1, 2] ∧ Live y.1.blocks 2 ∧
      contents y.1.blocks y.1.ram 2 = [3, 4])) = some true := by
    decide +kernel
  obtain ⟨⟨e₁, h₁⟩, halloc₁, hcompute⟩ := Option.bind_eq_some_iff.mp hcompute
  obtain ⟨⟨e₂, h₂⟩, halloc₂, hcompute⟩ := Option.map_eq_some_iff.mp hcompute
  obtain ⟨rfl, rfl, hlive₁, hfirst, hlive₂, hsecond⟩ := of_decide_eq_true hcompute
  have hv : e₂.Valid := allocBlock_valid (allocBlock_valid (init_valid _ _) (by decide) halloc₁) (by decide) halloc₂
  let s := (s₀.setNet e₂).setData 0
    ⟨UIP_CLIENT_CONNECTED ||| UIP_CLIENT_REMOTECLOSED, fun i => [1, 2].getD i NOBLOCK, fun _ => NOBLOCK, 0, 0⟩
  have hq : Queue s.net (s.allData 0).packetsIn [1, 2] [[1, 2], [3, 4]] := by
    refine ⟨⟨fun _ => rfl, by decide, by decide⟩, by decide, ?_⟩
    have hview₁ : s.net.view 1 = some [1, 2] := view_some.mpr ⟨hlive₁, hfirst⟩
    have hview₂ : s.net.view 2 = some [3, 4] := view_some.mpr ⟨hlive₂, hsecond⟩
    rw [List.map_cons, List.map_cons, List.map_nil, hview₁, hview₂]
    rfl
  have hfull : ¬(has (s.allData 0).state UIP_CLIENT_REMOTECLOSED ∧ [[(1 : Byte), 2], [3, 4]] = []) := fun h =>
    absurd h.2 (List.cons_ne_nil _ _)
  obtain ⟨-, -, s₁, client, bytes, hread, -, hbytes, hrest, -⟩ := read_queue hv hq 3
  obtain ⟨-, -, s₂, client', bytes', hread', -, hbytes', -, -, -, -, hreleased⟩ := read_queue hv hq 5
  rw [(hbytes hfull).1] at hread
  rw [(hbytes' hfull).1] at hread'
  have hremote : has (s.allData 0).state UIP_CLIENT_REMOTECLOSED := (by decide : has (UIP_CLIENT_CONNECTED ||| UIP_CLIENT_REMOTECLOSED) UIP_CLIENT_REMOTECLOSED)
  obtain ⟨hused, hclosed⟩ := hreleased.mpr ⟨hremote, List.cons_ne_nil _ _, by decide⟩
  exact ⟨s, s₁, s₂, client, client', hused, hread, hrest, hread', hclosed⟩

/-- The remote end has closed, the sketch flushes what it has not read: there
are no bytes, and `read` does not return 0. -/
theorem read_flushed : ∃ (s₀ s : System) (ps : List Piece), s₀.tables = Tables.zero ∧ Run PieceStep s₀ ps s ∧
    Queue s.net (s.allData 0).packetsIn [] [] ∧ available s (some 0) = 0 ∧ read s (some 0) 1 = some (s, some 0, none) := by
  have hcompute : ((Tracked.arrived unreadFrame).tickInput.bind fun s₁ => s₁.tickInput.bind fun s₂ =>
      s₂.tickInput.bind fun s₃ => (flush s₃ (some 0)).map fun s => decide
        ((∀ i, (s.allData 0).packetsIn i = NOBLOCK) ∧ has (s.allData 0).state UIP_CLIENT_REMOTECLOSED)) = some true := by
    decide +kernel
  have h0 : (Tracked.arrived unreadFrame).tables = Tables.zero := rfl
  generalize Tracked.arrived unreadFrame = s₀ at hcompute h0
  obtain ⟨s₁, h₁, hcompute⟩ := Option.bind_eq_some_iff.mp hcompute
  obtain ⟨s₂, h₂, hcompute⟩ := Option.bind_eq_some_iff.mp hcompute
  obtain ⟨s₃, h₃, hcompute⟩ := Option.bind_eq_some_iff.mp hcompute
  obtain ⟨s, hflush, hcompute⟩ := Option.map_eq_some_iff.mp hcompute
  obtain ⟨hempty, hremote⟩ := of_decide_eq_true hcompute
  have hcall : PieceStep s₃ (.call (.flush (some 0))) s := .call (by rintro _ _ ⟨⟩) hflush
  have hclosed : operatorBool s (some 0) = false := operatorBool_some.mpr ⟨hremote, hempty 0⟩
  refine ⟨s₀, s, _, h0, (three_inputs h₁ h₂ h₃).snoc hcall, ⟨⟨hempty, Nat.zero_le _, by simp⟩, List.nodup_nil, rfl⟩, ?_, ?_⟩
  · rw [available, if_neg (Bool.eq_false_iff.mp hclosed)]
  · rw [read, if_neg (Bool.eq_false_iff.mp hclosed)]

end UIPEthernet.UIPClient
