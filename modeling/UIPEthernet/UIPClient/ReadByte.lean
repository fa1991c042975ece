import UIPEthernet.UIPClient.AttachedQueues

/-!
# The single byte read

`read()` and `peek` look at the same byte, and find the queue empty in different
ways: the -1 of the block read, or the first slot.
-/

namespace UIPEthernet.UIPClient

open UIPEthernet.System Slot Enc28J60Network Lib MemoryPool

variable {clean : Prop} {s s' : System} {u : Fin UIP_CONNS} {data : Option (Fin UIP_CONNS)} {hs : List Handle} {q : List (List Byte)}
  {n : Nat}

/-- The bytes of a block. -/
def bytesIn (net : Enc28J60Network) (h : Handle) : List Byte :=
  if h = NOBLOCK then [] else contents net.blocks net.ram h

/-- What has been received for the entry of a client and not been read. -/
def unread (s : System) : Option (Fin UIP_CONNS) → List Byte
  | none => []
  | some u => (List.finRange UIP_SOCKET_NUMPACKETS).flatMap fun i => bytesIn s.net ((s.allData u).packetsIn i)

/-- A slot without a block has no bytes. -/
theorem flatMap_slots {f : Handle → List Byte} (hnone : f NOBLOCK = []) (hlen : hs.length ≤ n) :
    ((List.finRange n).flatMap fun i : Fin n => f (hs.getD i NOBLOCK)) = hs.flatMap f := by
  induction hs generalizing n with
  | nil =>
    refine List.flatMap_eq_nil_iff.mpr fun i _ => ?_
    exact hnone
  | cons h hs ih =>
    cases n with
    | zero => exact absurd hlen (Nat.not_succ_le_zero _)
    | succ n =>
      rw [List.finRange_succ, List.flatMap_cons, List.flatMap_map, List.flatMap_cons, ← ih (Nat.le_of_succ_le_succ hlen)]
      rfl

theorem Queue.unread (hq : Queue s.net (s.allData u).packetsIn hs q) : UIPClient.unread s (some u) = q.flatten := by
  have hbytes : hs.map (bytesIn s.net) = q := by
    have hsome : (hs.map (bytesIn s.net)).map some = q.map some := by
      rw [← hq.view, List.map_map]
      refine List.map_congr_left fun h hh => ?_
      obtain ⟨c, hc⟩ := hq.held hh
      rw [Function.comp_apply, bytesIn, if_neg (hq.used h hh), hc, (view_some.mp hc).2]
    exact List.map_injective_iff.mpr (fun _ _ => Option.some.inj) hsome
  simp only [UIPClient.unread, hq.get]
  rw [flatMap_slots rfl hq.length, List.flatMap_def, hbytes]

/-- The blocks in `packets_in` of an entry are its queue. -/
theorem Sound.queue (hs : Sound clean s) (u : Fin UIP_CONNS) : ∃ l q, Queue s.net (s.allData u).packetsIn l q := by
  obtain ⟨l, hl⟩ := (hs.tidy u).incoming
  have hslot : ∀ (i : Nat) (hi : i < l.length), ∃ j : Fin UIP_SOCKET_NUMPACKETS, j.val = i ∧ s.own (.packetsIn u j) = l[i] := by
    intro i hi
    have hlen := hl.length
    refine ⟨⟨i, by omega⟩, rfl, ?_⟩
    change (s.allData u).packetsIn _ = _
    rw [hl.get, List.getD_eq_getElem?_getD, List.getElem?_eq_getElem hi, Option.getD_some]
  refine ⟨l, l.map (contents s.net.blocks s.net.ram), hl, ?_, ?_⟩
  · refine List.pairwise_iff_getElem.mpr fun i j hi hj hij he => ?_
    obtain ⟨i', rfl, hi'⟩ := hslot i hi
    obtain ⟨j', rfl, hj'⟩ := hslot j hj
    have hne : s.own (.packetsIn u i') ≠ NOBLOCK := hi' ▸ hl.used _ (List.getElem_mem hi)
    have hsame := hs.owned.distinct hne (hi'.trans (he.trans hj'.symm))
    have hindex : i' = j' := (packetsIn.inj hsame).2
    rw [hindex] at hij
    exact Nat.lt_irrefl _ hij
  · rw [List.map_map]
    refine List.map_congr_left fun h hh => ?_
    obtain ⟨i, hi, rfl⟩ := List.getElem_of_mem hh
    obtain ⟨j, rfl, hj⟩ := hslot i hi
    have hlive : Live s.net.blocks l[j.val] := hj ▸ hs.owned.block (hj ▸ hl.used _ hh)
    exact view_some.mpr ⟨hlive, rfl⟩

/-- `read()` does what `peek` says: nothing without a byte, or it takes the byte
that `peek` gives. -/
def Agrees (s : System) (data : Option (Fin UIP_CONNS)) (c : Byte) : Prop :=
  ∃ s' client r, readByte s data c = some (s', client, r) ∧ r = peek s data ∧
    (r = none → s' = s) ∧ ∀ b, r = some b → unread s data = b :: unread s' data

/-- Open, with nothing received. -/
def Idle (s : System) : Option (Fin UIP_CONNS) → Prop
  | none => False
  | some u => ¬has (s.allData u).state UIP_CLIENT_REMOTECLOSED ∧ (s.allData u).packetsIn 0 = NOBLOCK

theorem readByte_first (hs : Sound clean s) (hsome : (s.allData u).packetsIn 0 ≠ NOBLOCK) (c : Byte) : Agrees s (some u) c := by
  have hv : s.net.Valid := (hs.tidy u).valid
  obtain ⟨l, q, hq⟩ := hs.queue u
  cases l with
  | nil => exact absurd (hq.head_none.mpr rfl) hsome
  | cons h l =>
    cases q with
    | nil => exact absurd hq.length_eq (Nat.succ_ne_zero _)
    | cons d q =>
      obtain ⟨b, rest, hd⟩ := List.exists_cons_of_ne_nil (hq.nonempty d List.mem_cons_self)
      obtain ⟨s', client, hread, htaken, -⟩ := read_taken (n := 1) hv hq
      have hflat : (d :: q).flatten = b :: (rest ++ q.flatten) := by
        rw [List.flatten_cons, hd]
        rfl
      refine ⟨s', client, some b, ?_, ?_, by rintro ⟨⟩, ?_⟩
      · rw [readByte, hread, hflat]
        rfl
      · rw [peek_queue hv hq, hflat]
        rfl
      · rintro b' ⟨⟩
        rw [hq.unread, htaken.queue.unread, drain_flatten, hflat]
        rfl

/-- In every run, `read()` and `peek` agree but for the handle of an open
connection that has nothing to read. There `read()` returns a variable that it
has not set. -/
theorem readByte_peek {ram : Nat → Byte} {transmissions : List Transmission} {mac : List Byte} {now : BitVec 32}
    {es : List QueueCall} (hrun : Run QueueStep (System.init ram transmissions mac now) es s)
    (data : Option (Fin UIP_CONNS)) (c : Byte) : Agrees s data c ↔ ¬Idle s data := by
  have hs : Sound False s := hrun.invariant (fun hs h => h.sound hs False.elim) (init_sound _ _ _ _)
  cases data with
  | none => exact ⟨fun _ => id, fun _ => ⟨s, none, none, rfl, rfl, fun _ => rfl, by rintro b ⟨⟩⟩⟩
  | some u =>
    by_cases hnone : (s.allData u).packetsIn 0 = NOBLOCK
    · have hpeek : peek s (some u) = none := if_neg fun h => h.2 hnone
      by_cases hr : has (s.allData u).state UIP_CLIENT_REMOTECLOSED
      · -- the -1 of the block read
        have hclosed : operatorBool s (some u) = false := operatorBool_some.mpr ⟨hr, hnone⟩
        have hread : readByte s (some u) c = some (s, some u, none) := by
          rw [readByte, read, if_neg (Bool.eq_false_iff.mp hclosed)]
          rfl
        exact ⟨fun _ hidle => hidle.1 hr, fun _ => ⟨s, some u, none, hread, hpeek.symm, fun _ => rfl, by rintro b ⟨⟩⟩⟩
      · have hopen : operatorBool s (some u) = true := by
          rw [← Bool.not_eq_false, operatorBool_some]
          exact fun hclosed => hr hclosed.1
        have hread : readByte s (some u) c = some (s, some u, some c) := by
          rw [readByte, read, if_pos hopen, if_pos hnone]
          rfl
        refine ⟨?_, fun hidle => absurd ⟨hr, hnone⟩ hidle⟩
        rintro ⟨s', client, r, hresult, hsame, -⟩
        rw [hread] at hresult
        cases hresult
        exact absurd (hsame.trans hpeek) (Option.some_ne_none c)
    · exact ⟨fun _ hidle => hnone hidle.2, fun _ => readByte_first hs hnone c⟩

/-- A connection is set up and two bytes come in. -/
theorem readByte_peek_example : ∃ (es : List QueueCall) (s : System), Run QueueStep (System.init (fun _ => 0) [] [] 0) es s ∧
    (s.allData 0).packetsIn 0 ≠ NOBLOCK ∧ Agrees s (some 0) 9 := by
  have hcompute : ((uipclientAppcall (prompted (System.init (fun _ => 0) [] [] 0) UIP_CONNECTED 0 0) 0).bind fun s₁ =>
      (uipclientAppcall (prompted s₁ UIP_NEWDATA 0 2) 0).map fun s => decide ((s.allData 0).packetsIn 0 ≠ NOBLOCK)) = some true := by
    decide +kernel
  have hs₀ : Sound False (System.init (fun _ => 0) [] [] 0) := init_sound _ _ _ _
  obtain ⟨s₁, h₁, hcompute⟩ := Option.bind_eq_some_iff.mp hcompute
  obtain ⟨s₂, h₂, hcompute⟩ := Option.map_eq_some_iff.mp hcompute
  have hs₁ : Sound False s₁ := appcall_sound (hs₀.beside (prompted_beside hs₀ _ _ _)) (prompted_called _ _ _) False.elim h₁
  have hstart : Run QueueStep (System.init (fun _ => 0) [] [] 0) [] (System.init (fun _ => 0) [] [] 0) := .nil
  have hrun := (((hstart.snoc (.others (prompted_beside hs₀ UIP_CONNECTED 0 0))).snoc (.appcall (prompted_called _ _ _) h₁)).snoc
    (.others (prompted_beside hs₁ UIP_NEWDATA 0 2))).snoc (.appcall (prompted_called _ _ _) h₂)
  have hsome : (s₂.allData 0).packetsIn 0 ≠ NOBLOCK := of_decide_eq_true hcompute
  exact ⟨_, s₂, hrun, hsome, (readByte_peek hrun (some 0) 9).mpr fun hidle => hsome hidle.2⟩

/-- A connection is set up, and nothing has come in. -/
theorem readByte_idle : ∃ (es : List QueueCall) (s : System), Run QueueStep (System.init (fun _ => 0) [] [] 0) es s ∧
    peek s (some 0) = none ∧ ∀ c, readByte s (some 0) c = some (s, some 0, some c) := by
  have hcompute : ((uipclientAppcall (prompted (System.init (fun _ => 0) [] [] 0) UIP_CONNECTED 0 0) 0).map fun s =>
      decide (peek s (some 0) = none ∧ operatorBool s (some 0) = true ∧ (s.allData 0).packetsIn 0 = NOBLOCK)) = some true := by
    decide +kernel
  have hs₀ : Sound False (System.init (fun _ => 0) [] [] 0) := init_sound _ _ _ _
  obtain ⟨s₁, h₁, hcompute⟩ := Option.map_eq_some_iff.mp hcompute
  obtain ⟨hpeek, hopen, hnone⟩ := of_decide_eq_true hcompute
  have hstart : Run QueueStep (System.init (fun _ => 0) [] [] 0) [] (System.init (fun _ => 0) [] [] 0) := .nil
  have hrun := (hstart.snoc (.others (prompted_beside hs₀ UIP_CONNECTED 0 0))).snoc (.appcall (prompted_called _ _ _) h₁)
  refine ⟨_, s₁, hrun, hpeek, fun c => ?_⟩
  rw [readByte, read, if_pos hopen, if_pos hnone]
  rfl

end UIPEthernet.UIPClient
