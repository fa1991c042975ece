import UIPEthernet.UIPClient.Write

/-!
# UIPServer::write

The loop over the entries adds the results of `_write` in a `size_t`, -1 for an
entry that is found closed among them.
-/

namespace UIPEthernet

namespace UIPClient

/-- An entry that is not closed, as the check of `_write` sees it. -/
def Open (s : System) (u : Fin UIP_CONNS) : Prop := ¬has (s.allData u).state (UIP_CLIENT_CLOSE ||| UIP_CLIENT_REMOTECLOSED)

variable {s s' : System} {u : Fin UIP_CONNS} {buf : List Byte} {r : Option (List Byte)} {n : Nat} {checks : List System}

/-- What a `_write` does not leave is in the blocks; one that returns -1 has
put some of the buffer there, but not all of it. -/
theorem Write.bytes (h : Write (some u) s buf s' r n checks) : n ≤ buf.length ∧
    (∀ rest, r = some rest → n + rest.length = buf.length ∧ ¬positive rest.length) ∧ (r = none → buf ≠ [] → n < buf.length) := by
  have hattempt : ∀ {s₁ s₂ : System} {now : BitVec 32} {buf rest : List Byte} {a : Attempt},
      attempt s₁ (some u) now buf = some (s₂, a) → a.rest = some rest →
      writtenBytes s₂.history - writtenBytes s₁.history + rest.length = buf.length := by
    intro s₁ s₂ now buf rest a ha hrest
    rcases attempt_cases ha with ⟨-, -, rfl⟩ | ⟨-, rest', hrest', hle, hbytes⟩
    · exact absurd hrest.symm (Option.some_ne_none rest)
    · obtain rfl : rest' = rest := Option.some.inj (hrest'.symm.trans hrest)
      omega
  induction h with
  | again _ ha _ ih =>
    have hround := hattempt ha rfl
    obtain ⟨hle, hrest, hnone⟩ := ih
    refine ⟨by omega, fun rest hr => ?_, fun hr hne => ?_⟩
    · obtain ⟨hlen, hleft⟩ := hrest rest hr
      exact ⟨by omega, hleft⟩
    · have hmore := hnone hr ((attempt_ends ha).1 _ rfl hne)
      omega
  | ready _ ha =>
    have hround := hattempt ha rfl
    refine ⟨by omega, fun rest hr => ?_, fun hr => absurd hr (Option.some_ne_none _)⟩
    cases hr
    exact ⟨hround, (attempt_ends ha).2 _ rfl⟩
  | closed _ ha =>
    obtain ⟨-, rfl, -⟩ | ⟨-, rest, hrest, -⟩ := attempt_cases ha
    · rw [Nat.sub_self]
      exact ⟨Nat.zero_le _, fun rest hr => absurd hr.symm (Option.some_ne_none rest), fun _ hne => List.length_pos_iff.mpr hne⟩
    · exact absurd hrest.symm (Option.some_ne_none rest)

/-- `_write` returns -1 if and only if one of its checks finds the entry closed. -/
theorem Write.none_iff (h : Write (some u) s buf s' r n checks) : r = none ↔ ∃ t ∈ checks, ¬Open t u := by
  have hopen : ∀ {s₁ s₂ : System} {now : BitVec 32} {buf rest : List Byte} {a : Attempt},
      attempt s₁ (some u) now buf = some (s₂, a) → a.rest = some rest → Open s₁ u := by
    intro s₁ s₂ now buf rest a ha hrest
    rcases attempt_cases ha with ⟨-, -, rfl⟩ | ⟨hopen, -⟩
    · exact absurd hrest.symm (Option.some_ne_none rest)
    · exact hopen
  induction h with
  | again _ ha _ ih =>
    refine ih.trans ?_
    rw [List.exists_mem_cons_iff]
    exact (or_iff_right (not_not_intro (hopen ha rfl))).symm
  | ready _ ha =>
    rw [List.exists_mem_cons_iff]
    refine iff_of_false (Option.some_ne_none _) ?_
    rintro (hclosed | ⟨t, ht, -⟩)
    · exact hclosed (hopen ha rfl)
    · exact absurd ht List.not_mem_nil
  | closed _ ha =>
    refine iff_of_true rfl ⟨_, List.mem_singleton_self _, not_not_intro ?_⟩
    obtain ⟨hclosed, -⟩ | ⟨-, rest, hrest, -⟩ := attempt_cases ha
    · exact hclosed
    · exact absurd hrest.symm (Option.some_ne_none rest)

end UIPClient

namespace UIPServer

open Lib UIPEthernet.System UIPClient

/-- The test of the loop: `data` is an entry of a connection to the port. -/
def serves (s : System) (port : Nat) (data : Fin UIP_CONNS) : Bool :=
  has (s.allData data).state UIP_CLIENT_CONNECTED &&
    (s.uipConns (Fin.ofNat UIP_CONNS ((s.allData data).state &&& UIP_CLIENT_SOCKETS).toNat)).lport == port

/-- A call of `_write` in the loop: the states that its checks see, what is left
of the buffer, `none` for -1, and the number of bytes put into blocks. -/
structure Call where
  data : Fin UIP_CONNS
  checks : List System
  rest : Option (List Byte)
  bytes : Nat

/-- `write(buf, size)` over the entries, with its calls of `_write`. -/
inductive Write (port : Nat) (buf : List Byte) : List (Fin UIP_CONNS) → System → System → List Call → Prop
  | nil (s : System) : Write port buf [] s s []
  | skip (hother : ¬serves s port data) (hrest : Write port buf entries s s' calls) : Write port buf (data :: entries) s s' calls
  | write (hserves : serves s port data) (h : UIPClient.Write (some data) s buf s₁ r n checks)
      (hrest : Write port buf entries s₁ s' calls) : Write port buf (data :: entries) s s' (⟨data, checks, r, n⟩ :: calls)

/-- The sum that `write` returns. -/
def total (size : Nat) (calls : List Call) : Nat := calls.foldl (fun ret call => add16 ret (returned size call.rest)) 0

/-- The number of bytes in the queues. -/
def delivered (calls : List Call) : Nat := (calls.map Call.bytes).sum

/-- No check finds the entry closed. -/
def Call.Open (call : Call) : Prop := ∀ t ∈ call.checks, UIPClient.Open t call.data

variable {s s' : System} {port size : Nat} {buf : List Byte} {entries : List (Fin UIP_CONNS)} {calls : List Call} {call : Call}

/-- What a call of `_write` leaves and returns. -/
structure Counted (size : Nat) (call : Call) : Prop where
  le : call.bytes ≤ size
  rest : ∀ rest, call.rest = some rest → call.bytes + rest.length = size ∧ ¬positive rest.length
  cut : call.rest = none → call.bytes < max size 1
  closed : call.rest = none ↔ ¬call.Open

theorem Write.counted (h : Write port buf entries s s' calls) :
    calls.length ≤ entries.length ∧ ∀ call ∈ calls, Counted buf.length call := by
  induction h with
  | nil => exact ⟨Nat.le_refl _, fun call hcall => absurd hcall List.not_mem_nil⟩
  | skip _ _ ih => exact ⟨Nat.le_succ_of_le ih.1, ih.2⟩
  | write _ h _ ih =>
    refine ⟨Nat.succ_le_succ ih.1, fun call hcall => ?_⟩
    rcases List.mem_cons.mp hcall with rfl | hcall
    · obtain ⟨hle, hrest, hcut⟩ := h.bytes
      refine ⟨hle, hrest, fun hnone => ?_, h.none_iff.trans (by simp only [Call.Open, not_forall, exists_prop])⟩
      by_cases hbuf : buf = []
      · subst hbuf
        exact Nat.lt_of_le_of_lt hle (Nat.lt_of_lt_of_le Nat.one_pos (Nat.le_max_right _ _))
      · exact Nat.lt_of_lt_of_le (hcut hnone hbuf) (Nat.le_max_left _ _)
    · exact ih.2 call hcall

/-- The calls that returned -1. -/
def failures (calls : List Call) : List Call := calls.filter fun call => call.rest.isNone

/-- The sum falls behind by one, and by what had been written, for each call
that returned -1. -/
theorem total_counts (hcalls : ∀ call ∈ calls, Counted size call) :
    (total size calls + delivered (failures calls) + (failures calls).length) % 65536 = delivered calls % 65536 := by
  have hfold : ∀ ret, (calls.foldl (fun ret call => add16 ret (returned size call.rest)) ret + delivered (failures calls) +
      (failures calls).length) % 65536 = (ret + delivered calls) % 65536 := by
    induction calls with
    | nil => exact fun ret => rfl
    | cons call calls ih =>
      intro ret
      have htail := ih (fun call hcall => hcalls call (List.mem_cons_of_mem _ hcall)) (add16 ret (returned size call.rest))
      have hcounted := hcalls call List.mem_cons_self
      obtain ⟨data, checks, r, n⟩ := call
      rw [add16] at htail
      cases r with
      | none =>
        simp only [List.foldl_cons, failures, List.filter_cons, Option.isNone_none, if_true, delivered, List.map_cons,
          List.sum_cons, List.length_cons, returned, add16] at htail ⊢
        omega
      | some rest =>
        have hsize := (hcounted.rest rest rfl).1
        simp only [List.foldl_cons, failures, List.filter_cons, Option.isNone_some, Bool.false_eq_true, if_false, delivered,
          List.map_cons, List.sum_cons, returned, add16, sub16] at htail hsize ⊢
        omega
  have := hfold 0
  rwa [Nat.zero_add] at this

theorem total_lt (size : Nat) (calls : List Call) : total size calls < 65536 := by
  have hfold : ∀ ret < 65536, calls.foldl (fun ret call => add16 ret (returned size call.rest)) ret < 65536 := by
    induction calls with
    | nil => exact fun ret h => h
    | cons call calls ih => exact fun ret _ => ih _ (add16_lt _ _)
  exact hfold 0 (by decide)

theorem delivered_le (hcalls : ∀ call ∈ calls, call.bytes ≤ size) : delivered calls ≤ calls.length * size := by
  have hsum := List.sum_le_card_nsmul (calls.map Call.bytes) size (by simpa using hcalls)
  rwa [List.length_map] at hsum

/-- What the sum falls behind by. -/
theorem failures_le (hcalls : ∀ call ∈ calls, Counted size call) :
    delivered (failures calls) + (failures calls).length ≤ calls.length * max size 1 := by
  have hcut : ∀ call ∈ failures calls, call.bytes ≤ max size 1 - 1 := by
    intro call hcall
    obtain ⟨hmem, hnone⟩ := List.mem_filter.mp hcall
    exact Nat.le_pred_of_lt ((hcalls call hmem).cut (Option.isNone_iff_eq_none.mp hnone))
  have hfew : (failures calls).length ≤ calls.length := List.length_filter_le _ _
  have hpos : max size 1 = max size 1 - 1 + 1 := (Nat.succ_pred_eq_of_pos (Nat.lt_of_lt_of_le Nat.one_pos (Nat.le_max_right _ _))).symm
  calc delivered (failures calls) + (failures calls).length
      ≤ (failures calls).length * (max size 1 - 1) + (failures calls).length := Nat.add_le_add_right (delivered_le hcut) _
    _ = (failures calls).length * max size 1 := by rw [← Nat.mul_succ, Nat.succ_eq_add_one, ← hpos]
    _ ≤ calls.length * max size 1 := Nat.mul_le_mul_right _ hfew

theorem failures_nil_iff (hcalls : ∀ call ∈ calls, Counted size call) : failures calls = [] ↔ ∀ call ∈ calls, call.Open := by
  rw [failures, List.filter_eq_nil_iff]
  exact forall₂_congr fun call hcall => by rw [Option.isNone_iff_eq_none, (hcalls call hcall).closed, not_not]

/-- Without a closed entry everything is written. -/
theorem delivered_open (hsize : size < 32768) (hcalls : ∀ call ∈ calls, Counted size call) (hopen : ∀ call ∈ calls, call.Open) :
    delivered calls = calls.length * size := by
  have hall : ∀ n ∈ calls.map Call.bytes, n = size := by
    intro n hn
    obtain ⟨call, hcall, rfl⟩ := List.mem_map.mp hn
    have hcounted := hcalls call hcall
    obtain ⟨rest, hrest⟩ := Option.ne_none_iff_exists'.mp fun hnone => hcounted.closed.mp hnone (hopen call hcall)
    obtain ⟨hlen, hleft⟩ := hcounted.rest rest hrest
    simp only [positive, Bool.and_eq_true, decide_eq_true_eq] at hleft
    omega
  rw [delivered, List.sum_eq_card_nsmul _ _ hall, List.length_map]
  rfl

/-- One client, and a `_write` that ends with its first attempt. -/
theorem one_client {s₁ : System} {r : Option (List Byte)} {n : Nat} {checks : List System} (hserves : serves s port 0)
    (h : UIPClient.Write (some 0) s buf s₁ r n checks) (hothers : ∀ u ≠ 0, ¬serves s₁ port u) :
    Write port buf (List.finRange UIP_CONNS) s s₁ [⟨0, checks, r, n⟩] :=
  .write hserves h (.skip (hothers 1 (by decide)) (.skip (hothers 2 (by decide)) (.skip (hothers 3 (by decide)) (.nil s₁))))

end UIPServer

end UIPEthernet
