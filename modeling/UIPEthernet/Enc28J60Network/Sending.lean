import UIPEthernet.Enc28J60Network.Sharing

/-!
# Transmissions and checksums on pool blocks

`sendPacket` writes to its own block only, in front of the frame and behind
it, and hands the bytes between to the transmitter. `chksum` comes back for
every block it is given something of.
-/

namespace UIPEthernet.Enc28J60Network

open Lib MemoryPool

variable {e : Enc28J60Network} {h : Handle} {c : List Byte}

/-- The outcome of the transmission. -/
def outcome (e : Enc28J60Network) : Bool := (e.transmissions.head?.map (·.ok)).getD false

/-- The frame in a block. -/
def frameOf (c : List Byte) : List Byte :=
  (c.drop UIP_SENDBUFFER_OFFSET).take (c.length - (UIP_SENDBUFFER_OFFSET + UIP_SENDBUFFER_PADDING))

theorem take_splice {l r : List Byte} {p n : Nat} (hn : n ≤ p) (hp : p ≤ l.length) :
    (splice l p r).take n = l.take n := by
  rw [splice, List.append_assoc, List.take_append_of_le_length (by simp; omega), List.take_take,
    Nat.min_eq_left hn]

theorem drop_splice {l r : List Byte} {p n : Nat} (hn : p + r.length ≤ n) (hp : p ≤ l.length) :
    (splice l p r).drop n = l.drop n := by
  have hlen : (l.take p ++ r).length = p + r.length := by simp [hp]
  rw [splice, List.drop_append, List.drop_eq_nil_of_le (by omega), List.nil_append, List.drop_drop, hlen]
  congr 1
  omega

/-- What `sendPacket` does to its block. -/
structure Sent (e : Enc28J60Network) (h : Handle) (c : List Byte) (e' : Enc28J60Network)
    (c' : List Byte) : Prop where
  changed : Changed e e' (Function.update e.view h (some c'))
  length : c'.length = c.length
  frame : frameOf c' = frameOf c
  sent : e'.sent = (frameOf c, e.outcome) :: e.sent
  same : e' = { e with ram := e'.ram, transmissions := e'.transmissions, sent := e'.sent }

theorem update_eq_store {m : Nat → Byte} {a : Nat} {x : Byte} :
    Function.update m a x = store m a [x] := by
  rw [store_cons, store_nil]

theorem frameOf_eq {d : List Byte} (hlen : d.length = c.length)
    (h : (d.take (c.length - UIP_SENDBUFFER_PADDING)).drop UIP_SENDBUFFER_OFFSET =
      (c.take (c.length - UIP_SENDBUFFER_PADDING)).drop UIP_SENDBUFFER_OFFSET) : frameOf d = frameOf c := by
  simp only [List.drop_take] at h
  rw [frameOf, frameOf, hlen, Nat.add_comm, ← Nat.sub_sub]
  exact h

/-- The block with the control byte in front. -/
theorem frameOf_control (hlen : UIP_SENDBUFFER_OFFSET + UIP_SENDBUFFER_PADDING ≤ c.length) (x : Byte) :
    frameOf (splice c 0 [x]) = frameOf c := by
  have ho : UIP_SENDBUFFER_OFFSET = 1 := rfl
  have hl : (splice c 0 [x]).length = c.length := splice_length (by simp; omega)
  rw [frameOf, frameOf, hl, ho, drop_splice (by simp) (Nat.zero_le _)]

/-- The block with the status vector behind the frame. -/
theorem frameOf_status (status : List Byte) (hs : status.length ≤ UIP_SENDBUFFER_PADDING)
    (hlen : UIP_SENDBUFFER_OFFSET + UIP_SENDBUFFER_PADDING ≤ c.length) :
    frameOf (splice c (c.length - UIP_SENDBUFFER_PADDING) status) = frameOf c := by
  have hl : (splice c (c.length - UIP_SENDBUFFER_PADDING) status).length = c.length :=
    splice_length (by omega)
  refine frameOf_eq hl ?_
  rw [take_splice (Nat.le_refl _) (Nat.sub_le _ _)]

theorem sendPacket_ok (hv : e.Valid) (hc : e.view h = some c)
    (hlen : UIP_SENDBUFFER_OFFSET + UIP_SENDBUFFER_PADDING ≤ c.length) :
    ∃ e' c', e.sendPacket h = (e', e.outcome) ∧ Sent e h c e' c' := by
  have ho : UIP_SENDBUFFER_OFFSET = 1 := rfl
  have hp : UIP_SENDBUFFER_PADDING = 7 := rfl
  have hm : MEMORY_SIZE = 8192 := rfl
  have hb := hv.bounds hc
  have hl := view_length hc
  let start := (e.blocks h).begin
  have hstart : start % MEMORY_SIZE = start := Nat.mod_eq_of_lt (by omega)
  have hstop : sub16 (add16 start (e.blocks h).size) (UIP_SENDBUFFER_OFFSET + UIP_SENDBUFFER_PADDING) =
      start + (c.length - 8) := by
    rw [add16_eq (by omega), sub16_eq (by omega) (by omega)]
    omega
  -- the control byte
  let ram := store e.ram (start + 0) [0]
  let e₁ : Enc28J60Network := { e with ram }
  have h₁ : Changed e e₁ (Function.update e.view h (some (splice c 0 [0]))) :=
    .of_store hv hc rfl rfl (by simp; omega)
  have hview₁ : e₁.view h = some (splice c 0 [0]) := by rw [h₁.view, Function.update_self]
  have hl₁ : (splice c 0 [(0 : Byte)]).length = c.length := splice_length (by simp; omega)
  -- the frame behind it
  have hframe : (List.range (sub16 (start + (c.length - 8)) start)).map
      (fun i => ram ((start + 1 + i) % MEMORY_SIZE)) = frameOf c := by
    rw [sub16_eq (by omega) (by omega), Nat.add_sub_cancel_left, ← frameOf_control hlen 0, frameOf, hl₁,
      ← (view_some.mp hview₁).2, contents, load_drop, ho, hp, load_take (by rw [← hl]; omega)]
    refine List.map_congr_left fun i hi => ?_
    have := List.mem_range.mp hi
    rw [Nat.mod_eq_of_lt (by omega)]
  have hcontrol : Function.update e.ram (start % MEMORY_SIZE) 0 = ram := by
    rw [hstart, update_eq_store]
    rfl
  cases ht : e.transmissions with
  | nil =>
    let e' : Enc28J60Network := { e₁ with transmissions := [], sent := (frameOf c, false) :: e.sent }
    have hout : e.outcome = false := by rw [outcome, ht]; rfl
    have hsend : e.sendPacket h = (e', false) := by
      simp only [sendPacket, ht]
      rw [hcontrol, hstop, hframe]
    exact ⟨e', splice c 0 [0], hout ▸ hsend, ⟨h₁.valid, h₁.view, h₁.below⟩, hl₁, frameOf_control hlen 0,
      hout ▸ rfl, rfl⟩
  | cons t rest =>
    let status := t.status.take UIP_SENDBUFFER_PADDING
    have hstatus : status.length ≤ 7 := by simp [status, hp]
    have hpos : (start + (c.length - 8) + 1) % MEMORY_SIZE =
        start + (c.length - UIP_SENDBUFFER_PADDING) := by
      rw [Nat.mod_eq_of_lt (by omega)]
      omega
    let e' : Enc28J60Network :=
      { e₁ with
        ram := writeBuffer status ((start + (c.length - 8) + 1) % MEMORY_SIZE) ram
        transmissions := rest
        sent := (frameOf c, t.ok) :: e.sent }
    have hout : e.outcome = t.ok := by rw [outcome, ht]; rfl
    have hsend : e.sendPacket h = (e', t.ok) := by
      simp only [sendPacket, ht]
      rw [hcontrol, hstop, hframe]
    have hwrite : e'.ram = store ram (start + (c.length - UIP_SENDBUFFER_PADDING)) status := by
      show writeBuffer status _ ram = _
      rw [hpos]
      exact writeBuffer_eq (by omega)
    have h₂ : Changed e₁ e' _ := .of_store h₁.valid hview₁ rfl hwrite (by omega)
    rw [h₁.view, Function.update_idem] at h₂
    refine ⟨e', _, hout ▸ hsend, h₁.trans h₂, ?_, ?_, hout ▸ rfl, rfl⟩
    · rw [splice_length (by omega), hl₁]
    · rw [← hl₁, frameOf_status status (by omega) (by omega), frameOf_control hlen 0]

/-- The loop ends when the index cannot wrap. -/
theorem chksumLoop_some {ram : Nat → Byte} {len fuel i erdpt sum : Nat} (hlen : len ≤ 65533)
    (hi : i ≤ len + 1) (hfuel : len + 1 < i + 2 * fuel) :
    ∃ r, chksumLoop ram len fuel i erdpt sum = some r := by
  induction fuel generalizing i erdpt sum with
  | zero => omega
  | succ fuel ih =>
    rw [chksumLoop]
    split
    · rw [add16_eq (by omega)]
      exact ih (by omega) (by omega)
    · split
      · exact ⟨_, rfl⟩
      · exact ⟨_, rfl⟩

theorem chksum_ok {sum pos len : Nat} (hv : e.Valid) (hc : e.view h = some c) (hpos : pos < c.length)
    (hlen : 1 ≤ len) : ∃ r, e.chksum sum h pos len = some r := by
  have hb := hv.bounds hc
  have hl := view_length hc
  have hm : MEMORY_SIZE = 8192 := rfl
  have hpacket : e.packet h = e.blocks h := if_neg (view_ne hc).2
  have hclip := clip_eq (hl ▸ Nat.le_of_lt hpos) (by omega) len
  simp only [chksum, setReadPtr, hpacket, hclip]
  rw [sub16_eq (by omega) (by omega)]
  exact chksumLoop_some (by omega) (by omega) (by omega)

end UIPEthernet.Enc28J60Network
