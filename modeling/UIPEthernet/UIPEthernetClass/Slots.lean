import UIPEthernet.Lib.Ownership
import UIPEthernet.NetworkSend
import UIPEthernet.UIPClient.Correspondence

/-!
# Where blocks are held

The handles of the pool lie in the queues of the `all_data` entries and in the
three fields of a `UIPUDP` object. `Owned` says that each of them is the handle
of a block, which no other slot holds. `Keeps` is what a function does that
works on some of the slots only.
-/

namespace UIPEthernet

open Lib Enc28J60Network

inductive Slot
  | packetsIn (u : Fin UIP_CONNS) (i : Fin UIP_SOCKET_NUMPACKETS)
  | packetsOut (u : Fin UIP_CONNS) (i : Fin UIP_SOCKET_NUMPACKETS)
  | packetNext (k : Nat)
  | packetIn (k : Nat)
  | packetOut (k : Nat)
deriving DecidableEq

namespace Slot

/-- The queues of an entry. -/
def ofEntry (u : Fin UIP_CONNS) : Slot → Prop
  | packetsIn v _ | packetsOut v _ => v = u
  | _ => False

/-- The queues of some entry. -/
def ofTcp : Slot → Prop
  | packetsIn _ _ | packetsOut _ _ => True
  | _ => False

def ofSocket (k : Nat) : Slot → Prop
  | packetNext j | packetIn j | packetOut j => j = k
  | _ => False

/-- A slot of `packets_out` of an entry. -/
def isOut : Slot → Bool
  | packetsOut _ _ => true
  | _ => false

theorem ofEntry.tcp {u : Fin UIP_CONNS} {x : Slot} (h : x.ofEntry u) : x.ofTcp := by
  cases x with
  | packetsIn _ _ => trivial
  | packetsOut _ _ => trivial
  | packetNext _ => exact h
  | packetIn _ => exact h
  | packetOut _ => exact h

end Slot

/-- An entry in use whose `packets_out` is not the place of a port. -/
def Userdata.sends (d : Userdata) : Bool := d.state != 0 && !has d.state UIP_CLIENT_REMOTECLOSED

namespace System

def own (s : System) : Slot → Handle
  | .packetsIn u i => (s.allData u).packetsIn i
  | .packetsOut u i => if (s.allData u).sends then (s.allData u).packetsOut i else NOBLOCK
  | .packetNext k => (s.sockets k).appdata.packetNext
  | .packetIn k => (s.sockets k).appdata.packetIn
  | .packetOut k => (s.sockets k).appdata.packetOut

def sizeAt (s : System) (h : Handle) : Nat := (s.net.blocks h).size

/-- Every handle is that of a block. The length of a received one fits into 16
bits. -/
def Owned (s : System) : Prop :=
  Holds s.own fun x h => s.sizeAt h ≠ 0 ∧ h ≤ MEMPOOL_NUM_MEMBLOCKS ∧ (x.isOut = false → s.sizeAt h < 65536)

/-- The slots that are not `mine` stay, and so do the sizes of their blocks. -/
structure Retains (mine : Slot → Prop) (s s' : System) : Prop where
  owned : s'.Owned
  own : ∀ x, ¬mine x → s'.own x = s.own x
  size : ∀ x, ¬mine x → s.own x ≠ NOBLOCK → s'.sizeAt (s.own x) = s.sizeAt (s.own x)

/-- Nor is a frame transmitted. -/
structure Keeps (mine : Slot → Prop) (s s' : System) : Prop extends Retains mine s s' where
  sent : s'.net.sent = s.net.sent

variable {s s' s₁ s₂ : System} {mine : Slot → Prop} {net : Enc28J60Network} {u : Fin UIP_CONNS} {k : Nat} {h : Handle}

theorem Retains.refl (ho : s.Owned) : Retains mine s s := ⟨ho, fun _ _ => rfl, fun _ _ _ => rfl⟩

theorem Retains.trans (h : Retains mine s s₁) (h' : Retains mine s₁ s₂) : Retains mine s s₂ := by
  refine ⟨h'.owned, fun x hx => (h'.own x hx).trans (h.own x hx), fun x hx hne => ?_⟩
  have hsize := h'.size x hx
  rw [h.own x hx] at hsize
  exact (hsize hne).trans (h.size x hx hne)

theorem Retains.mono {mine' : Slot → Prop} (h : Retains mine s s') (hmine : ∀ x, mine x → mine' x) : Retains mine' s s' :=
  ⟨h.owned, fun x hx => h.own x fun hm => hx (hmine x hm), fun x hx => h.size x fun hm => hx (hmine x hm)⟩

theorem Keeps.refl (ho : s.Owned) : Keeps mine s s := ⟨.refl ho, rfl⟩

theorem Keeps.trans (h : Keeps mine s s₁) (h' : Keeps mine s₁ s₂) : Keeps mine s s₂ :=
  ⟨h.toRetains.trans h'.toRetains, h'.sent.trans h.sent⟩

theorem Keeps.mono {mine' : Slot → Prop} (h : Keeps mine s s') (hmine : ∀ x, mine x → mine' x) : Keeps mine' s s' :=
  ⟨h.toRetains.mono hmine, h.sent⟩

-- ---------------------------------------------------------------------------
-- What the pool does
-- ---------------------------------------------------------------------------

theorem own_congr (hdata : s'.allData = s.allData) (hsockets : s'.sockets = s.sockets) : s'.own = s.own := by
  funext x
  cases x <;> simp only [own, hdata, hsockets]

theorem Owned.live {x : Slot} (ho : s.Owned) (hx : s.own x ≠ NOBLOCK) : s.sizeAt (s.own x) ≠ 0 := (ho.good hx).1

/-- The pool is left alone, or nothing but its other blocks. -/
theorem Owned.same (ho : s.Owned) (hown : ∀ x, s'.own x = s.own x)
    (hsize : ∀ x, s.own x ≠ NOBLOCK → s'.sizeAt (s.own x) = s.sizeAt (s.own x)) : Retains mine s s' := by
  refine ⟨ho.drop (fun x _ => hown x) fun x hx => ?_, fun x _ => hown x, fun x _ => hsize x⟩
  rw [hown x] at hx ⊢
  rw [hsize x hx]
  exact ho.good hx

/-- Neither the entries nor the sockets nor the pool are touched. -/
theorem Owned.aside (ho : s.Owned) (hdata : s'.allData = s.allData) (hsockets : s'.sockets = s.sockets)
    (hblocks : s'.net.blocks = s.net.blocks) (hsent : s'.net.sent = s.net.sent) : Keeps mine s s' :=
  ⟨ho.same (fun x => by rw [own_congr hdata hsockets]) fun x _ => by rw [sizeAt, sizeAt, hblocks], hsent⟩

theorem OnlyUip.keeps (ho : s.Owned) (h : OnlyUip s s') : Keeps mine s s' :=
  ho.aside h.allData h.sockets (by rw [h.net]) (by rw [h.net])

/-- A slot gets a new block. -/
theorem Owned.allocated {n : Nat} {x : Slot} (ho : s.Owned) (halloc : s.net.allocBlock n = some (net, h)) (hn : n ≠ 0)
    (hmine : mine x) (hblocks : s'.net.blocks = net.blocks) (hsent : s'.net.sent = net.sent) (hself : s'.own x = h)
    (hothers : ∀ y, y ≠ x → s'.own y = s.own y) : Keeps mine s s' := by
  have hsize : ∀ j, s'.sizeAt j = (net.blocks j).size := fun j => by rw [sizeAt, hblocks]
  have hkept : ∀ y, s.own y ≠ NOBLOCK → s'.sizeAt (s.own y) = s.sizeAt (s.own y) := fun y hy => by
    rw [hsize]
    exact (allocBlock_size halloc (ho.live hy) hy).2
  refine ⟨⟨ho.put (x := x) (fun hx => ?_) hothers fun y _ hy => ?_, fun y hy => hothers y fun he => hy (he ▸ hmine),
    fun y _ => hkept y⟩, hsent.trans (allocBlock_sent halloc)⟩
  · rw [hself] at hx ⊢
    refine ⟨fun y hy => (allocBlock_size halloc (ho.live hy) hy).1, ?_⟩
    rw [hsize, allocBlock_new halloc hx]
    exact ⟨hn, allocBlock_handle halloc, fun _ => allocBlock_lt halloc hx⟩
  · rw [hkept y hy]
    exact ho.good hy

/-- A block for no slot, which none holds. -/
theorem Owned.borrowed {n : Nat} (ho : s.Owned) (halloc : s.net.allocBlock n = some (net, h))
    (hblocks : s'.net.blocks = net.blocks) (hsent : s'.net.sent = net.sent) (hown : s'.own = s.own) :
    Keeps mine s s' ∧ ∀ x, s.own x ≠ NOBLOCK → s.own x ≠ h := by
  refine ⟨⟨ho.same (fun x => by rw [hown]) fun x hx => ?_, hsent.trans (allocBlock_sent halloc)⟩, fun x hx => ?_⟩
  · rw [sizeAt, hblocks]
    exact (allocBlock_size halloc (ho.live hx) hx).2
  · exact (allocBlock_size halloc (ho.live hx) hx).1

/-- Blocks are freed and their slots emptied, and others may be passed on. -/
theorem Owned.freed (ho : s.Owned) (gone : Slot → Prop) (source : Slot → Slot)
    (hsize : ∀ j, (∀ x, gone x → s.own x ≠ j) → s'.sizeAt j = s.sizeAt j)
    (hfrom : ∀ x, s'.own x ≠ NOBLOCK → s'.own x = s.own (source x) ∧ ¬gone (source x))
    (hinj : ∀ x y, source x = source y → x = y) (hkind : ∀ x, (source x).isOut = x.isOut)
    (hmine : ∀ x, ¬mine x → s'.own x = s.own x ∧ ¬gone x) : Retains mine s s' := by
  have hkept : ∀ x, ¬gone x → s.own x ≠ NOBLOCK → s'.sizeAt (s.own x) = s.sizeAt (s.own x) := by
    intro x hx hne
    refine hsize _ fun y hy he => hx ?_
    rwa [ho.distinct hne he.symm]
  refine ⟨ho.pass source (fun x hx => (hfrom x hx).1) (fun x y _ _ => hinj x y) fun x hx => ?_, fun x hx => (hmine x hx).1,
    fun x hx => hkept x (hmine x hx).2⟩
  obtain ⟨hown, hgone⟩ := hfrom x hx
  rw [hown] at hx ⊢
  rw [hkept _ hgone hx, ← hkind x]
  exact ho.good hx

/-- The block of a slot gets another size. -/
theorem Owned.resized {x : Slot} (ho : s.Owned) (hmine : mine x) (hown : s'.own = s.own)
    (hself : s.own x ≠ NOBLOCK → s'.sizeAt (s.own x) ≠ 0 ∧ (x.isOut = false → s'.sizeAt (s.own x) < 65536))
    (hothers : ∀ j, j ≠ s.own x → s'.sizeAt j = s.sizeAt j) : Retains mine s s' := by
  have hkept : ∀ y, y ≠ x → s.own y ≠ NOBLOCK → s'.sizeAt (s.own y) = s.sizeAt (s.own y) :=
    fun y hy hne => hothers _ (ho.ne hne hy)
  refine ⟨ho.drop (fun y _ => by rw [hown]) fun y hy => ?_, fun y _ => by rw [hown], fun y hy => hkept y ?_⟩
  · rw [hown] at hy ⊢
    by_cases hyx : y = x
    · rw [hyx] at hy ⊢
      exact ⟨(hself hy).1, (ho.good hy).2.1, (hself hy).2⟩
    · rw [hkept y hyx hy]
      exact ho.good hy
  · rintro rfl
    exact hy hmine

/-- A received block is not read up to its end. -/
theorem Owned.read_rest {x : Slot} {len : Nat} (ho : s.Owned) (hmine : mine x) (hx : s.own x ≠ NOBLOCK)
    (hin : x.isOut = false) (hrest : (s.net.readPacket (s.own x) 0 len).length ≠ s.net.blockSize (s.own x)) :
    Keeps mine s (s.setNet (s.net.resizeBlock (s.own x) (s.net.readPacket (s.own x) 0 len).length)) := by
  obtain ⟨-, hhandle, hlt⟩ := ho.good hx
  obtain ⟨hpos, hlt'⟩ := resizeBlock_rest hx hhandle (hlt hin) hrest
  exact ⟨ho.resized hmine rfl (fun _ => ⟨hpos, fun _ => hlt'⟩) fun j hj => resizeBlock_other _ hj, rfl⟩

-- ---------------------------------------------------------------------------
-- What network_send does
-- ---------------------------------------------------------------------------

theorem networkSend_state {ok : Bool} (h : s.networkSend = some (s', ok)) :
    s'.uip = s.uip ∧ ¬has s'.packetstate UIPETHERNET_SENDPACKET := by
  simp only [networkSend, Option.bind_eq_bind, Option.pure_def] at h
  split at h
  · have hclear : ¬has (s.packetstate &&& ~~~UIPETHERNET_SENDPACKET) UIPETHERNET_SENDPACKET := by
      rw [has_clear]
      exact Bool.false_ne_true
    split at h
    · obtain ⟨net, -, h⟩ := Option.bind_eq_some_iff.mp h
      cases h
      exact ⟨rfl, hclear⟩
    · cases h
      exact ⟨rfl, hclear⟩
  · rename_i hset
    obtain ⟨⟨net, b⟩, -, h⟩ := Option.bind_eq_some_iff.mp h
    split at h
    · cases h
      exact ⟨rfl, hset⟩
    · obtain ⟨net', -, h⟩ := Option.bind_eq_some_iff.mp h
      cases h
      exact ⟨rfl, hset⟩

/-- No slot has the block that is given back. -/
theorem networkSend_retains {ok : Bool} (ho : s.Owned) (h : s.networkSend = some (s', ok))
    (hfree : has s.packetstate UIPETHERNET_SENDPACKET → ok = true → ∀ x, s.own x ≠ NOBLOCK → s.own x ≠ s.uipPacket) :
    Retains mine s s' := by
  have honly := networkSend_only h
  refine ho.same (fun x => by rw [own_congr honly.allData honly.sockets]) fun x hx => ?_
  exact networkSend_size h (ho.live hx) hx fun hset hok => hfree hset hok x hx

/-- Only the packet that is set up is given back. -/
theorem networkSend_others {ok : Bool} {j : Handle} (h : s.networkSend = some (s', ok))
    (hset : has s.packetstate UIPETHERNET_SENDPACKET) (hj : j ≠ s.uipPacket) : s'.sizeAt j = s.sizeAt j := by
  obtain ⟨-, net, hsent, hnet⟩ | ⟨hunset, -⟩ := networkSend_cases h
  · have hblocks := (sendPacket_blocks _ s.uipPacket).trans (writePacket_blocks s.net s.uipPacket UIP_SENDBUFFER_OFFSET
      (load s.uip.uipBuf 0 s.uipHdrlen))
    rw [hsent] at hblocks
    have hsize : (net.blocks j).size = s.sizeAt j := congrArg (fun b : Blocks => (b j).size) hblocks
    split at hnet
    · exact (freeBlock_size hnet hj).trans hsize
    · rw [sizeAt, hnet]
      exact hsize
  · exact absurd hset hunset

/-- Every frame that has been transmitted is as long as `uip_len` says. -/
def Exact (s s' : System) : Prop :=
  ∃ frames, s'.net.sent = frames ++ s.net.sent ∧ ∀ f ∈ frames, f.1.length = s'.uip.uipLen

theorem Exact.none (h : s'.net.sent = s.net.sent) : Exact s s' := ⟨[], h, fun _ hf => absurd hf List.not_mem_nil⟩

theorem Exact.before (h : s₁.net.sent = s.net.sent) (h' : Exact s₁ s') : Exact s s' := by
  obtain ⟨frames, hsent, hlen⟩ := h'
  exact ⟨frames, by rw [hsent, h], hlen⟩

theorem networkSend_exact {ok : Bool} (h : s.networkSend = some (s', ok)) (hlen : s.frameLength = s.uip.uipLen) :
    Exact s s' := by
  obtain ⟨frames, hsent, -, hframes⟩ := networkSend_length h
  refine ⟨frames, hsent, fun f hf => ?_⟩
  rw [hframes f hf, hlen, (networkSend_state h).1]

end System

end UIPEthernet
