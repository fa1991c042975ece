import UIPEthernet.UIPEthernetClass.Settings
import UIPEthernet.UIPEthernetClass.Steps
import UIPEthernet.Lib.Cache

/-!
# The ARP table

`uip_arp_update` writes the entry of an address over, or takes an unused entry,
or the oldest one. Nothing calls `uip_arp_timer`, so no entry is older than
another, and the oldest is the first.
-/

namespace UIPEthernet

open Lib

/-- An address that `uip_arp_update` tells from that of an unused entry. -/
def usable (ipaddr : BitVec 32) : Bool := ipaddr.extractLsb' 16 16 != 0 && ipaddr.extractLsb' 0 16 != 0

namespace ArpEntry

variable {e : ArpEntry} {ipaddr : BitVec 32} {ethaddr : List Byte}

def slot (e : ArpEntry) : Option (BitVec 32 × List Byte) := if e.used then some (e.ipaddr, e.ethaddr) else none

theorem slot_eq_some : e.slot = some (ipaddr, ethaddr) ↔ usable ipaddr ∧ e.ipaddr = ipaddr ∧ e.ethaddr = ethaddr := by
  rw [slot]
  split
  · rename_i hused
    rw [Option.some.injEq, Prod.mk.injEq]
    constructor
    · rintro ⟨rfl, rfl⟩
      exact ⟨hused, rfl, rfl⟩
    · exact And.right
  · rename_i hunused
    constructor
    · rintro ⟨⟩
    · rintro ⟨husable, rfl, rfl⟩
      exact absurd husable hunused

theorem slot_of_usable {time : BitVec 8} (h : usable ipaddr) : slot ⟨ipaddr, ethaddr, time⟩ = some (ipaddr, ethaddr) := if_pos h

end ArpEntry

namespace Uip

variable {u : Uip} {ipaddr a : BitVec 32} {ethaddr m : List Byte} {i : Fin UIP_ARPTAB_SIZE}

def slots (u : Uip) (i : Fin UIP_ARPTAB_SIZE) : Option (BitVec 32 × List Byte) := (u.arpTable i).slot

-- ---------------------------------------------------------------------------
-- One update
-- ---------------------------------------------------------------------------

/-- Where `uip_arp_update` puts an address. -/
inductive Placement (u : Uip) (ipaddr : BitVec 32) (i : Fin UIP_ARPTAB_SIZE) : Prop
  | again (hused : (u.arpTable i).used) (hsame : (u.arpTable i).ipaddr = ipaddr)
  | fresh (hnew : ∀ j, (u.arpTable j).used → (u.arpTable j).ipaddr ≠ ipaddr)
      (hplace : (u.arpTable i).ipaddr = 0 ∨ (∀ j, (u.arpTable j).ipaddr ≠ 0) ∧ i = u.arpOldest)

theorem arpUpdate_placed (u : Uip) (ipaddr : BitVec 32) (ethaddr : List Byte) :
    ∃ i, Placement u ipaddr i ∧
      (u.arpUpdate ipaddr ethaddr).arpTable = Function.update u.arpTable i ⟨ipaddr, ethaddr, u.arptime⟩ := by
  simp only [arpUpdate]
  split
  · rename_i i hfind
    have hi := List.find?_some hfind
    simp only [Bool.and_eq_true, beq_iff_eq] at hi
    refine ⟨i, .again hi.1 hi.2, ?_⟩
    rw [← hi.2]
  · rename_i hnone
    refine ⟨_, .fresh (fun j hused hsame => ?_) ?_, rfl⟩
    · have hmiss := List.find?_eq_none.mp hnone j (List.mem_finRange j)
      exact hmiss (by rw [hused, hsame, beq_self_eq_true, Bool.and_self])
    · cases hempty : (List.finRange UIP_ARPTAB_SIZE).find? fun i => (u.arpTable i).ipaddr == 0 with
      | none => exact .inr ⟨fun j hj => List.find?_eq_none.mp hempty j (List.mem_finRange j) (beq_iff_eq.mpr hj), rfl⟩
      | some i => exact .inl (by simpa using List.find?_some hempty)

theorem slots_update {v : Uip} {e : ArpEntry} (h : v.arpTable = Function.update u.arpTable i e) :
    v.slots = Function.update u.slots i e.slot := by
  funext j
  rw [slots, h]
  exact Function.apply_update (fun _ => ArpEntry.slot) u.arpTable i e j

/-- The table is a cache of what was announced. -/
theorem told_coherent {writes : List (BitVec 32 × List Byte)} {x : Option (BitVec 32 × List Byte)}
    (h : Coherent u.slots (latest writes)) : Coherent (u.told x).slots (latest (writes ++ x.toList)) := by
  cases x with
  | none => rwa [Option.toList_none, List.append_nil]
  | some x =>
    obtain ⟨ipaddr, ethaddr⟩ := x
    obtain ⟨i, hplace, htable⟩ := u.arpUpdate_placed ipaddr ethaddr
    have hslots : (u.told (some (ipaddr, ethaddr))).slots = _ := slots_update htable
    rw [Option.toList_some, latest_append, hslots]
    by_cases husable : usable ipaddr
    · rw [ArpEntry.slot_of_usable husable]
      refine h.write fun {j m} hslot => ?_
      obtain ⟨-, hj, -⟩ := ArpEntry.slot_eq_some.mp hslot
      cases hplace with
      | again hused hsame =>
        exact h.distinct hslot (ArpEntry.slot_eq_some.mpr ⟨husable, hsame, rfl⟩)
      | fresh hnew => exact absurd hj (hnew j (by rwa [ArpEntry.used, hj]))
    · have hnone : ArpEntry.slot ⟨ipaddr, ethaddr, u.arptime⟩ = none := if_neg husable
      rw [hnone]
      refine h.erase.miss fun {j m} hslot => ?_
      by_cases hj : j = i
      · rw [hj, Function.update_self] at hslot
        cases hslot
      · rw [Function.update_of_ne hj] at hslot
        exact husable (ArpEntry.slot_eq_some.mp hslot).1

/-- An entry is empty or has an address that can be told from an empty one. -/
def Tidy (u : Uip) : Prop := ∀ i, (u.arpTable i).ipaddr = 0 ∨ usable (u.arpTable i).ipaddr

theorem Tidy.update {v : Uip} (h : Tidy u) (husable : usable ipaddr)
    (htable : v.arpTable = Function.update u.arpTable i ⟨ipaddr, ethaddr, u.arptime⟩) : Tidy v := by
  intro j
  rw [htable]
  by_cases hj : j = i
  · rw [hj, Function.update_self]
    exact .inr husable
  · rw [Function.update_of_ne hj]
    exact h j

/-- While there are not more addresses than entries, the table has them all. -/
theorem told_complete {writes : List (BitVec 32 × List Byte)} {x : Option (BitVec 32 × List Byte)}
    (h : Coherent u.slots (latest writes)) (hall : Complete u.slots (latest writes)) (htidy : Tidy u)
    (husable : ∀ y ∈ x, usable y.1) (hfew : ((writes ++ x.toList).map Prod.fst).toFinset.card ≤ UIP_ARPTAB_SIZE) :
    Complete (u.told x).slots (latest (writes ++ x.toList)) ∧ Tidy (u.told x) := by
  cases x with
  | none =>
    rw [Option.toList_none, List.append_nil]
    exact ⟨hall, htidy⟩
  | some x =>
    obtain ⟨ipaddr, ethaddr⟩ := x
    have hown : usable ipaddr := husable (ipaddr, ethaddr) rfl
    obtain ⟨i, hplace, htable⟩ := u.arpUpdate_placed ipaddr ethaddr
    have hslots : (u.told (some (ipaddr, ethaddr))).slots = _ := slots_update htable
    refine ⟨?_, htidy.update hown htable⟩
    rw [Option.toList_some, latest_append, hslots, ArpEntry.slot_of_usable hown]
    refine hall.write fun {a m} hslot => ?_
    obtain ⟨ha, haddr, -⟩ := ArpEntry.slot_eq_some.mp hslot
    cases hplace with
    | again hused hsame => exact haddr.symm.trans hsame
    | fresh hnew hplace =>
      rcases hplace with hempty | ⟨hfull, -⟩
      · rw [← haddr, hempty] at ha
        cases ha
      · have hkey : ∀ {j w}, u.slots j ≠ some (ipaddr, w) := fun {j w} hj => by
          obtain ⟨-, hj, -⟩ := ArpEntry.slot_eq_some.mp hj
          exact hnew j (by rwa [ArpEntry.used, hj]) hj
        have hcard : (ipaddr :: writes.map Prod.fst).toFinset.card ≤ Fintype.card (Fin UIP_ARPTAB_SIZE) := by
          have hsame : (ipaddr :: writes.map Prod.fst).toFinset = ((writes ++ [(ipaddr, ethaddr)]).map Prod.fst).toFinset := by
            ext a
            simp
          rw [Fintype.card_fin, hsame]
          exact hfew
        obtain ⟨j, hnone⟩ := h.room hkey hcard
        rcases htidy j with hzero | hj
        · exact absurd hzero (hfull j)
        · have hsome : u.slots j = some _ := ArpEntry.slot_eq_some.mpr ⟨hj, rfl, rfl⟩
          rw [hnone] at hsome
          cases hsome

-- ---------------------------------------------------------------------------
-- What uip_arp_out finds
-- ---------------------------------------------------------------------------

/-- The address that the packet in `uip_buf` goes to on the local network. -/
def nextHop (u : Uip) : BitVec 32 :=
  let dest := u.uipBuf.be32 Offset.destipaddr
  if dest &&& u.uipNetmask ≠ u.uipHostaddr &&& u.uipNetmask then u.uipDraddr else dest

def answers (u : Uip) (ipaddr : BitVec 32) : Option (List Byte) :=
  ((List.finRange UIP_ARPTAB_SIZE).find? fun i => (u.arpTable i).ipaddr == ipaddr).map fun i => (u.arpTable i).ethaddr

/-- `uip_arp_out` sends the packet to the address that the table has, and a
request in its place where it has none. -/
theorem arpOut_answers (hcast : u.uipBuf.be32 Offset.destipaddr ≠ 0xffffffff) :
    u.arpOut = (u.answers u.nextHop).elim (u.arpRequest u.nextHop) u.ethHeader := by
  simp only [arpOut, if_neg hcast, answers, nextHop]
  split
  · rename_i hfind
    rw [hfind]
    rfl
  · rename_i i hfind
    rw [hfind]
    rfl

theorem answers_congr {v : Uip} (h : v.settings = u.settings) : v.answers ipaddr = u.answers ipaddr := by
  have htable : v.arpTable = u.arpTable := congrArg Settings.arpTable h
  rw [answers, answers, htable]

theorem slots_of_answers (husable : usable ipaddr) (h : u.answers ipaddr = some ethaddr) :
    ∃ i, u.slots i = some (ipaddr, ethaddr) := by
  obtain ⟨i, hfind, heth⟩ := Option.map_eq_some_iff.mp h
  exact ⟨i, ArpEntry.slot_eq_some.mpr ⟨husable, by simpa using List.find?_some hfind, heth⟩⟩

/-- An entry that is in use is found. -/
theorem answers_of_slots (hdistinct : ∀ {j m}, u.slots j = some (ipaddr, m) → j = i)
    (h : u.slots i = some (ipaddr, ethaddr)) : u.answers ipaddr = some ethaddr := by
  obtain ⟨husable, haddr, heth⟩ := ArpEntry.slot_eq_some.mp h
  cases hfind : (List.finRange UIP_ARPTAB_SIZE).find? fun i => (u.arpTable i).ipaddr == ipaddr with
  | none =>
    have hmiss := List.find?_eq_none.mp hfind i (List.mem_finRange i)
    exact absurd (beq_iff_eq.mpr haddr) hmiss
  | some j =>
    have hj : (u.arpTable j).ipaddr = ipaddr := by simpa using List.find?_some hfind
    obtain rfl := hdistinct (ArpEntry.slot_eq_some.mpr ⟨husable, hj, rfl⟩)
    rw [answers, hfind, Option.map_some, heth]

/-- An address that was just announced is found. -/
theorem arpUpdate_answers (husable : usable ipaddr) : (u.arpUpdate ipaddr ethaddr).answers ipaddr = some ethaddr := by
  cases hfind : (List.finRange UIP_ARPTAB_SIZE).find? fun i => (u.arpTable i).used && (u.arpTable i).ipaddr == ipaddr with
  | some i =>
    have hi := List.find?_some hfind
    simp only [Bool.and_eq_true, beq_iff_eq] at hi
    have htable : (u.arpUpdate ipaddr ethaddr).arpTable = Function.update u.arpTable i { u.arpTable i with ethaddr, time := u.arptime } := by
      rw [arpUpdate, hfind]
    have hsame : ∀ j, ((Function.update u.arpTable i { u.arpTable i with ethaddr, time := u.arptime } j).ipaddr == ipaddr) =
        ((u.arpTable j).used && (u.arpTable j).ipaddr == ipaddr) := by
      intro j
      by_cases hj : j = i
      · rw [hj, Function.update_self, hi.1, Bool.true_and]
      · rw [Function.update_of_ne hj]
        by_cases haddr : (u.arpTable j).ipaddr = ipaddr
        · have hused : (u.arpTable j).used := by rwa [ArpEntry.used, haddr]
          rw [hused, Bool.true_and]
        · rw [beq_false_of_ne haddr, Bool.and_false]
    rw [answers, htable, funext hsame, hfind, Option.map_some, Function.update_self]
  | none =>
    obtain ⟨i, hplace, htable⟩ := u.arpUpdate_placed ipaddr ethaddr
    have hnew : ∀ j, (u.arpTable j).used → (u.arpTable j).ipaddr ≠ ipaddr := fun j hused hsame =>
      List.find?_eq_none.mp hfind j (List.mem_finRange j) (by rw [hused, hsame, beq_self_eq_true, Bool.and_self])
    have hslots := slots_update htable
    rw [ArpEntry.slot_of_usable husable] at hslots
    refine answers_of_slots (i := i) (fun {j m} hslot => ?_) (by rw [hslots, Function.update_self])
    by_contra hj
    rw [hslots, Function.update_of_ne hj] at hslot
    obtain ⟨-, haddr, -⟩ := ArpEntry.slot_eq_some.mp hslot
    exact hnew j (by rwa [ArpEntry.used, haddr]) haddr

-- ---------------------------------------------------------------------------
-- The clock that stands still
-- ---------------------------------------------------------------------------

def Unaged (u : Uip) : Prop := u.arptime = 0 ∧ ∀ i, (u.arpTable i).time = 0

theorem Unaged.oldest (h : Unaged u) : u.arpOldest = 0 := by
  have hkeeps : ∀ i, (if (u.arpTable i).time ≤ u.arptime ∧ 0 < u.arptime.toNat - (u.arpTable i).time.toNat then
      (BitVec.ofNat 8 (u.arptime.toNat - (u.arpTable i).time.toNat), i) else ((0 : BitVec 8), (0 : Fin UIP_ARPTAB_SIZE))) = (0, 0) := by
    intro i
    rw [h.1, h.2 i]
    rfl
  rw [arpOldest, List.foldl_fixed' hkeeps]

theorem Unaged.told {x : Option (BitVec 32 × List Byte)} (h : Unaged u) : ∀ i, ((u.told x).arpTable i).time = 0 := by
  cases x with
  | none => exact h.2
  | some x =>
    obtain ⟨ipaddr, ethaddr⟩ := x
    obtain ⟨i, -, htable⟩ := u.arpUpdate_placed ipaddr ethaddr
    intro j
    rw [Uip.told, htable]
    by_cases hj : j = i
    · rw [hj, Function.update_self, h.1]
    · rw [Function.update_of_ne hj, h.2 j]

/-- Behind the first entry an address stays where it is. -/
theorem Unaged.stays {x : Option (BitVec 32 × List Byte)} (h : Unaged u) (hi : i ≠ 0) (hslot : u.slots i = some (a, m)) :
    ∃ m', (u.told x).slots i = some (a, m') := by
  cases x with
  | none => exact ⟨m, hslot⟩
  | some x =>
    obtain ⟨husable, haddr, heth⟩ := ArpEntry.slot_eq_some.mp hslot
    obtain ⟨ipaddr, ethaddr⟩ := x
    obtain ⟨j, hplace, htable⟩ := u.arpUpdate_placed ipaddr ethaddr
    have hslots : (u.told (some (ipaddr, ethaddr))).slots = _ := slots_update htable
    rw [hslots]
    by_cases hj : i = j
    · rw [hj, Function.update_self]
      cases hplace with
      | again hused hsame =>
        rw [← hj, haddr] at hsame
        exact ⟨ethaddr, ArpEntry.slot_eq_some.mpr ⟨husable, hsame.symm, rfl⟩⟩
      | fresh hnew hplace =>
        rcases hplace with hempty | ⟨-, hold⟩
        · rw [← hj, haddr] at hempty
          rw [hempty] at husable
          cases husable
        · exact absurd (hj.trans (hold.trans h.oldest)) hi
    · rw [Function.update_of_ne hj]
      exact ⟨m, hslot⟩

end Uip

-- ---------------------------------------------------------------------------
-- Runs
-- ---------------------------------------------------------------------------

namespace System

open Uip

variable {s s' : System} {x : Piece × Option (BitVec 32 × List Byte)} {xs ys : List (Piece × Option (BitVec 32 × List Byte))}

/-- A piece, with what it says about a neighbour. -/
def Hearing (s : System) (x : Piece × Option (BitVec 32 × List Byte)) (s' : System) : Prop :=
  PieceStep s x.1 s' ∧ x.2 = s.hears x.1

theorem Hearing.of_input (h : s.tickInput = some s') : Hearing s (.input, s.heard) s' := ⟨.input h, rfl⟩

theorem Hearing.of_call {a : Action} (hother : ∀ now nullTimer, a ≠ .tick now nullTimer) (h : s.step a = some s') :
    Hearing s (.call a, none) s' := ⟨.call hother h, rfl⟩

def announced (xs : List (Piece × Option (BitVec 32 × List Byte))) : List (BitVec 32 × List Byte) := xs.filterMap (·.2)

theorem announced_snoc : announced (xs ++ [x]) = announced xs ++ x.2.toList := by
  rw [announced, List.filterMap_append]
  cases h : x.2 <;> simp [announced, h]

theorem Hearing.slots (h : Hearing s x s') : s'.uip.slots = (s.uip.told x.2).slots := by
  funext i
  rw [Uip.slots, h.1.neighbours.1, h.2]
  rfl

theorem Hearing.unaged (h : Hearing s x s') (hs : Unaged s.uip) : Unaged s'.uip := by
  refine ⟨h.1.neighbours.2.trans hs.1, fun i => ?_⟩
  rw [h.1.neighbours.1]
  exact hs.told i

theorem init_unaged (ram : Nat → Byte) (transmissions : List Transmission) (mac : List Byte) (now : BitVec 32) :
    Unaged (System.init ram transmissions mac now).uip := ⟨rfl, fun _ => rfl⟩

theorem heard_coherent {ram : Nat → Byte} {transmissions : List Transmission} {mac : List Byte} {now : BitVec 32}
    (h : Run Hearing (System.init ram transmissions mac now) xs s) : Coherent s.uip.slots (latest (announced xs)) := by
  induction h with
  | nil =>
    have hnone : ArpEntry.slot ⟨0, [0, 0, 0, 0, 0, 0], 0⟩ = none := by decide
    have hempty : (System.init ram transmissions mac now).uip.slots = fun _ => none := funext fun _ => hnone
    rw [hempty]
    exact .empty
  | snoc _ hstep ih =>
    rw [hstep.slots, announced_snoc]
    exact told_coherent ih

/-- The ARP reply of the neighbour 10.0.0.n. -/
def arpReply (n : Byte) : List Byte :=
  [1, 2, 3, 4, 5, 6, 6, 5, 4, 3, 2, n, 8, 6, 0, 1, 8, 0, 6, 4, 0, 2, 6, 5, 4, 3, 2, n, 10, 0, 0, n, 1, 2, 3, 4, 5, 6, 10, 0, 0, 1] ++
    List.replicate 18 0

/-- Two neighbours answer. -/
def asking : System :=
  ((System.init (fun _ => 0) [] [1, 2, 3, 4, 5, 6] 0).configure 0x0a000001 0 0xff000000).arrive
    (ringSlot 70 (arpReply 2) ++ ringSlot 140 (arpReply 3)) 2

/-- The packet of `s` for 10.0.0.n. -/
def packetFor (s : System) (n : Byte) : Uip := { s.uip with uipBuf := s.uip.uipBuf.putBe32 Offset.destipaddr (0x0a000000 ||| n.setWidth 32) }

theorem two_neighbours : ∃ s xs, Run Hearing (System.init (fun _ => 0) [] [1, 2, 3, 4, 5, 6] 0) xs s ∧
    announced xs = [(0x0a000002, [6, 5, 4, 3, 2, 2]), (0x0a000003, [6, 5, 4, 3, 2, 3])] ∧ s.uip.uipHostaddr = 0x0a000001 ∧
      s.uip.uipNetmask = 0xff000000 ∧ (s.uip.arpTable 1).ipaddr = 0x0a000003 := by
  have hcompute : (asking.tickInput.bind fun s₁ => s₁.tickInput.map fun s₂ => decide
      (asking.heard = some (0x0a000002, [6, 5, 4, 3, 2, 2]) ∧ s₁.heard = some (0x0a000003, [6, 5, 4, 3, 2, 3]) ∧
        s₂.uip.uipHostaddr = 0x0a000001 ∧ s₂.uip.uipNetmask = 0xff000000 ∧ (s₂.uip.arpTable 1).ipaddr = 0x0a000003)) = some true := by
    decide +kernel
  obtain ⟨s₁, hfirst, hcompute⟩ := Option.bind_eq_some_iff.mp hcompute
  obtain ⟨s₂, hsecond, hcompute⟩ := Option.map_eq_some_iff.mp hcompute
  obtain ⟨hheard₁, hheard₂, hhost, hmask, htable⟩ := of_decide_eq_true hcompute
  have hconfigure : Hearing (System.init (fun _ => 0) [] [1, 2, 3, 4, 5, 6] 0) (.call (.configure 0x0a000001 0 0xff000000), none) _ :=
    .of_call (by rintro _ _ ⟨⟩) rfl
  have harrive : Hearing ((System.init (fun _ => 0) [] [1, 2, 3, 4, 5, 6] 0).configure 0x0a000001 0 0xff000000)
      (.call (.arrive (ringSlot 70 (arpReply 2) ++ ringSlot 140 (arpReply 3)) 2), none) asking := .of_call (by rintro _ _ ⟨⟩) rfl
  have hstart : Run Hearing (System.init (fun _ => 0) [] [1, 2, 3, 4, 5, 6] 0) _ asking := .snoc (.snoc .nil hconfigure) harrive
  refine ⟨s₂, _, .snoc (.snoc hstart (.of_input hfirst)) (.of_input hsecond), ?_, hhost, hmask, htable⟩
  rw [hheard₁, hheard₂]
  rfl

/-- A packet goes out to the address that its next hop announced last, or an ARP
request goes out in its place. -/
theorem arp_cache {ram : Nat → Byte} {transmissions : List Transmission} {mac : List Byte} {now : BitVec 32} {u : Uip}
    (h : Run Hearing (System.init ram transmissions mac now) xs s) (hset : u.settings = s.uip.settings)
    (hcast : u.uipBuf.be32 Offset.destipaddr ≠ 0xffffffff) (hhop : usable u.nextHop) :
    u.arpOut = u.arpRequest u.nextHop ∨
      ∃ ethaddr, latest (announced xs) u.nextHop = some ethaddr ∧ u.arpOut = u.ethHeader ethaddr := by
  rw [arpOut_answers hcast]
  cases hanswer : u.answers u.nextHop with
  | none => exact .inl rfl
  | some ethaddr =>
    rw [answers_congr hset] at hanswer
    obtain ⟨i, hslot⟩ := slots_of_answers hhop hanswer
    exact .inr ⟨ethaddr, (heard_coherent h).latest hslot, rfl⟩

theorem packetFor_settings (s : System) (n : Byte) : (packetFor s n).settings = s.uip.settings := rfl

theorem packetFor_dest (s : System) (n : Byte) :
    (packetFor s n).uipBuf.be32 Offset.destipaddr = 0x0a000000 ||| n.setWidth 32 := Buf.be32_putBe32 _ _ _

/-- It goes to the host itself, which is on the local network. -/
theorem packetFor_nextHop {n : Byte} (hhost : s.uip.uipHostaddr = 0x0a000001) (hmask : s.uip.uipNetmask = 0xff000000) :
    (packetFor s n).nextHop = 0x0a000000 ||| n.setWidth 32 := by
  have hhost' : (packetFor s n).uipHostaddr = 0x0a000001 := hhost
  have hmask' : (packetFor s n).uipNetmask = 0xff000000 := hmask
  have hlocal : (0x0a000000 ||| n.setWidth 32) &&& 0xff000000 = 0x0a000001 &&& (0xff000000 : BitVec 32) := by
    clear hhost' hmask'
    revert n
    decide
  simp only [nextHop, packetFor_dest, hhost', hmask', if_neg (not_not_intro hlocal)]

/-- To the second neighbour goes what is for it. -/
theorem arp_cache_example : ∃ s, (packetFor s 3).arpOut = (packetFor s 3).arpRequest 0x0a000003 ∨
    (packetFor s 3).arpOut = (packetFor s 3).ethHeader [6, 5, 4, 3, 2, 3] := by
  obtain ⟨s, xs, hrun, hannounced, hhost, hmask, -⟩ := two_neighbours
  have hhop : (packetFor s 3).nextHop = 0x0a000003 := packetFor_nextHop hhost hmask
  have hcast : (packetFor s 3).uipBuf.be32 Offset.destipaddr ≠ 0xffffffff := by
    rw [packetFor_dest]
    decide
  rcases arp_cache hrun (packetFor_settings s 3) hcast (hhop ▸ rfl) with hrequest | ⟨ethaddr, hlatest, hout⟩
  · exact ⟨s, .inl (hhop ▸ hrequest)⟩
  · rw [hannounced, hhop] at hlatest
    have hsecond : latest [((0x0a000002 : BitVec 32), ([6, 5, 4, 3, 2, 2] : List Byte)), (0x0a000003, [6, 5, 4, 3, 2, 3])] 0x0a000003 =
        some [6, 5, 4, 3, 2, 3] := by decide
    cases hsecond.symm.trans hlatest
    exact ⟨s, .inr hout⟩

theorem heard_complete {ram : Nat → Byte} {transmissions : List Transmission} {mac : List Byte} {now : BitVec 32}
    (h : Run Hearing (System.init ram transmissions mac now) xs s) (husable : ∀ y ∈ announced xs, usable y.1)
    (hfew : ((announced xs).map Prod.fst).toFinset.card ≤ UIP_ARPTAB_SIZE) :
    Complete s.uip.slots (latest (announced xs)) ∧ Tidy s.uip := by
  induction h with
  | nil => exact ⟨by rintro k v ⟨⟩, fun _ => .inl rfl⟩
  | @snoc xs t x' t' hrun hstep ih =>
    rw [announced_snoc] at husable hfew
    have hbefore : ((announced xs).map Prod.fst).toFinset.card ≤ UIP_ARPTAB_SIZE := by
      refine le_trans (Finset.card_le_card fun a ha => ?_) hfew
      rw [List.map_append, List.toFinset_append]
      exact Finset.mem_union_left _ ha
    obtain ⟨hall, htidy⟩ := ih (fun y hy => husable y (List.mem_append_left _ hy)) hbefore
    have hown : ∀ y ∈ x'.2, usable y.1 := fun y hy => husable y (List.mem_append_right _ (Option.mem_toList.mpr hy))
    obtain ⟨hall', htidy'⟩ := told_complete (heard_coherent hrun) hall htidy hown hfew
    rw [announced_snoc, hstep.slots]
    exact ⟨hall', fun i => by rw [hstep.1.neighbours.1, ← hstep.2]; exact htidy' i⟩

/-- As long as not more neighbours than the table has entries were heard, each of
them is answered to. -/
theorem arp_complete {ram : Nat → Byte} {transmissions : List Transmission} {mac : List Byte} {now : BitVec 32} {u : Uip}
    {ethaddr : List Byte} (h : Run Hearing (System.init ram transmissions mac now) xs s)
    (husable : ∀ y ∈ announced xs, usable y.1) (hfew : ((announced xs).map Prod.fst).toFinset.card ≤ UIP_ARPTAB_SIZE)
    (hset : u.settings = s.uip.settings) (hcast : u.uipBuf.be32 Offset.destipaddr ≠ 0xffffffff)
    (hlatest : latest (announced xs) u.nextHop = some ethaddr) : u.arpOut = u.ethHeader ethaddr := by
  obtain ⟨i, hslot⟩ := (heard_complete h husable hfew).1 hlatest
  have hanswer : u.answers u.nextHop = some ethaddr := by
    rw [answers_congr hset]
    exact answers_of_slots (fun hj => (heard_coherent h).distinct hj hslot) hslot
  rw [arpOut_answers hcast, hanswer]
  rfl

theorem arp_complete_example : ∃ s, (packetFor s 2).arpOut = (packetFor s 2).ethHeader [6, 5, 4, 3, 2, 2] := by
  obtain ⟨s, xs, hrun, hannounced, hhost, hmask, -⟩ := two_neighbours
  have hhop : (packetFor s 2).nextHop = 0x0a000002 := packetFor_nextHop hhost hmask
  have hcast : (packetFor s 2).uipBuf.be32 Offset.destipaddr ≠ 0xffffffff := by
    rw [packetFor_dest]
    decide
  refine ⟨s, arp_complete hrun ?_ ?_ (packetFor_settings s 2) hcast ?_⟩
  · rw [hannounced]
    decide
  · rw [hannounced]
    decide
  · rw [hannounced, hhop]
    decide

/-- A neighbour that has an entry behind the first is never asked for again. -/
theorem arp_stays {ram : Nat → Byte} {transmissions : List Transmission} {mac : List Byte} {now : BitVec 32} {u : Uip}
    {i : Fin UIP_ARPTAB_SIZE} (h : Run Hearing (System.init ram transmissions mac now) xs s) (h' : Run Hearing s ys s')
    (hi : i ≠ 0) (hused : (s.uip.arpTable i).used) (hset : u.settings = s'.uip.settings)
    (hcast : u.uipBuf.be32 Offset.destipaddr ≠ 0xffffffff) (hhop : u.nextHop = (s.uip.arpTable i).ipaddr) :
    ∃ ethaddr, latest (announced (xs ++ ys)) u.nextHop = some ethaddr ∧ u.arpOut = u.ethHeader ethaddr := by
  have hunaged : Unaged s.uip := h.invariant (fun hs hstep => hstep.unaged hs) (init_unaged ram transmissions mac now)
  have hstart : Unaged s.uip ∧ ∃ m, s.uip.slots i = some (u.nextHop, m) :=
    ⟨hunaged, _, ArpEntry.slot_eq_some.mpr ⟨hhop ▸ hused, hhop.symm, rfl⟩⟩
  obtain ⟨-, m, hslot⟩ := h'.invariant (I := fun t => Unaged t.uip ∧ ∃ m, t.uip.slots i = some (u.nextHop, m))
    (fun ht hstep => ⟨hstep.unaged ht.1, hstep.slots ▸ ht.2.elim fun m hslot => ht.1.stays hi hslot⟩) hstart
  have hcoherent := heard_coherent (h.append h')
  have hanswer : u.answers u.nextHop = some m := by
    rw [answers_congr hset]
    exact answers_of_slots (fun hj => hcoherent.distinct hj hslot) hslot
  exact ⟨m, hcoherent.latest hslot, by rw [arpOut_answers hcast, hanswer]; rfl⟩

theorem arp_stays_example : ∃ s, ∃ ethaddr : List Byte, (packetFor s 3).arpOut = (packetFor s 3).ethHeader ethaddr := by
  obtain ⟨s, xs, hrun, -, hhost, hmask, htable⟩ := two_neighbours
  have hhop : (packetFor s 3).nextHop = 0x0a000003 := packetFor_nextHop hhost hmask
  have hcast : (packetFor s 3).uipBuf.be32 Offset.destipaddr ≠ 0xffffffff := by
    rw [packetFor_dest]
    decide
  have hused : (s.uip.arpTable 1).used := by
    rw [ArpEntry.used, htable]
    decide
  have hquiet : Hearing s (.rearm 0, none) { s with periodicTimer := 0 + UIP_PERIODIC_TIMER } := ⟨.rearm, rfl⟩
  obtain ⟨ethaddr, -, hout⟩ := arp_stays hrun (.snoc .nil hquiet) (by decide) hused (packetFor_settings s 3) hcast (hhop.trans htable.symm)
  exact ⟨s, ethaddr, hout⟩

end System

end UIPEthernet
