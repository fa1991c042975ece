import UIPEthernet.Enc28J60Network.View
import UIPEthernet.Lib.Run

/-!
# The pool refines a map from handles to byte arrays

The abstract machine `MapStep` says what the pool is for: handles are given
out and taken back, and a handle's array is what was written to it, whatever
happens to the other handles. `Call` is one call on the pool of the code, and
a run of calls is matched by a run of the abstract machine with the same
results. The one call that does not come back is a copy of no bytes.
-/

namespace UIPEthernet.Enc28J60Network

open Lib MemoryPool

inductive Call
  | allocBlock (size : Nat)
  | freeBlock (h : Handle)
  | resizeBlock (h : Handle) (position : Nat)
  | resizeBlockTo (h : Handle) (position size : Nat)
  | writePacket (h : Handle) (position : Nat) (buffer : List Byte)
  | readPacket (h : Handle) (position len : Nat)
  | copyPacket (dest : Handle) (destPos : Nat) (src : Handle) (srcPos len : Nat)
deriving DecidableEq, Repr

inductive Result
  | done
  | handle (h : Handle)
  | count (n : Nat)
  | bytes (data : List Byte)
deriving DecidableEq, Repr

def call (e : Enc28J60Network) : Call → Option (Enc28J60Network × Result)
  | .allocBlock size => do
    let (e, h) ← e.allocBlock size
    return (e, .handle h)
  | .freeBlock h => do
    let e ← e.freeBlock h
    return (e, .done)
  | .resizeBlock h position => some (e.resizeBlock h position, .done)
  | .resizeBlockTo h position size => some (e.resizeBlockTo h position size, .done)
  | .writePacket h position buffer =>
    let (e, n) := e.writePacket h position buffer
    some (e, .count n)
  | .readPacket h position len => some (e, .bytes (e.readPacket h position len))
  | .copyPacket dest destPos src srcPos len => do
    let e ← e.copyPacket dest destPos src srcPos len
    return (e, .done)

/-- What the callers owe: handles are live and positions inside the blocks. -/
def Call.Allowed (v : Map) : Call → Prop
  | .allocBlock size => 1 ≤ size
  | .freeBlock _ => True
  | .resizeBlock h position => ∃ c, v h = some c ∧ position < c.length
  | .resizeBlockTo h position size =>
    ∃ c, v h = some c ∧ 1 ≤ size ∧ position + size ≤ c.length
  | .writePacket h position _ => ∃ c, v h = some c ∧ position ≤ c.length
  | .readPacket h position _ => ∃ c, v h = some c ∧ position ≤ c.length
  | .copyPacket dest destPos src srcPos len =>
    dest ≠ src ∧ ∃ c d, v dest = some c ∧ v src = some d ∧
      destPos + len ≤ c.length ∧ srcPos + len ≤ d.length

/-- One step of the abstract map. A new array may hold anything. -/
inductive MapStep (v : Map) : Call × Result → Map → Prop
  | alloc (fresh : v h = none) (new : h ≠ NOBLOCK) (len : c.length = size) :
    MapStep v (.allocBlock size, .handle h) (Function.update v h (some c))
  | exhausted : MapStep v (.allocBlock size, .handle NOBLOCK) v
  | free : MapStep v (.freeBlock h, .done) (Function.update v h none)
  | resize (hc : v h = some c) :
    MapStep v (.resizeBlock h position, .done) (Function.update v h (some (c.drop position)))
  | resizeTo (hc : v h = some c) : MapStep v (.resizeBlockTo h position size, .done)
      (Function.update v h (some ((c.drop position).take size)))
  | write (hc : v h = some c) :
    MapStep v (.writePacket h position buffer, .count (min buffer.length (c.length - position)))
      (Function.update v h (some (splice c position (buffer.take (c.length - position)))))
  | read (hc : v h = some c) :
    MapStep v (.readPacket h position len, .bytes ((c.drop position).take len)) v
  | copy (hc : v dest = some c) (hd : v src = some d) :
    MapStep v (.copyPacket dest destPos src srcPos len, .done)
      (Function.update v dest (some (splice c destPos ((d.drop srcPos).take len))))

/-- A call of the code that the callers may make and that comes back. -/
def CallStep (e : Enc28J60Network) (x : Call × Result) (e' : Enc28J60Network) : Prop :=
  x.1.Allowed e.view ∧ e.call x.1 = some (e', x.2)

/-- The call the DMA is not fit for: `enc28J60_mempool_block_move_callback`
puts the end address before the start. -/
def Call.CopiesNothing : Call → Prop
  | .copyPacket _ _ _ _ len => len = 0
  | _ => False

variable {e e' : Enc28J60Network} {x : Call} {r : Result}

/-- Every other call comes back, as a step of the map. -/
theorem call_ok (hv : e.Valid) (ha : x.Allowed e.view) (hx : ¬x.CopiesNothing) :
    ∃ e' r, e.call x = some (e', r) ∧ e'.Valid ∧ MapStep e.view (x, r) e'.view := by
  cases x with
  | allocBlock size =>
    obtain ⟨e', h, hcall, hres, -⟩ := allocBlock_ok hv ha
    refine ⟨e', .handle h, by simp [call, hcall], ?_⟩
    cases hres with
    | placed _ hfresh hlen hch =>
      have hne : h ≠ NOBLOCK := (view_ne (e := e') (by rw [hch.view, Function.update_self])).1
      exact ⟨hch.valid, hch.view ▸ .alloc hfresh hne hlen⟩
    | failed _ hch => exact ⟨hch.valid, hch.view ▸ .exhausted⟩
  | freeBlock h =>
    obtain ⟨e', hcall, hch, -⟩ := freeBlock_ok hv h
    exact ⟨e', .done, by simp [call, hcall], hch.valid, hch.view ▸ .free⟩
  | resizeBlock h position =>
    obtain ⟨c, hc, hp⟩ := ha
    have hch := resizeBlock_ok hv hc hp
    exact ⟨_, .done, rfl, hch.valid, hch.view ▸ .resize hc⟩
  | resizeBlockTo h position size =>
    obtain ⟨c, hc, hs, hp⟩ := ha
    have hch := resizeBlockTo_ok hv hc hs hp
    exact ⟨_, .done, rfl, hch.valid, hch.view ▸ .resizeTo hc⟩
  | writePacket h position buffer =>
    obtain ⟨c, hc, hp⟩ := ha
    obtain ⟨hn, hch⟩ := writePacket_ok hv hc hp buffer
    refine ⟨(e.writePacket h position buffer).1, .count (e.writePacket h position buffer).2, rfl,
      hch.valid, ?_⟩
    rw [hn, hch.view]
    exact .write hc
  | readPacket h position len =>
    obtain ⟨c, hc, hp⟩ := ha
    refine ⟨e, _, rfl, hv, ?_⟩
    rw [readPacket_ok hv hc hp]
    exact .read hc
  | copyPacket dest destPos src srcPos len =>
    obtain ⟨hne, c, d, hc, hd, hin, hfrom⟩ := ha
    have hlen : 1 ≤ len := Nat.pos_of_ne_zero hx
    obtain ⟨e', hcall, hch, -⟩ := copyPacket_pool hv hc hd hne hlen hin hfrom
    exact ⟨e', .done, by simp [call, hcall], hch.valid, hch.view ▸ .copy hc hd⟩

/-- With its end address before the start and above the ring, the DMA's source
pointer never meets it. -/
theorem dma_never {edmand fuel src dest : Nat} {ram : Nat → Byte} (hend : RXSTOP_INIT < edmand)
    (hsrc : edmand < src ∨ src ≤ RXSTOP_INIT) (hmem : src < MEMORY_SIZE) :
    dma edmand fuel src dest ram = none := by
  induction fuel generalizing src dest ram with
  | zero => rfl
  | succ fuel ih =>
    have hm : MEMORY_SIZE = 8192 := rfl
    have hr : RXSTOP_INIT = 2047 := rfl
    have hs : RXSTART_INIT = 0 := rfl
    rw [dma, if_neg (by omega)]
    by_cases hstop : src = RXSTOP_INIT
    · rw [nextRead, if_pos hstop]
      exact ih (.inr (by omega)) (by omega)
    · rw [nextRead, if_neg hstop, hm]
      exact ih (by omega) (by omega)

theorem copyPacket_nothing {src : Handle} {d : List Byte} {srcPos : Nat} (dest : Handle)
    (destPos : Nat) (hv : e.Valid) (hd : e.view src = some d) (hp : srcPos ≤ d.length) :
    e.copyPacket dest destPos src srcPos 0 = none := by
  have hb := hv.bounds hd
  have hm : MEMORY_SIZE = 8192 := rfl
  have hr : RXSTOP_INIT = 2047 := rfl
  have hstart := readStart_pool hv hd hp
  have hlast : add16 0 (sub16 ((e.blocks src).begin + srcPos) 1) =
      (e.blocks src).begin + srcPos - 1 := by
    simp only [add16, sub16]; omega
  have hnone : mempoolBlockMoveCallback (add16 (e.blocks dest).begin destPos)
      (e.readStart src srcPos) 0 e.ram = none := by
    rw [mempoolBlockMoveCallback, if_neg (by decide), hstart]
    simp only [hlast]
    rw [if_neg (by omega)]
    rw [hm]
    exact dma_never (by omega) (by omega) (by omega)
  simp [copyPacket, hnone]

theorem call_nothing (hv : e.Valid) (ha : x.Allowed e.view) (hx : x.CopiesNothing) :
    e.call x = none := by
  cases x with
  | copyPacket dest destPos src srcPos len =>
    obtain ⟨-, -, d, -, hd, -, hfrom⟩ := ha
    have hlen : len = 0 := hx
    subst hlen
    have hnone := copyPacket_nothing dest destPos hv hd (show srcPos ≤ d.length from hfrom)
    simp [call, hnone]
  | _ => exact hx.elim

theorem CallStep.ok (hv : e.Valid) (h : CallStep e (x, r) e') :
    e'.Valid ∧ MapStep e.view (x, r) e'.view := by
  by_cases hx : x.CopiesNothing
  · exact absurd h.2 (by simp [call_nothing hv h.1 hx])
  · obtain ⟨e₁, r₁, hcall, hv', hstep⟩ := call_ok hv h.1 hx
    obtain ⟨rfl, rfl⟩ : e₁ = e' ∧ r₁ = r := by simpa [hcall] using h.2
    exact ⟨hv', hstep⟩

/-- A run of calls, each allowed and back, gives the results of the abstract
map; and after it an allowed call comes back, again as a step of the map, if
and only if it is not a copy of no bytes. -/
theorem pool_refines_map {ram : Nat → Byte} {t : List Transmission} {es : List (Call × Result)}
    (h : Run CallStep (init ram t) es e) :
    Run MapStep (fun _ => none) es e.view ∧
    ∀ x : Call, x.Allowed e.view →
      ((∃ e' r, e.call x = some (e', r) ∧ MapStep e.view (x, r) e'.view) ↔ ¬x.CopiesNothing) := by
  have hsim : ∀ {t x u v}, (t.Valid ∧ t.view = v) → CallStep t x u →
      ∃ w, MapStep v x w ∧ u.Valid ∧ u.view = w := by
    rintro t x u _ ⟨hv, rfl⟩ hs
    obtain ⟨hv', hstep⟩ := CallStep.ok (x := x.1) (r := x.2) hv hs
    exact ⟨_, hstep, hv', rfl⟩
  obtain ⟨v, hrun, hv, rfl⟩ := h.simulation (R := fun e v => e.Valid ∧ e.view = v) hsim
    ⟨init_valid ram t, init_view ram t⟩
  refine ⟨hrun, fun x ha => ⟨fun ⟨e', r, hcall, _⟩ hx => ?_, fun hx => ?_⟩⟩
  · exact absurd hcall (by simp [call_nothing hv ha hx])
  · obtain ⟨e', r, hcall, -, hstep⟩ := call_ok hv ha hx
    exact ⟨e', r, hcall, hstep⟩

instance {α : Type} (o : Option α) (P : α → Prop) [DecidablePred P] : Decidable (∃ a, o = some a ∧ P a) :=
  match o with
  | none => isFalse fun ⟨_, h, _⟩ => nomatch h
  | some a => decidable_of_iff (P a) ⟨fun h => ⟨a, rfl, h⟩, fun ⟨_, h, hP⟩ => Option.some.inj h ▸ hP⟩

instance (v : Map) (x : Call) : Decidable (x.Allowed v) :=
  match x with
  | .allocBlock size => inferInstanceAs (Decidable (1 ≤ size))
  | .freeBlock _ => isTrue trivial
  | .resizeBlock h position => inferInstanceAs (Decidable (∃ c, v h = some c ∧ position < c.length))
  | .resizeBlockTo h position size => inferInstanceAs (Decidable (∃ c, v h = some c ∧ 1 ≤ size ∧ position + size ≤ c.length))
  | .writePacket h position _ | .readPacket h position _ => inferInstanceAs (Decidable (∃ c, v h = some c ∧ position ≤ c.length))
  | .copyPacket dest destPos src srcPos len =>
    decidable_of_iff (dest ≠ src ∧ ∃ c, v dest = some c ∧ ∃ d, v src = some d ∧ destPos + len ≤ c.length ∧ srcPos + len ≤ d.length)
      (by simp only [Call.Allowed, exists_and_left])

/-- The call with its result, if it may be made. -/
def checked (e : Enc28J60Network) (x : Call × Result) : Option Enc28J60Network :=
  if x.1.Allowed e.view then (e.call x.1).bind fun y => if y.2 = x.2 then some y.1 else none else none

theorem checked_step {x : Call × Result} (h : checked e x = some e') : CallStep e x e' := by
  rw [checked] at h
  split at h
  · rename_i hallowed
    obtain ⟨⟨e₁, r⟩, hcall, h⟩ := Option.bind_eq_some_iff.mp h
    split at h
    · rename_i hr
      obtain rfl := Option.some.inj h
      exact ⟨hallowed, hr ▸ hcall⟩
    · cases h
  · cases h

/-- A block is written and copied. The blocks at the front make room for one that
fits into no gap, and what was copied is still there. -/
def compacting : List (Call × Result) :=
  [(.allocBlock 6000, .handle 1), (.allocBlock 10, .handle 2), (.writePacket 2 0 [1, 2, 3], .count 3),
    (.allocBlock 10, .handle 3), (.copyPacket 3 4 2 0 3, .done), (.freeBlock 1, .done), (.allocBlock 6100, .handle 1),
    (.readPacket 3 4 3, .bytes [1, 2, 3]), (.readPacket 2 0 3, .bytes [1, 2, 3])]

theorem pool_refines_map_example : ∃ e, Run CallStep (init (fun _ => 0) []) compacting e ∧ Run MapStep (fun _ => none) compacting e.view := by
  have hcompute : (compacting.foldlM checked (init (fun _ => 0) [])).isSome := by decide +kernel
  obtain ⟨e, he⟩ := Option.isSome_iff_exists.mp hcompute
  have hrun : Run CallStep (init (fun _ => 0) []) (compacting.map id) e := .of_foldlM (g := id) (fun h => checked_step h) he
  rw [List.map_id] at hrun
  exact ⟨e, hrun, (pool_refines_map hrun).1⟩

/-- Two blocks of ten bytes, and a copy of no bytes between them. -/
theorem copy_of_no_bytes_hangs : ∃ e,
    Run CallStep (init (fun _ => 0) []) [(.allocBlock 10, .handle 1), (.allocBlock 10, .handle 2)] e ∧
    (Call.copyPacket 2 0 1 0 0).Allowed e.view ∧
    ¬∃ e' r, e.call (.copyPacket 2 0 1 0 0) = some (e', r) ∧
      MapStep e.view (.copyPacket 2 0 1 0 0, r) e'.view := by
  have hcompute : ((init (fun _ => 0) []).call (.allocBlock 10)).bind (fun p =>
      (p.1.call (.allocBlock 10)).map fun q =>
        (p.2, q.2, (q.1.view 1).isSome, (q.1.view 2).isSome)) =
      some (.handle 1, .handle 2, true, true) := by decide
  obtain ⟨⟨e₁, r₁⟩, h₁, h⟩ := Option.bind_eq_some_iff.mp hcompute
  obtain ⟨⟨e, r⟩, h₂, h⟩ := Option.map_eq_some_iff.mp h
  simp only [Prod.mk.injEq] at h
  obtain ⟨rfl, rfl, hc, hd⟩ := h
  obtain ⟨c, hc⟩ := Option.isSome_iff_exists.mp hc
  obtain ⟨d, hd⟩ := Option.isSome_iff_exists.mp hd
  have hpos : (Call.allocBlock 10).Allowed e₁.view := Nat.succ_pos 9
  have hrun : Run CallStep (init (fun _ => 0) [])
      [(.allocBlock 10, .handle 1), (.allocBlock 10, .handle 2)] e :=
    .snoc (.snoc .nil ⟨Nat.succ_pos 9, h₁⟩) ⟨hpos, h₂⟩
  have ha : (Call.copyPacket 2 0 1 0 0).Allowed e.view :=
    ⟨by decide, d, c, hd, hc, Nat.zero_le _, Nat.zero_le _⟩
  have hv : e.Valid := hrun.invariant
    (fun {_ x _} hv hs => (CallStep.ok (x := x.1) (r := x.2) hv hs).1) (init_valid _ _)
  refine ⟨e, hrun, ha, fun ⟨e', r, hcall, _⟩ => ?_⟩
  rw [call_nothing hv ha rfl] at hcall
  exact nomatch hcall

end UIPEthernet.Enc28J60Network
