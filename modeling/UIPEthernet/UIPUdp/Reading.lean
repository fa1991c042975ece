import UIPEthernet.UdpCall
import UIPEthernet.UIPUdp.Mailbox
import UIPEthernet.UIPUdp.Remote

/-!
# Reading a datagram

A program that only reads gets what the bytes of its datagram say, whatever the
stack does between its calls. `reading` is that plain function of the bytes.
-/

namespace UIPEthernet

open Lib

-- ---------------------------------------------------------------------------
-- The bytes that are left
-- ---------------------------------------------------------------------------

namespace UdpCall

/-- The calls that start with a `tick`. -/
def ticks : UdpCall → Bool
  | beginPacket _ _ | parsePacket | available | read _ | flush => true
  | _ => false

def reads : UdpCall → Bool
  | available | read _ | flush => true
  | _ => false

/-- The calls on the bytes that are left to read. -/
def onMessage : List Byte → (op : UdpCall) → Option (op.Answer × List Byte)
  | rest, available => some (rest.length, rest)
  | rest, read len => some (rest.take len, rest.drop len)
  | _, flush => some ((), [])
  | _, _ => none

end UdpCall

namespace UdpProg

variable {α β : Type} {p : UdpProg α} {f : α → UdpProg β} {message : List Byte}

def reading (p : UdpProg α) (message : List Byte) : Option (α × List Byte) := p.eval UdpCall.onMessage message

abbrev OnlyReads (p : UdpProg α) : Prop := p.Only fun op => op.reads

@[simp] theorem reading_pure (a : α) : reading (pure a) message = some (a, message) := rfl

@[simp] theorem reading_hang : reading (.hang : UdpProg α) message = none := rfl

@[simp] theorem reading_bind : reading (p >>= f) message = (reading p message).bind fun x => reading (f x.1) x.2 := Prog.eval_bind

@[simp] theorem reading_available : reading available message = some (message.length, message) := rfl

@[simp] theorem reading_readBytes (len : Nat) : reading (readBytes len) message = some (message.take len, message.drop len) := rfl

@[simp] theorem reading_flush : reading flush message = some ((), []) := rfl

@[simp] theorem reading_skip (n : Nat) : reading (skip n) message = some ((), message.drop n) := by
  induction n generalizing message with
  | zero => rfl
  | succ n ih => simp [skip, readByte, ih]

theorem skip_onlyReads (n : Nat) : OnlyReads (skip n) := by
  induction n with
  | zero => exact .done
  | succ n ih => exact .bind (.bind (.ask rfl) fun _ => .done) fun _ => ih

end UdpProg

-- ---------------------------------------------------------------------------
-- The socket
-- ---------------------------------------------------------------------------

namespace UIPUDP

open Enc28J60Network

variable {s s' s₁ : System} {k : Nat} {m : Mailbox} {clock : Clock} {α : Type} {p : UdpProg α}

def SocketEvent.isAside : SocketEvent → Bool
  | .arrive _ _ | .other => true
  | _ => false

/-- A step of the socket in which no copy passes the end of the ring. The
datagrams that arrive have a payload. -/
structure TickStep (k : Nat) (s : System) (ev : SocketEvent) (s' : System) : Prop where
  step : SocketStep k s ev s'
  unwrapped : Unwrapped k s ev

/-- The stack runs, as it does in `tick`: datagrams may arrive, and things happen
elsewhere. -/
def Ticks (k : Nat) : System → System → Prop := Steps (TickStep k) fun ev => ev.isAside

/-- The clock of the Arduino core. -/
structure Clock where
  shows : System → BitVec 32 → Prop
  goes (s : System) : ∃ now, shows s now

/-- What `Stack` does in the `tick` at the start of a call. -/
def Before (Stack : System → System → Prop) (s : System) (op : UdpCall) (s₁ : System) : Prop :=
  if op.ticks then Stack s s₁ else s₁ = s

/-- What the calls of the object `k` do, behind the `tick`. -/
def Acts (clock : Clock) (k : Nat) (s : System) : (op : UdpCall) → op.Answer → System → Prop
  | .begin port, ok, s' => begin s k port = some (s', ok)
  | .stop, _, s' => stop s k = some s'
  | .beginPacket ip port, ok, s' => beginPacket s k ip port = some (s', ok)
  | .write buffer, n, s' => write s k buffer = (s', n)
  | .endPacket, ok, s' => endPacket s k = some (s', ok)
  | .parsePacket, size, s' => parsePacket s k = some (s', size)
  | .available, n, s' => s' = s ∧ n = available s k
  | .read len, bytes, s' => read s k len = some (s', bytes)
  | .flush, _, s' => flush s k = some s'
  | .remoteIP, ip, s' => s' = s ∧ ip = remoteIP s k
  | .remotePort, port, s' => s' = s ∧ port = remotePort s k
  | .millis, now, s' => s' = s ∧ clock.shows s now
  | .random howsmall howbig, n, s' => s' = s ∧ howsmall ≤ n ∧ n < howbig

def Calls (Stack : System → System → Prop) (clock : Clock) (k : Nat) (s : System) (op : UdpCall) (x : op.Answer) (s' : System) : Prop :=
  ∃ s₁, Before Stack s op s₁ ∧ Acts clock k s₁ op x s'

/-- The object has `rest` left of its datagram. -/
def HasLeft (k : Nat) (s : System) (rest : List Byte) : Prop := ∃ m, Keeps s k m ∧ m.rest = rest

theorem Ticks.keeps (h : Ticks k s s₁) (hk : Keeps s k m) : ∃ m', Keeps s₁ k m' ∧ m'.rest = m.rest := by
  obtain ⟨es, hrun, haside⟩ := h
  induction hrun with
  | nil => exact ⟨m, hk, rfl⟩
  | snoc _ hstep ih =>
    obtain ⟨m₁, hk₁, hrest₁⟩ := ih fun e he => haside e (List.mem_append_left _ he)
    obtain ⟨m', hmail, hk'⟩ := hstep.step.ok hk₁ hstep.unwrapped
    refine ⟨m', hk', Eq.trans ?_ hrest₁⟩
    have he := haside _ (List.mem_append_right _ List.mem_cons_self)
    cases hmail with
    | store | drop | other => rfl
    | parsePacket | available | read | peek | flush => cases he

theorem tickRun_mailbox {es : List SocketEvent} (h : Run (TickStep k) s es s') (hk : Keeps s k m) :
    ∃ m', Run Mailbox.Step m es m' ∧ Keeps s' k m' :=
  h.simulation (R := fun s m => Keeps s k m) (fun hk hstep => hstep.step.ok hk hstep.unwrapped) hk

theorem arrivals_append (es es' : List SocketEvent) : arrivals (es ++ es') = arrivals es ++ arrivals es' := List.flatMap_append

/-- What is queued was queued before, or has arrived. -/
theorem Mailbox.queued_arrived {es : List SocketEvent} {m' : Mailbox} (h : Run Mailbox.Step m es m') (hsome : m'.queued ≠ []) :
    m'.queued ∈ m.queued :: arrivals es := by
  induction h with
  | nil => exact List.mem_cons_self
  | snoc _ hstep ih =>
    rw [arrivals_snoc]
    cases hstep with
    | store => exact List.mem_cons_of_mem _ (List.mem_append_right _ (List.mem_singleton_self _))
    | parsePacket => exact absurd rfl hsome
    | _ => exact List.mem_cons.mpr ((List.mem_cons.mp (ih hsome)).imp_right fun h => List.mem_append_left _ h)

theorem HasLeft.ticks {rest : List Byte} (h : HasLeft k s rest) (hticks : Ticks k s s₁) : HasLeft k s₁ rest := by
  obtain ⟨m, hk, rfl⟩ := h
  exact hticks.keeps hk

theorem HasLeft.before {op : UdpCall} {rest : List Byte} (h : HasLeft k s rest) (hbefore : Before (Ticks k) s op s₁) : HasLeft k s₁ rest := by
  rw [Before] at hbefore
  split at hbefore
  · exact h.ticks hbefore
  · exact hbefore ▸ h

theorem Before.refl (s : System) (op : UdpCall) : Before (Ticks k) s op s := by
  rw [Before]
  split
  · exact .refl s
  · rfl

theorem reads_of_onMessage {op : UdpCall} {x : op.Answer × List Byte} {rest : List Byte} (h : op.onMessage rest = some x) : op.reads := by
  cases op with
  | available | read _ | flush => rfl
  | _ => cases h

/-- The calls do what they do on the bytes. -/
theorem Acts.onMessage {op : UdpCall} {x : op.Answer} {rest : List Byte} (hop : op.reads) (h : HasLeft k s rest)
    (hact : Acts clock k s op x s') : ∃ rest', op.onMessage rest = some (x, rest') ∧ HasLeft k s' rest' := by
  obtain ⟨m, hk, rfl⟩ := h
  cases op with
  | available =>
    obtain ⟨rfl, rfl⟩ := hact
    exact ⟨m.rest, congrArg (fun n => some (n, m.rest)) (blockSize_eq hk.current).symm, m, hk, rfl⟩
  | read len =>
    obtain ⟨t, ht, hk'⟩ := read_ok hk len
    obtain ⟨rfl, rfl⟩ := Prod.mk.inj (Option.some.inj (ht.symm.trans hact))
    exact ⟨_, rfl, _, hk', rfl⟩
  | flush =>
    obtain ⟨t, ht, hk'⟩ := flush_ok hk
    obtain rfl := Option.some.inj (ht.symm.trans hact)
    exact ⟨_, rfl, _, hk', rfl⟩
  | _ => cases hop

/-- They come back. -/
theorem Acts.returns {op : UdpCall} {x : op.Answer} {rest rest' : List Byte} (h : HasLeft k s rest)
    (hmessage : op.onMessage rest = some (x, rest')) : ∃ s', Acts clock k s op x s' := by
  obtain ⟨m, hk, rfl⟩ := h
  cases op with
  | available =>
    cases hmessage
    exact ⟨s, rfl, (blockSize_eq hk.current).symm⟩
  | read len =>
    cases hmessage
    obtain ⟨s', hread, -⟩ := read_ok hk len
    exact ⟨s', hread⟩
  | flush =>
    cases hmessage
    obtain ⟨s', hflush, -⟩ := flush_ok hk
    exact ⟨s', hflush⟩
  | _ => cases hmessage

/-- A program that only reads gets what is in the bytes that are left. -/
theorem reading_exec {a : α} {rest : List Byte} (h : Prog.Exec (Calls (Ticks k) clock k) p s a s') (honly : p.OnlyReads)
    (hleft : HasLeft k s rest) : ∃ rest', p.reading rest = some (a, rest') ∧ HasLeft k s' rest' := by
  refine h.eval honly (fun hop hleft hcall => ?_) hleft
  obtain ⟨s₁, hbefore, hact⟩ := hcall
  exact hact.onMessage hop (hleft.before hbefore)

/-- It comes to its end there if it does so on the bytes. -/
theorem reading_returns {a : α} {rest rest' : List Byte} (h : p.reading rest = some (a, rest')) (hleft : HasLeft k s rest) :
    p.Returns (Before (Ticks k)) (Acts clock k) s := by
  refine Prog.eval_returns h (fun hleft hbefore => hleft.before hbefore) (fun hleft hmessage => ?_) hleft
  refine ⟨Acts.returns hleft hmessage, fun hact => ?_⟩
  obtain ⟨rest₁, hanswer, hleft'⟩ := hact.onMessage (reads_of_onMessage hmessage) hleft
  obtain ⟨rfl, rfl⟩ := Prod.mk.inj (Option.some.inj (hmessage.symm.trans hanswer))
  exact ⟨rfl, hleft'⟩

-- ---------------------------------------------------------------------------
-- A socket with a datagram
-- ---------------------------------------------------------------------------

/-- The first socket has the connection to a peer, and a datagram in a block. -/
def holding (net : Enc28J60Network) (peer : Address) (data : UdpUserdata) : System :=
  { emptySystem with
    net := net
    uipUdpConns := fun _ => ⟨peer.1, 0, htons peer.2, 0, some 0⟩
    sockets := fun _ => ⟨some 0, data⟩ }

theorem holding_remote {net : Enc28J60Network} {peer : Address} {data : UdpUserdata} (hport : peer.2 < 65536) :
    remote (holding net peer data) 0 = peer :=
  Prod.ext rfl (htons_htons hport)

theorem stored (message : List Byte) (hne : message ≠ []) (hsize : message.length ≤ MEMPOOL_SIZE) :
    ∃ (net : Enc28J60Network) (h : Handle), net.Valid ∧ net.view h = some message := by
  have hpos : 1 ≤ message.length := List.length_pos_iff.mpr hne
  have hinit := init_valid (fun _ => 0) []
  obtain ⟨net, h, -, hres, -⟩ := allocBlock_ok hinit hpos
  cases hres with
  | @placed _ c _ _ hlen hchanged =>
    have hview : net.view h = some c := by rw [hchanged.view, Function.update_self]
    have hwritten := (writePacket_ok hchanged.valid hview (Nat.zero_le _) message).2
    refine ⟨_, h, hwritten.valid, ?_⟩
    rw [hwritten.view, Function.update_self]
    simp [splice, hlen]
  | failed hcannot _ =>
    refine absurd ⟨?_, by decide⟩ hcannot
    have hnone : MemoryPool.inUse (init (fun _ => 0) []).blocks = 0 := by decide
    omega

theorem holding_in (message : List Byte) (peer : Address) (hne : message ≠ []) (hsize : message.length ≤ MEMPOOL_SIZE) :
    ∃ net data, HasLeft 0 (holding net peer data) message := by
  obtain ⟨net, h, hvalid, hview⟩ := stored message hne hsize
  exact ⟨net, { start with packetIn := h }, ⟨[], message, []⟩, ⟨hvalid, .inl ⟨rfl, rfl⟩, .inr hview, fun h => absurd rfl h⟩, rfl⟩

theorem holding_next (message : List Byte) (peer : Address) (hne : message ≠ []) (hsize : message.length ≤ MEMPOOL_SIZE) :
    ∃ net data, Keeps (holding net peer data) 0 ⟨message, [], []⟩ := by
  obtain ⟨net, h, hvalid, hview⟩ := stored message hne hsize
  exact ⟨net, { start with packetNext := h }, hvalid, .inr hview, .inl ⟨rfl, rfl⟩, fun _ h0 => (view_ne hview).1 h0.symm⟩

end UIPUDP

end UIPEthernet
