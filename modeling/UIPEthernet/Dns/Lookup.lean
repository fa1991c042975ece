import UIPEthernet.Dns.Acceptance
import UIPEthernet.UIPUdp.Closed

/-!
# A lookup with the socket

The answer of `ProcessResponse` is that of a datagram which the socket has got
and which came from the server. Whatever it answers, `getHostByName` leaves the
socket closed.
-/

namespace UIPEthernet.DNSClient

open UIPUDP Lib UdpProg

variable {d : DNSClient} {fuel n k : Nat} {junk : Nat → List Byte} {message aAddress address : List Byte} {s s' : System} {ret : Int}
  {m : Mailbox} {Stack : System → System → Prop} {clock : Clock}

-- ---------------------------------------------------------------------------
-- A datagram that is there
-- ---------------------------------------------------------------------------

/-- `ProcessResponse` looks at the sender, and reads the datagram of the server. -/
theorem readResponse_exec {x : Int × List Byte} (h : Prog.Exec (Calls Stack clock k) (d.readResponse fuel junk aAddress) s x s') :
    (remote s k ≠ (d.iDNSServer, DNS_PORT) ∧ x = (INVALID_SERVER, aAddress)) ∨
      (remote s k = (d.iDNSServer, DNS_PORT) ∧ Prog.Exec (Calls Stack clock k) (d.readMessage fuel junk aAddress) s x s') := by
  obtain ⟨ip, s₁, hip, h⟩ := h.bind_inv
  obtain ⟨_, rfl, rfl, rfl⟩ := hip.ask_inv
  obtain ⟨port, s₂, hport, h⟩ := h.bind_inv
  obtain ⟨_, rfl, rfl, rfl⟩ := hport.ask_inv
  split at h
  · rename_i hother
    cases h
    refine .inl ⟨fun heq => ?_, rfl⟩
    obtain ⟨hip, hport⟩ := Prod.mk.inj heq
    exact hother.elim (fun hne => hne hip.symm) fun hne => hne hport
  · rename_i hserver
    obtain ⟨hip, hport⟩ := not_or.mp hserver
    exact .inr ⟨Prod.ext (not_not.mp hip).symm (not_not.mp hport), h⟩

/-- It comes back if it does so from reading. -/
theorem returns_readResponse
    (h : remote s k = (d.iDNSServer, DNS_PORT) → (d.readMessage fuel junk aAddress).Returns (Before Stack) (Acts clock k) s) :
    (d.readResponse fuel junk aAddress).Returns (Before Stack) (Acts clock k) s := by
  refine .call (fun _ => ⟨_, _, rfl, rfl⟩) fun hbefore hact => ?_
  obtain rfl : _ = s := hbefore
  obtain ⟨rfl, rfl⟩ := hact
  refine .call (fun _ => ⟨_, _, rfl, rfl⟩) fun hbefore hact => ?_
  obtain rfl : _ = _ := hbefore
  obtain ⟨rfl, rfl⟩ := hact
  show Prog.Returns _ _ (if _ then _ else _) _
  split
  · exact .done
  · rename_i hserver
    obtain ⟨hip, hport⟩ := not_or.mp hserver
    exact h (Prod.ext (not_not.mp hip).symm (not_not.mp hport))

/-- A name server that answers with an alias and its address. -/
def aliasResponse : Response where
  flags := 0x8180
  questions := [⟨[⟨[0x77], by decide, by decide⟩, ⟨[0x65, 0x75], by decide, by decide⟩], 1, 1⟩]
  answers := [⟨[], some ⟨0xc0, 12, by decide⟩, 5, 1, 300, [1, 0x78, 0xc0, 14], by decide⟩,
    ⟨[⟨[0x78], by decide, by decide⟩], some ⟨0xc0, 14, by decide⟩, 1, 1, 300, [10, 0, 0, 7], by decide⟩]
  nscount := 0
  arcount := 0
  rest := []
  fewQuestions := by decide
  fewAnswers := by decide

theorem aliasResponse_fine : aliasResponse.Fine := ⟨by decide, by decide, by decide, by decide⟩

theorem aliasResponse_labels :
    (∀ q ∈ aliasResponse.questions, q.labels.length < 4) ∧ ∀ a ∈ aliasResponse.answers, a.labels.length < 4 := by decide

def client : DNSClient := ⟨0x0a000001, 0x1234⟩

/-- A clock that stands still. -/
def stopped (now : BitVec 32) : Clock := ⟨fun _ shown => shown = now, fun _ => ⟨now, rfl⟩⟩

/-- The names of the questions end, if they are read at all. -/
def Ends (d : DNSClient) (junk : Nat → List Byte) (sender : Address) (message : List Byte) : Prop :=
  sender = (d.iDNSServer, DNS_PORT) → Accepted d message →
    ∃ rest, QuestionsEnd (fun n => (junk n).getD 5 0) (qdcount message) (message.drop DNS_HEADER_SIZE) rest

/-- A response that ends in the name of its question. -/
def cutResponse : List Byte := [0x34, 0x12, 0x81, 0x80, 0, 1, 0, 1, 0, 0, 0, 0, 3, 0x77]

/-- The loop over `parsePacket` is a run of the socket, and gives out a datagram
that was queued or has arrived. -/
theorem await_run {aTimeout startTime : BitVec 32} {found : Bool} (hk : Keeps s k m)
    (h : Prog.Exec (Calls (Ticks k) clock k) (await aTimeout startTime fuel) s found s') :
    ∃ es m', Run (TickStep k) s es s' ∧ Keeps s' k m' ∧
      (found = true → m'.rest ≠ [] ∧ m'.rest ∈ m.queued :: arrivals es) := by
  induction fuel generalizing s m with
  | zero => cases h
  | succ fuel ih =>
    obtain ⟨size, s₂, hparse, h⟩ := h.bind_inv
    obtain ⟨s₁, ⟨es₁, hticks, -⟩, hparse⟩ := hparse.ask_inv
    obtain ⟨m₁, hmail, hk₁⟩ := tickRun_mailbox hticks hk
    obtain ⟨t, ht, hk₂⟩ := parsePacket_ok hk₁
    obtain ⟨rfl, rfl⟩ := Prod.mk.inj (Option.some.inj (ht.symm.trans hparse))
    have hstep : Run (TickStep k) s (es₁ ++ [.parsePacket m₁.queued.length]) t :=
      hticks.snoc ⟨.parsePacket hparse, trivial⟩
    split at h
    · rename_i hsome
      cases h
      have hqueued := List.length_pos_iff.mp hsome
      refine ⟨_, _, hstep, hk₂, fun _ => ⟨hqueued, ?_⟩⟩
      rw [arrivals_snoc]
      exact List.mem_append_left _ (Mailbox.queued_arrived hmail hqueued)
    · obtain ⟨now, s₃, hmillis, hturn⟩ := h.bind_inv
      obtain ⟨_, rfl, rfl, -⟩ := hmillis.ask_inv
      split at hturn
      · cases hturn
        exact ⟨_, _, hstep, hk₂, fun hf => absurd hf Bool.false_ne_true⟩
      · obtain ⟨es, m', hrun, hk', hfound⟩ := ih hk₂ hturn
        refine ⟨_, m', hstep.append hrun, hk', fun htrue => ?_⟩
        obtain ⟨hne, hmem⟩ := hfound htrue
        refine ⟨hne, List.mem_cons_of_mem _ ?_⟩
        rw [arrivals_append]
        exact List.mem_append_right _ ((List.mem_cons.mp hmem).resolve_left hne)

theorem writeName_keepsOpen {aName : List Byte} : KeepsOpen (writeName fuel aName) := by
  induction fuel generalizing aName with
  | zero => exact .hang
  | succ fuel ih =>
    have hlabel : ∀ label : List Byte, KeepsOpen (writeLabel label) := by
      intro label
      rw [writeLabel]
      split
      · exact .bind (.ask rfl) fun _ => .bind (.ask rfl) fun _ => .done
      · exact .done
    refine .bind (hlabel _) fun _ => ?_
    split
    · exact .done
    · exact ih

theorem writeRequest_keepsOpen {iRequestId : Nat} {aName : List Byte} : KeepsOpen (writeRequest iRequestId aName) := by
  refine .bind (.ask rfl) fun _ => .bind (.ask rfl) fun _ => .bind (.ask rfl) fun _ => .bind (.ask rfl) fun _ =>
    .bind (.ask rfl) fun _ => .bind (.ask rfl) fun _ => .bind writeName_keepsOpen fun _ => ?_
  exact .bind (.ask rfl) fun _ => .bind (.ask rfl) fun _ => .bind (.ask rfl) fun _ => .done

theorem await_keepsOpen {aTimeout startTime : BitVec 32} : KeepsOpen (await aTimeout startTime fuel) := by
  induction fuel with
  | zero => exact .hang
  | succ fuel ih =>
    refine .bind (.ask rfl) fun size => ?_
    split
    · exact .done
    · refine .bind (.ask rfl) fun now => ?_
      split
      · exact .done
      · exact ih

theorem processResponse_keepsOpen {aTimeout : BitVec 32} : KeepsOpen (d.processResponse fuel junk aTimeout aAddress) := by
  refine .bind (.ask rfl) fun _ => .bind await_keepsOpen fun found => ?_
  split
  · refine .bind (.ask rfl) fun _ => .bind (.ask rfl) fun _ => ?_
    split
    · exact .done
    · exact (readMessage_onlyReads d).keepsOpen
  · exact .done

theorem query_keepsOpen {aHostname : List Byte} : KeepsOpen (d.query fuel junk aHostname aAddress) := by
  have hretries : ∀ {d : DNSClient} {n : Nat} {aResult : List Byte}, KeepsOpen (d.retries fuel junk n aResult) := by
    intro d n
    induction n with
    | zero => exact .done
    | succ n ih =>
      refine .bind processResponse_keepsOpen fun x => ?_
      split
      split
      · exact ih
      · exact .done
  refine .bind (.ask rfl) fun ok => ?_
  split
  · refine .bind (.bind (.ask rfl) fun _ => .bind writeRequest_keepsOpen fun _ => .done) fun id => .bind (.ask rfl) fun sent => ?_
    split
    · exact .bind hretries fun x => .done
    · exact .done
  · exact .done

/-- Whatever comes of it, a lookup leaves the socket closed. -/
theorem getHostByName_closes {aHostname aResult : List Byte} {x : Int × DNSClient × List Byte} (hclosed : Closed k s)
    (h : Prog.Exec (Calls System.Runs clock k) (d.getHostByName fuel junk aHostname aResult) s x s') : Closed k s' := by
  rw [getHostByName] at h
  split at h
  · cases h
    exact hclosed
  · split at h
    · cases h
      exact hclosed
    · obtain ⟨now, s₁, hmillis, hopen⟩ := h.bind_inv
      obtain ⟨_, rfl, rfl, -⟩ := hmillis.ask_inv
      obtain ⟨ok, s₂, hbegin, hrest⟩ := hopen.bind_inv
      obtain ⟨_, rfl, hcall⟩ := hbegin.ask_inv
      have hbegun := begin_closed hclosed hcall
      cases ok with
      | false =>
        cases hrest
        exact hbegun
      | true =>
        obtain ⟨r, s₃, hquery, hstop⟩ := hrest.bind_inv
        obtain ⟨⟨⟩, s₄, hstop, hend⟩ := hstop.bind_inv
        cases hend
        have hconn := exec_conn hquery query_keepsOpen hbegun
        obtain ⟨_, rfl, hcall⟩ := hstop.ask_inv
        exact stop_closed (hconn ▸ hbegun) hcall

/-- The calls of the first socket, with a clock that stands still. -/
def act (s : System) : (op : UdpCall) → Option (op.Answer × System)
  | .begin port => (UIPUDP.begin s 0 port).map Prod.swap
  | .stop => (UIPUDP.stop s 0).map fun s => ((), s)
  | .beginPacket ip port => (UIPUDP.beginPacket s 0 ip port).map Prod.swap
  | .write buffer => some (UIPUDP.write s 0 buffer).swap
  | .endPacket => (UIPUDP.endPacket s 0).map Prod.swap
  | .parsePacket => (UIPUDP.parsePacket s 0).map Prod.swap
  | .available => some (UIPUDP.available s 0, s)
  | .read len => (UIPUDP.read s 0 len).map Prod.swap
  | .flush => (UIPUDP.flush s 0).map fun s => ((), s)
  | .remoteIP => some (UIPUDP.remoteIP s 0, s)
  | .remotePort => some (UIPUDP.remotePort s 0, s)
  | .millis => some (0, s)
  | .random _ _ => none

/-- The address 10.0.0.7, from port 53 of 10.0.0.2 to port 1024 of 10.0.0.1. -/
def responseFrame : List Byte :=
  [1, 2, 3, 4, 5, 6, 6, 5, 4, 3, 2, 1, 8, 0] ++
  [0x45, 0, 0, 56, 0, 0, 0, 0, 64, 17, 0x66, 0xb3, 10, 0, 0, 2, 10, 0, 0, 1] ++
  [0, 53, 4, 0, 0, 36, 0, 0] ++
  [0, 0, 0x81, 0x80, 0, 0, 0, 1, 0, 0, 0, 0] ++
  [0xc0, 12, 0, 1, 0, 1, 0, 0, 1, 0x2c, 0, 4, 10, 0, 0, 7]

/-- What comes in before a call: the response, before `parsePacket`. -/
def coming : UdpCall → List Byte × Nat
  | .parsePacket => ([80, 0, 74, 0, 0x80, 0] ++ responseFrame ++ [0, 0, 0, 0], 1)
  | _ => ([], 0)

def passing (s : System) (op : UdpCall) : Option System :=
  if op.ticks then (s.arrive (coming op).1 (coming op).2).tick 0 fun _ => 1 else some s

theorem passing_before {op : UdpCall} (h : passing s op = some s') : Before System.Runs s op s' := by
  rw [passing] at h
  rw [Before]
  split at h
  · rename_i hticks
    rw [if_pos hticks]
    exact ⟨_, _, _, _, h⟩
  · rename_i hnone
    cases h
    rw [if_neg hnone]

theorem act_acts {op : UdpCall} {x : op.Answer} (h : act s op = some (x, s')) : Acts (stopped 0) 0 s op x s' := by
  have hswap : ∀ {α : Type} {call : Option (System × α)} {y : α}, call.map Prod.swap = some (y, s') → call = some (s', y) := by
    intro α call y h
    obtain ⟨⟨t, z⟩, hcall, hz⟩ := Option.map_eq_some_iff.mp h
    cases hz
    exact hcall
  have hunit : ∀ {call : Option System}, call.map (fun t => ((), t)) = some ((), s') → call = some s' := by
    intro call h
    obtain ⟨t, hcall, ht⟩ := Option.map_eq_some_iff.mp h
    cases ht
    exact hcall
  cases op with
  | begin _ | beginPacket _ _ | endPacket | parsePacket | read _ => exact hswap h
  | stop | flush => exact hunit h
  | write buffer => exact congrArg Prod.swap (Option.some.inj h)
  | available | remoteIP | remotePort | millis =>
    cases h
    exact ⟨rfl, rfl⟩
  | random _ _ => cases h

/-- The first socket can reach 10.0.0.2. -/
def online : System :=
  ((System.init (fun _ => 0) [⟨true, []⟩] [1, 2, 3, 4, 5, 6] 0).configure 0x0a000001 0 0xff000000).mapUip fun u =>
    u.arpUpdate 0x0a000002 [6, 5, 4, 3, 2, 1]

/-- The request for `x` is sent, and the response read. -/
theorem getHostByName_closes_example : ∃ s', s'.net.sent.length = 1 ∧
    Prog.Exec (Calls System.Runs (stopped 0) 0) (DNSClient.getHostByName ⟨0x0a000002, 0⟩ 2 (fun _ => []) [0x78] [0, 0, 0, 0]) online
      (1, ⟨0x0a000002, 0⟩, [10, 0, 0, 7]) s' ∧ Closed 0 s' := by
  have hcompute : ((DNSClient.getHostByName ⟨0x0a000002, 0⟩ 2 (fun _ => []) [0x78] [0, 0, 0, 0]).eval
      (fun s op => (passing s op).bind fun s => act s op) online).map (fun x => (x.1, x.2.net.sent.length)) =
      some ((1, ⟨0x0a000002, 0⟩, [10, 0, 0, 7]), 1) := by
    decide +kernel
  obtain ⟨⟨x, s'⟩, heval, hx⟩ := Option.map_eq_some_iff.mp hcompute
  obtain ⟨rfl, hsent⟩ := Prod.mk.inj hx
  have hexec : Prog.Exec (Calls System.Runs (stopped 0) 0) _ online _ s' := Prog.eval_exec heval fun h => by
    obtain ⟨s₁, hpassing, hact⟩ := Option.bind_eq_some_iff.mp h
    exact ⟨s₁, passing_before hpassing, act_acts hact⟩
  have hclosed : Closed 0 online := rfl
  exact ⟨s', hsent, hexec, getHostByName_closes hclosed hexec⟩

end UIPEthernet.DNSClient
