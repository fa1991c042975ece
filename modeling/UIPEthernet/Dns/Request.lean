import UIPEthernet.Dns.Response
import UIPEthernet.UIPUdp.Writing

/-!
# The request

`BuildRequest` writes a message that asks for the address of the name: the
sections between the dots are its labels, and empty ones are left out.
-/

namespace UIPEthernet.DNSClient

open UIPUDP Lib UdpProg

/-- The sections of a name that are not empty. -/
def sections (aName : List Byte) : List (List Byte) := (aName.splitOn dot).filter fun label => !label.isEmpty

/-- The message that asks for the address of a name. -/
def request (labels : List Label) : Response where
  flags := 0x0100
  questions := [⟨labels, 1, 1⟩]
  answers := []
  nscount := 0
  arcount := 0
  rest := []
  fewQuestions := show 1 < 65536 by decide
  fewAnswers := by decide

variable {fuel k : Nat} {labels : List Label} {aName payload : List Byte} {s s' : System} {sub : List (List Byte)}
  {Stack : System → System → Prop} {clock : Clock}

/-- One round of the loop over the name. -/
theorem splitOn_dot (aName : List Byte) :
    (aName.drop (aName.takeWhile (· ≠ dot)).length = [] ∧ aName.splitOn dot = [aName.takeWhile (· ≠ dot)]) ∨
      ∃ rest, aName.drop (aName.takeWhile (· ≠ dot)).length = dot :: rest ∧
        aName.splitOn dot = aName.takeWhile (· ≠ dot) :: rest.splitOn dot := by
  induction aName with
  | nil => exact .inl ⟨rfl, rfl⟩
  | cons c aName ih =>
    rw [List.splitOn_cons_eq_if_modifyHead]
    by_cases hc : c = dot
    · subst hc
      exact .inr ⟨aName, rfl, by simp⟩
    · have htake : (c :: aName).takeWhile (· ≠ dot) = c :: aName.takeWhile (· ≠ dot) := List.takeWhile_cons_of_pos (by simpa using hc)
      rw [htake, if_neg (by simpa using hc)]
      rcases ih with ⟨hdrop, hsplit⟩ | ⟨rest, hdrop, hsplit⟩
      · exact .inl ⟨hdrop, by rw [hsplit]; rfl⟩
      · exact .inr ⟨rest, hdrop, by rw [hsplit]; rfl⟩

/-- A section is written as the label that it is. -/
theorem writing_writeLabel {label : List Byte} (hlabels : labels.map Label.chars = [label].filter fun label => !label.isEmpty) :
    writing (writeLabel label) payload = some ((), payload ++ labelBytes labels) := by
  cases label with
  | nil =>
    obtain rfl := List.map_eq_nil_iff.mp hlabels
    simp [writeLabel, labelBytes]
  | cons c chars =>
    obtain ⟨l, rest, rfl, hchars, hrest⟩ := List.map_eq_cons_iff.mp hlabels
    obtain rfl := List.map_eq_nil_iff.mp hrest
    simp [writeLabel, labelBytes, hchars]

theorem writing_writeName (hlabels : labels.map Label.chars = sections aName) (hfuel : aName.length < fuel) :
    writing (writeName fuel aName) payload = some ((), payload ++ labelBytes labels) := by
  induction fuel generalizing aName labels payload with
  | zero => exact absurd hfuel (Nat.not_lt_zero _)
  | succ fuel ih =>
    rw [writeName, writing_bind]
    rw [sections] at hlabels
    rcases splitOn_dot aName with ⟨hdrop, hsplit⟩ | ⟨rest, hdrop, hsplit⟩
    · rw [hsplit] at hlabels
      rw [writing_writeLabel hlabels, Option.bind_some, hdrop, writing_pure]
    · rw [hsplit, ← List.singleton_append, List.filter_append] at hlabels
      obtain ⟨labels₁, labels₂, rfl, hfirst, hrest⟩ := List.map_eq_append_iff.mp hlabels
      have hshort : rest.length < aName.length := by
        have hlen := congrArg List.length hdrop
        rw [List.length_drop, List.length_cons] at hlen
        omega
      rw [writing_writeLabel hfirst, Option.bind_some, hdrop]
      have happend : labelBytes (labels₁ ++ labels₂) = labelBytes labels₁ ++ labelBytes labels₂ := List.flatMap_append
      rw [happend, ← List.append_assoc]
      exact ih hrest (by omega)

theorem writing_writeRequest {id : BitVec 16} (hlabels : labels.map Label.chars = sections aName) :
    writing (writeRequest id.toNat aName) payload = some ((), payload ++ (request labels).bytes id) := by
  have hname : ∀ {payload : List Byte}, writing (writeName (aName.length + 1) aName) payload = some ((), payload ++ labelBytes labels) :=
    writing_writeName hlabels (Nat.lt_succ_self _)
  have hlow : BitVec.ofNat 8 id.toNat = id.setWidth 8 := BitVec.eq_of_toNat_eq (by simp)
  have hhigh : BitVec.ofNat 8 (id.toNat / 256) = (id >>> 8).setWidth 8 := BitVec.eq_of_toNat_eq (by simp [Nat.shiftRight_eq_div_pow])
  have hbytes : (request labels).bytes id = [id.setWidth 8, (id >>> 8).setWidth 8] ++ (htonsBytes RECURSION_DESIRED_FLAG ++ (htonsBytes 1 ++
      (htonsBytes 0 ++ (htonsBytes 0 ++ (htonsBytes 0 ++ (labelBytes labels ++ ([0] ++ (htonsBytes TYPE_A ++ htonsBytes CLASS_IN)))))))) := by
    simp [request, Response.bytes, Response.header, Question.bytes, RECURSION_DESIRED_FLAG, TYPE_A, CLASS_IN]
  rw [hbytes, writeRequest]
  simp only [writing_bind, writing_write, Option.bind_some, hname, writing_pure, hlow, hhigh, List.append_assoc]

theorem request_length {id : BitVec 16} : ((request labels).bytes id).length = (labelBytes labels).length + 17 := by
  simp [request, Response.bytes, Response.header, Question.bytes]
  omega

theorem writing_request (now : BitVec 32) (hlabels : labels.map Label.chars = sections aName) :
    writing (writeRequest (now.toNat % 65536) aName >>= fun _ => pure (now.toNat % 65536)) [] =
      some (now.toNat % 65536, (request labels).bytes (now.setWidth 16)) := by
  have hid : (now.setWidth 16).toNat = now.toNat % 65536 := BitVec.toNat_setWidth ..
  rw [writing_bind, ← hid, writing_writeRequest hlabels]
  rfl

/-- The packet of a request for a name with labels of up to 63 characters is the
message that asks for its labels. In front is `iRequestId`, the low half of what
the clock shows. -/
theorem request_written (hk : Sends s k ⟨.writing [], sub⟩) (hlabels : labels.map Label.chars = sections aName)
    (hlen : ((request labels).bytes 0).length ≤ UIP_UDP_MAXDATALEN) :
    (buildRequest aName).Returns (Before Stack) (Acts clock k) s ∧
      ∀ iRequestId s', Prog.Exec (Calls Stack clock k) (buildRequest aName) s iRequestId s' →
        ∃ now, clock.shows s now ∧ iRequestId = now.toNat % 65536 ∧
          Sends s' k ⟨.writing ((request labels).bytes (now.setWidth 16)), sub⟩ := by
  have hfits : ∀ id : BitVec 16, ((request labels).bytes id).length ≤ UIP_UDP_MAXDATALEN := by
    intro id
    rw [request_length] at hlen ⊢
    exact hlen
  constructor
  · refine .call (fun {s₁} _ => ?_) fun hbefore hact => ?_
    · obtain ⟨now, hnow⟩ := clock.goes s₁
      exact ⟨now, s₁, rfl, hnow⟩
    · obtain rfl : _ = s := hbefore
      obtain ⟨rfl, -⟩ := hact
      exact writing_returns (writing_request _ hlabels) (hfits _) hk
  · intro iRequestId s' h
    obtain ⟨now, s₁, hmillis, hwrite⟩ := h.bind_inv
    obtain ⟨s₂, rfl, rfl, hnow⟩ := hmillis.ask_inv
    obtain ⟨rfl, hk'⟩ := writing_exec hwrite (writing_request now hlabels) (hfits _) hk
    exact ⟨now, hnow, rfl, hk'⟩

/-- A request for `a.bc`, while the clock shows 0x12345. -/
theorem request_written_example : ∃ s s', Prog.Exec (Calls (Ticks 0) ⟨fun _ now => now = 0x12345, fun _ => ⟨_, rfl⟩⟩ 0)
    (buildRequest [0x61, 0x2e, 0x62, 0x63]) s 0x2345 s' ∧
    Sends s' 0 ⟨.writing ((request [⟨[0x61], by decide, by decide⟩, ⟨[0x62, 0x63], by decide, by decide⟩]).bytes 0x2345), []⟩ := by
  obtain ⟨s, hk⟩ := opened
  obtain ⟨hreturns, hall⟩ := @request_written 0 [⟨[0x61], by decide, by decide⟩, ⟨[0x62, 0x63], by decide, by decide⟩]
    [0x61, 0x2e, 0x62, 0x63] s [] (Ticks 0) ⟨fun _ now => now = 0x12345, fun _ => ⟨_, rfl⟩⟩ hk (by decide) (by decide)
  obtain ⟨iRequestId, s', h⟩ := hreturns.exec Before.refl
  obtain ⟨now, rfl, rfl, hk'⟩ := hall iRequestId s' h
  exact ⟨s, s', h, hk'⟩

end UIPEthernet.DNSClient
