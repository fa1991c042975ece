import UIPEthernet.UIPUdp.Reading
import UIPEthernet.UIPUdp.Sender

/-!
# Writing a datagram

What a program writes is its packet, as long as it fits.
-/

namespace UIPEthernet

open Lib

/-- The calls on the bytes that are written. -/
def UdpCall.onPacket : List Byte → (op : UdpCall) → Option (op.Answer × List Byte)
  | payload, write buffer => some (buffer.length, payload ++ buffer)
  | _, _ => none

namespace UdpProg

variable {α β : Type} {p : UdpProg α} {f : α → UdpProg β} {payload payload' : List Byte} {a : α}

def writing (p : UdpProg α) (payload : List Byte) : Option (α × List Byte) := p.eval UdpCall.onPacket payload

@[simp] theorem writing_pure (a : α) : writing (pure a) payload = some (a, payload) := rfl

@[simp] theorem writing_bind : writing (p >>= f) payload = (writing p payload).bind fun x => writing (f x.1) x.2 := Prog.eval_bind

@[simp] theorem writing_write (buffer : List Byte) : writing (write buffer) payload = some (buffer.length, payload ++ buffer) := rfl

/-- Nothing is taken back. -/
theorem writing_extends (h : writing p payload = some (a, payload')) : payload <+: payload' := by
  induction p generalizing payload with
  | done => cases h; exact List.prefix_refl _
  | hang => cases h
  | call op next ih =>
    obtain ⟨⟨x, payload₁⟩, hcall, hrest⟩ := Option.bind_eq_some_iff.mp h
    cases op with
    | write buffer =>
      cases hcall
      exact (List.prefix_append _ _).trans (ih _ hrest)
    | _ => cases hcall

end UdpProg

namespace UIPUDP

open UdpProg Enc28J60Network

variable {s s' : System} {k : Nat} {Stack : System → System → Prop} {clock : Clock} {α : Type} {p : UdpProg α}
  {payload payload' : List Byte} {sub : List (List Byte)} {a b : α}

theorem Sends.room {buffer : List Byte} (hk : Sends s k ⟨.writing payload, sub⟩)
    (hlen : (payload ++ buffer).length ≤ UIP_UDP_MAXDATALEN) :
    (s.sockets k).appdata.outPos + buffer.length ≤ UIP_UDP_PHYH_LEN + UIP_SENDBUFFER_OFFSET + UIP_UDP_MAXDATALEN := by
  obtain ⟨-, -, hs⟩ := hk
  cases hs with
  | writing _ _ hpos _ _ =>
    rw [List.length_append] at hlen
    rw [hpos, outPosOf]
    omega

/-- A program that writes a datagram which fits has written it at its end. -/
theorem writing_exec (h : Prog.Exec (Calls Stack clock k) p s b s') (hwriting : writing p payload = some (a, payload'))
    (hlen : payload'.length ≤ UIP_UDP_MAXDATALEN) (hk : Sends s k ⟨.writing payload, sub⟩) :
    b = a ∧ Sends s' k ⟨.writing payload', sub⟩ := by
  induction p generalizing s payload with
  | done =>
    cases hwriting
    cases h
    exact ⟨rfl, hk⟩
  | hang => cases h
  | call op next ih =>
    obtain ⟨⟨y, payload₁⟩, hcall, hrest⟩ := Option.bind_eq_some_iff.mp hwriting
    cases op with
    | write buffer =>
      cases hcall
      cases h with
      | call hstep hexec =>
        obtain ⟨s₁, rfl, hact⟩ := hstep
        have hfits := (writing_extends hrest).length_le.trans hlen
        obtain ⟨rfl, hk₁⟩ := write_writing hk (hk.room hfits) hact
        exact ih _ hexec hrest hk₁
    | _ => cases hcall

/-- It comes to its end. -/
theorem writing_returns (h : writing p payload = some (a, payload')) (hlen : payload'.length ≤ UIP_UDP_MAXDATALEN)
    (hk : Sends s k ⟨.writing payload, sub⟩) : p.Returns (Before Stack) (Acts clock k) s := by
  induction p generalizing s payload with
  | done => exact .done
  | hang => cases h
  | call op next ih =>
    obtain ⟨⟨y, payload₁⟩, hcall, hrest⟩ := Option.bind_eq_some_iff.mp h
    cases op with
    | write buffer =>
      cases hcall
      have hfits := (writing_extends hrest).length_le.trans hlen
      refine .call (fun _ => ⟨_, _, rfl⟩) fun hbefore hact => ?_
      obtain rfl : _ = s := hbefore
      obtain ⟨rfl, hk₁⟩ := write_writing hk (hk.room hfits) hact
      exact ih _ hrest hk₁
    | _ => cases hcall

/-- The first socket behind its `beginPacket`. -/
theorem opened : ∃ s, Sends s 0 ⟨.writing [], []⟩ := by
  let s := holding emptySystem.net (0, 0) start
  have hidle : Sends s 0 Sender.empty := ⟨init_valid _ _, fun _ _ => rfl, .idle rfl rfl⟩
  have hcompute : (beginPacket s 0 0 0).map Prod.snd = some true := by decide +kernel
  obtain ⟨⟨s', ok⟩, hcall, rfl⟩ := Option.map_eq_some_iff.mp hcompute
  rcases beginPacket_cases hidle hcall with ⟨hok, -⟩ | ⟨-, -, hwriting⟩
  · cases hok
  · exact ⟨s', hwriting⟩

end UIPUDP

end UIPEthernet
