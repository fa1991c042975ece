import UIPEthernet.Dns

/-!
# Numeric addresses

`inet_aton` takes what consists of digits and dots and has at most four
segments, each with a value that is not above 255 in 16 bits. Segments may be
empty, and those that are not there leave their bytes of the result.
-/

namespace UIPEthernet.DNSClient

/-- `segmentValue` behind a digit. -/
def digit (segmentValue : BitVec 16) (c : Byte) : BitVec 16 := segmentValue * 10 + (c - zero).setWidth 16

/-- The values of the segments, with what has been read of the first one. -/
def segmentValues : BitVec 16 → List Byte → List (BitVec 16)
  | v, [] => [v]
  | v, c :: p => if c = dot then v :: segmentValues 0 p else segmentValues (digit v c) p

/-- The value of a segment, as an `int` of 16 bits. -/
def TooLarge (v : BitVec 16) : Prop := (255 : BitVec 16).slt v

instance (v : BitVec 16) : Decidable (TooLarge v) := inferInstanceAs (Decidable (_ = true))

/-- What `inet_aton` does behind the loop. -/
def lastSegment : Option (Nat × BitVec 16) × List Byte → Bool × List Byte
  | (none, aResult) => (false, aResult)
  | (some (segment, segmentValue), aResult) =>
    if (255 : BitVec 16).slt segmentValue ∨ 3 < segment then (false, aResult)
    else (true, aResult.set segment (segmentValue.setWidth 8))

variable {p aResult aResult' before behind : List Byte} {v : BitVec 16}

theorem segmentValues_split (v : BitVec 16) (p : List Byte) : ∃ s rest, p.splitOn dot = s :: rest ∧
    segmentValues v p = s.foldl digit v :: rest.map fun s => s.foldl digit 0 := by
  induction p generalizing v with
  | nil => exact ⟨[], [], rfl, rfl⟩
  | cons c p ih =>
    rw [List.splitOn_cons_eq_if_modifyHead, segmentValues]
    by_cases hc : c = dot
    · obtain ⟨s, rest, hsplit, hvalues⟩ := ih 0
      refine ⟨[], p.splitOn dot, if_pos (beq_iff_eq.mpr hc), ?_⟩
      rw [if_pos hc, hvalues, hsplit]
      rfl
    · obtain ⟨s, rest, hsplit, hvalues⟩ := ih (digit v c)
      refine ⟨c :: s, rest, ?_, ?_⟩
      · rw [if_neg (by simpa using hc), hsplit]
        rfl
      · rw [if_neg hc, hvalues]
        rfl

theorem segmentValues_zero (p : List Byte) : segmentValues 0 p = (p.splitOn dot).map fun s => s.foldl digit 0 := by
  obtain ⟨s, rest, hsplit, hvalues⟩ := segmentValues_split 0 p
  rw [hvalues, hsplit]
  rfl

theorem segmentValues_pos (v : BitVec 16) (p : List Byte) : 0 < (segmentValues v p).length := by
  obtain ⟨s, rest, -, hvalues⟩ := segmentValues_split v p
  rw [hvalues]
  exact Nat.zero_lt_succ _

/-- The loop from a segment on, with the result in front of it behind. -/
theorem lastSegment_iff (hseg : before.length < 4) (hlen : before.length + behind.length = 4) :
    lastSegment (segments p before.length v (before ++ behind)) = (true, aResult') ↔
      (∀ x ∈ segmentValues v p, ¬TooLarge x) ∧ before.length + (segmentValues v p).length ≤ 4 ∧
        aResult' = before ++ ((segmentValues v p).map (fun x => x.setWidth 8) ++ behind.drop (segmentValues v p).length) := by
  induction p generalizing before behind v with
  | nil =>
    cases behind with
    | nil =>
      rw [List.length_nil] at hlen
      exact absurd hlen (Nat.ne_of_lt hseg)
    | cons b behind =>
      have hset : (before ++ b :: behind).set before.length (v.setWidth 8) = before ++ v.setWidth 8 :: behind := by simp
      have hroom : ¬3 < before.length := Nat.not_lt_of_le (Nat.le_of_lt_succ hseg)
      have hfits : before.length + [v].length ≤ 4 := hseg
      have htail : [v].map (fun x => x.setWidth 8) ++ (b :: behind).drop [v].length = v.setWidth 8 :: behind := rfl
      simp only [segments, lastSegment, segmentValues, hset, htail, List.mem_singleton, forall_eq, TooLarge, hroom, or_false, hfits,
        true_and]
      by_cases hv : (255 : BitVec 16).slt v
      · rw [if_pos hv]
        exact ⟨fun h => absurd (Prod.mk.inj h).1 Bool.false_ne_true, fun h => absurd hv h.1⟩
      · rw [if_neg hv]
        exact ⟨fun h => ⟨hv, (Prod.mk.inj h).2.symm⟩, fun h => by rw [h.2]⟩
  | cons c p ih =>
    have hstart : ¬4 ≤ before.length := Nat.not_le_of_lt hseg
    rw [segments, if_neg hstart]
    by_cases hc : c = dot
    · rw [if_pos hc, segmentValues, if_pos hc]
      by_cases hv : (255 : BitVec 16).slt v
      · rw [if_pos hv]
        refine ⟨fun h => absurd (Prod.mk.inj h).1 Bool.false_ne_true, fun h => absurd hv (h.1 v List.mem_cons_self)⟩
      · rw [if_neg hv]
        cases behind with
        | nil =>
          rw [List.length_nil] at hlen
          exact absurd hlen (Nat.ne_of_lt hseg)
        | cons b behind =>
          have hset : (before ++ b :: behind).set before.length (v.setWidth 8) = (before ++ [v.setWidth 8]) ++ behind := by simp
          have hlength : (before ++ [v.setWidth 8]).length = before.length + 1 := List.length_append
          rw [hset, ← hlength]
          by_cases hlast : before.length + 1 < 4
          · rw [ih (hlength ▸ hlast) (by rw [hlength, ← hlen, List.length_cons]; omega), hlength]
            have hadd : before.length + 1 + (segmentValues 0 p).length = before.length + (v :: segmentValues 0 p).length := by
              rw [List.length_cons]
              omega
            have hfirst : ¬TooLarge v := hv
            simp only [hadd, List.forall_mem_cons, hfirst, not_false_eq_true, true_and, List.map_cons, List.length_cons,
              List.drop_succ_cons, List.append_assoc, List.cons_append, List.nil_append]
          · -- the dot behind the fourth segment
            have hfull : ∀ x : List Byte, segments p (before ++ [v.setWidth 8]).length 0 x = (some (4, 0), x) := by
              intro x
              have hfour : (before ++ [v.setWidth 8]).length = 4 := by omega
              rw [hfour]
              cases p <;> simp [segments]
            have hpos := segmentValues_pos 0 p
            rw [hfull]
            constructor
            · intro h
              simp [lastSegment] at h
            · rintro ⟨-, hfits, -⟩
              rw [List.length_cons] at hfits
              omega
    · rw [if_neg hc, segmentValues, if_neg hc]
      exact ih hseg hlen

/-- `inet_aton` takes exactly the strings of up to four segments of digits that
have values of a byte in its 16 bits, and stores these. -/
theorem inetAton_iff (hlen : aResult.length = 4) :
    inetAton p aResult = (true, aResult') ↔
      p.all isAddressChar ∧ (p.splitOn dot).length ≤ 4 ∧ (∀ s ∈ p.splitOn dot, ¬TooLarge (s.foldl digit 0)) ∧
        aResult' = (p.splitOn dot).map (fun s => (s.foldl digit 0).setWidth 8) ++ aResult.drop (p.splitOn dot).length := by
  by_cases hall : p.all isAddressChar
  · have hinet : inetAton p aResult = lastSegment (segments p 0 0 aResult) := if_pos hall
    have hiff := @lastSegment_iff p aResult' [] aResult 0 (by decide) (by simpa using hlen)
    rw [hinet]
    refine hiff.trans ?_
    rw [segmentValues_zero]
    simp [hall]
    tauto
  · have hinet : inetAton p aResult = (false, aResult) := if_neg hall
    rw [hinet]
    simp [hall]

/-- `10.0.0.7`. -/
theorem inetAton_iff_example : inetAton [0x31, 0x30, 0x2e, 0x30, 0x2e, 0x30, 0x2e, 0x37] [0, 0, 0, 0] = (true, [10, 0, 0, 7]) :=
  (inetAton_iff rfl).mpr (by decide)

end UIPEthernet.DNSClient
