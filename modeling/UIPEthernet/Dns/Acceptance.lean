import UIPEthernet.Dns.Response

/-!
# What ProcessResponse takes, and when it comes back

The name of a question that is not at its end where the datagram is keeps
`ProcessResponse` reading for ever. A name of an answer does not.
-/

namespace UIPEthernet.DNSClient

open Lib UdpProg

/-- The name at the start of the message ends, and `rest` is behind it. -/
inductive NameEnds : List Byte → List Byte → Prop
  | zero : NameEnds (0 :: rest) rest
  | label (hlen : len ≠ 0) (h : NameEnds (message.drop len.toNat) rest) : NameEnds (len :: message) rest

variable {d : DNSClient} {fuel n : Nat} {len : Byte} {junk : Nat → List Byte} {length message rest aAddress address : List Byte}

-- ---------------------------------------------------------------------------
-- What is left
-- ---------------------------------------------------------------------------

/-- What a program leaves is the end of what there was. -/
theorem reading_suffix {α : Type} {p : UdpProg α} {a : α} (hp : p.OnlyReads) (h : reading p message = some (a, rest)) :
    rest <:+ message := by
  induction hp generalizing message with
  | done =>
    cases h
    exact List.suffix_refl _
  | hang => cases h
  | @call op next hop _ ih =>
    obtain ⟨⟨x, rest₁⟩, hcall, hrest⟩ := Option.bind_eq_some_iff.mp h
    refine (ih x hrest).trans ?_
    cases op with
    | available =>
      cases hcall
      exact List.suffix_refl _
    | read len =>
      cases hcall
      exact List.drop_suffix _ _
    | flush =>
      cases hcall
      exact List.nil_suffix
    | _ => cases hop

-- ---------------------------------------------------------------------------
-- The questions
-- ---------------------------------------------------------------------------

/-- As far as the code can tell: where nothing is left to read, an uninitialised
`len` that happens to be zero ends the name as well. -/
def Skipped (len : Byte) (message rest : List Byte) : Prop := NameEnds message rest ∨ (message = [] ∧ len = 0 ∧ rest = [])

theorem NameEnds.reading (h : NameEnds message rest) (hfuel : message.length < fuel) :
    reading (skipQuestionName fuel len) message = some ((), rest) := by
  induction h generalizing fuel len with
  | zero =>
    obtain ⟨fuel, rfl⟩ := Nat.exists_eq_add_one_of_ne_zero (Nat.ne_of_gt (Nat.zero_lt_of_lt hfuel))
    simp [skipQuestionName]
  | label hlen _ ih =>
    obtain ⟨fuel, rfl⟩ := Nat.exists_eq_add_one_of_ne_zero (Nat.ne_of_gt (Nat.zero_lt_of_lt hfuel))
    rw [skipQuestionName, reading_bind, reading_readLen_cons, Option.bind_some, if_neg hlen, reading_bind, reading_skip, Option.bind_some]
    refine ih (Nat.lt_of_le_of_lt ?_ (Nat.lt_of_succ_lt_succ hfuel))
    rw [List.length_drop]
    exact Nat.sub_le _ _

theorem Skipped.reading (h : Skipped len message rest) (hfuel : message.length < fuel) :
    reading (skipQuestionName fuel len) message = some ((), rest) := by
  rcases h with hends | ⟨rfl, rfl, rfl⟩
  · exact hends.reading hfuel
  · obtain ⟨fuel, rfl⟩ := Nat.exists_eq_add_one_of_ne_zero (Nat.ne_of_gt hfuel)
    simp [skipQuestionName]

theorem skipQuestionName_ends (h : reading (skipQuestionName fuel len) message = some ((), rest)) : Skipped len message rest := by
  induction fuel generalizing len message with
  | zero => cases h
  | succ fuel ih =>
    rw [skipQuestionName, reading_bind] at h
    cases message with
    | nil =>
      rw [reading_readLen_nil, Option.bind_some] at h
      split at h
      · rename_i hlen
        cases h
        exact .inr ⟨rfl, hlen, rfl⟩
      · rw [reading_bind, reading_skip, Option.bind_some, List.drop_nil] at h
        rcases ih h with hends | ⟨-, hzero, -⟩
        · cases hends
        · cases hzero
    | cons b message =>
      rw [reading_readLen_cons, Option.bind_some] at h
      split at h
      · rename_i hb
        cases h
        cases hb
        exact .inl .zero
      · rename_i hb
        rw [reading_bind, reading_skip, Option.bind_some] at h
        rcases ih h with hends | ⟨-, hzero, -⟩
        · exact .inl (.label hb hends)
        · cases hzero

/-- All questions are behind. -/
def QuestionsEnd (junk : Nat → Byte) : Nat → List Byte → List Byte → Prop
  | 0, message, rest => rest = message
  | n + 1, message, rest => ∃ rest₁, Skipped (junk n) message rest₁ ∧ QuestionsEnd junk n (rest₁.drop 4) rest

theorem Skipped.length_le (h : Skipped len message rest) : rest.length ≤ message.length := by
  rcases h with hends | ⟨rfl, -, rfl⟩
  · induction hends with
    | zero => exact Nat.le_succ _
    | label _ _ ih =>
      rw [List.length_drop] at ih
      exact Nat.le_succ_of_le (ih.trans (Nat.sub_le _ _))
  · exact Nat.le_refl _

theorem QuestionsEnd.reading {junk : Nat → Byte} (h : QuestionsEnd junk n message rest) (hfuel : message.length < fuel) :
    reading (skipQuestions fuel junk n) message = some ((), rest) := by
  induction n generalizing message with
  | zero =>
    cases h
    rfl
  | succ n ih =>
    obtain ⟨rest₁, hskipped, hrest⟩ := h
    rw [skipQuestions, reading_bind, hskipped.reading hfuel, Option.bind_some, reading_bind, reading_skip, Option.bind_some]
    refine ih hrest (Nat.lt_of_le_of_lt ?_ hfuel)
    rw [List.length_drop]
    exact (Nat.sub_le _ _).trans hskipped.length_le

theorem skipQuestions_end {junk : Nat → Byte} (h : reading (skipQuestions fuel junk n) message = some ((), rest)) :
    QuestionsEnd junk n message rest := by
  induction n generalizing message with
  | zero =>
    cases h
    rfl
  | succ n ih =>
    rw [skipQuestions, reading_bind] at h
    obtain ⟨⟨⟨⟩, rest₁⟩, hname, h⟩ := Option.bind_eq_some_iff.mp h
    rw [reading_bind, reading_skip, Option.bind_some] at h
    exact ⟨rest₁, skipQuestionName_ends hname, ih h⟩

-- ---------------------------------------------------------------------------
-- The answers
-- ---------------------------------------------------------------------------

/-- The name of an answer is at its end where the datagram is, if not before. -/
theorem skipName_returns (hfuel : message.length + 1 < fuel) : ∃ rest, reading (skipName fuel len) message = some ((), rest) := by
  induction fuel generalizing len message with
  | zero => exact absurd hfuel (Nat.not_lt_zero _)
  | succ fuel ih =>
    rw [skipName, reading_bind]
    cases message with
    | nil =>
      rw [reading_readLen_nil, Option.bind_some]
      split
      · split
        · exact ⟨_, rfl⟩
        · -- `len` is 255 now, which is taken for a pointer
          obtain ⟨fuel, rfl⟩ := Nat.exists_eq_add_one_of_ne_zero (Nat.ne_of_gt (Nat.lt_of_succ_lt_succ hfuel))
          refine ⟨[], ?_⟩
          rw [reading_bind, reading_skip, Option.bind_some, List.drop_nil, skipName, reading_bind, reading_readLen_nil, Option.bind_some,
            if_neg (by decide), reading_skip, List.drop_nil]
      · exact ⟨_, reading_skip 1⟩
    | cons b message =>
      rw [reading_readLen_cons, Option.bind_some]
      split
      · split
        · exact ⟨_, rfl⟩
        · rw [reading_bind, reading_skip, Option.bind_some]
          refine ih (Nat.lt_of_le_of_lt ?_ (Nat.lt_of_succ_lt_succ hfuel))
          rw [List.length_drop]
          exact Nat.succ_le_succ (Nat.sub_le _ _)
      · exact ⟨_, reading_skip 1⟩

theorem answers_returns (hfuel : message.length + 1 < fuel) :
    ∃ x, reading (answers fuel junk n length aAddress) message = some x := by
  induction n generalizing message length with
  | zero => exact ⟨_, rfl⟩
  | succ n ih =>
    have hreturns : ∃ rest, reading (skipName fuel ((junk n).getD 0 0)) message = some ((), rest) := skipName_returns hfuel
    obtain ⟨rest, hname⟩ := hreturns
    rw [answers, reading_bind, hname, Option.bind_some]
    simp only [reading_bind, reading_readBytes, Option.bind_some, reading_skip]
    split
    · split
      · exact ⟨_, rfl⟩
      · exact ⟨_, rfl⟩
    · rw [reading_bind, reading_skip, Option.bind_some]
      refine ih (Nat.lt_of_le_of_lt (Nat.succ_le_succ ?_) hfuel)
      have hsuffix := reading_suffix skipName_onlyReads hname
      simp only [List.length_drop]
      have hle := hsuffix.length_le
      omega

theorem prefix_htonsBytes {bytes : List Byte} (h : bytes.length ≤ 2) (tail : List Byte) :
    bytes <+: htonsBytes (ntohs (bytes ++ tail)) := by
  match bytes, h with
  | [], _ => exact List.nil_prefix
  | [x], _ =>
    have hlow : (tail.getD 0 0).toNat < 256 := (tail.getD 0 0).isLt
    have hhigh : (256 * x.toNat + (tail.getD 0 0).toNat) / 256 = x.toNat := by omega
    refine ⟨[BitVec.ofNat 8 (256 * x.toNat + (tail.getD 0 0).toNat)], ?_⟩
    show _ = [BitVec.ofNat 8 ((256 * x.toNat + (tail.getD 0 0).toNat) / 256), _]
    rw [hhigh, BitVec.ofNat_toNat, BitVec.setWidth_eq]
    rfl
  | [x, y], _ =>
    have hy := y.isLt
    have hhigh : (256 * x.toNat + y.toNat) / 256 = x.toNat := by omega
    have hlow : BitVec.ofNat 8 (256 * x.toNat + y.toNat) = y := BitVec.eq_of_toNat_eq (by simp; omega)
    exact ⟨[], by simp [htonsBytes, ntohs, hhigh, hlow]⟩

theorem prefix_append_of {l front back : List Byte} (hfront : l.take front.length <+: front) (hback : l.drop front.length <+: back) :
    l <+: front ++ back := by
  by_cases hlen : front.length ≤ l.length
  · have htake : l.take front.length = front := hfront.eq_of_length (List.length_take_of_le hlen)
    conv => lhs; rw [← List.take_append_drop front.length l, htake]
    exact (List.prefix_append_right_inj front).mpr hback
  · rw [List.take_of_length_le (Nat.le_of_not_le hlen)] at hfront
    exact hfront.trans (List.prefix_append _ _)

/-- What an address is behind: a type, a class, the time to live and a length. -/
def addressHead (ttl : List Byte) : List Byte := htonsBytes TYPE_A ++ htonsBytes CLASS_IN ++ ttl ++ htonsBytes 4

theorem addressHead_length {ttl : List Byte} (h : ttl.length = 4) : (addressHead ttl).length = 10 := by
  simp [addressHead, htonsBytes, h]

/-- The address of the record that starts behind its name. -/
inductive Taken (aAddress record : List Byte) : List Byte → Prop
  | whole (httl : ttl.length = 4) (hfour : four.length = 4) (hrecord : record = addressHead ttl ++ (four ++ behind)) :
    Taken aAddress record four
  /-- The message ends before the record does, and the rest of `aAddress` stays. -/
  | cut (httl : ttl.length = 4) (hrecord : record <+: addressHead ttl ++ behind) (hshort : record.length < 14) :
    Taken aAddress record (into aAddress (record.drop 10))

/-- The address is that of a record of the message, behind which `rest` is left. -/
def Found (message aAddress address rest : List Byte) : Prop :=
  ∃ before record, message = before ++ record ∧ Taken aAddress record address ∧ rest = record.drop 14

theorem Found.suffix {message' : List Byte} (h : Found message aAddress address rest) (hsuffix : message <:+ message') :
    Found message' aAddress address rest := by
  obtain ⟨start, rfl⟩ := hsuffix
  obtain ⟨before, record, rfl, htaken, hrest⟩ := h
  exact ⟨start ++ before, record, (List.append_assoc ..).symm, htaken, hrest⟩

/-- The address record at the start of the message is taken. -/
theorem taken_record {type cls : List Byte} (record : List Byte) (haddress : aAddress.length = 4) (htype : ntohs (into type (record.take 2)) = TYPE_A)
    (hcls : ntohs (into cls ((record.drop 2).take 2)) = CLASS_IN)
    (hlength : ntohs (into length ((((record.drop 2).drop 2).drop TTL_SIZE).take 2)) = 4) :
    Taken aAddress record (into aAddress ((record.drop 10).take 4)) := by
  have hfield : ∀ {l buffer : List Byte} {v : Nat}, ntohs (into buffer (l.take 2)) = v → l.take 2 <+: htonsBytes v := by
    rintro l buffer v rfl
    exact prefix_htonsBytes (List.length_take_le 2 l) _
  let ttl := ((record.drop 4).take 4) ++ List.replicate (4 - ((record.drop 4).take 4).length) 0
  have httl : ttl.length = 4 := by
    have := List.length_take_le 4 (record.drop 4)
    simp only [ttl, List.length_append, List.length_replicate]
    omega
  have hclass : (record.drop 2).take 2 <+: htonsBytes CLASS_IN := hfield hcls
  have hsize : (record.drop 8).take 2 <+: htonsBytes 4 := by
    rw [List.drop_drop, List.drop_drop] at hlength
    exact hfield hlength
  have hprefix : record <+: addressHead ttl ++ record.drop 10 := by
    rw [addressHead, List.append_assoc, List.append_assoc, List.append_assoc]
    refine prefix_append_of ?_ (prefix_append_of ?_ (prefix_append_of ?_ (prefix_append_of ?_ ?_)))
    all_goals simp only [htonsBytes_length, httl, List.drop_drop]
    · exact hfield htype
    · exact hclass
    · exact List.prefix_append _ _
    · exact hsize
    · exact List.prefix_refl _
  by_cases hwhole : 14 ≤ record.length
  · have hfour : ((record.drop 10).take 4).length = 4 := by
      rw [List.length_take, List.length_drop]
      omega
    have hrecord : record = addressHead ttl ++ record.drop 10 := hprefix.eq_of_length (by
      rw [List.length_append, addressHead_length httl, List.length_drop]
      omega)
    rw [into, hfour, ← haddress, List.drop_length, List.append_nil, haddress]
    have hwhole : record = addressHead ttl ++ ((record.drop 10).take 4 ++ (record.drop 10).drop 4) := by
      rwa [List.take_append_drop]
    exact .whole httl hfour hwhole
  · have hshort : ((record.drop 10).take 4) = record.drop 10 := List.take_of_length_le (by
      rw [List.length_drop]
      omega)
    rw [hshort]
    exact .cut httl hprefix (Nat.lt_of_not_le hwhole)

theorem answers_found (haddress : aAddress.length = 4)
    (h : reading (answers fuel junk n length aAddress) message = some ((SUCCESS, address), rest)) : Found message aAddress address rest := by
  induction n generalizing message length with
  | zero => cases h
  | succ n ih =>
    rw [answers, reading_bind] at h
    obtain ⟨⟨⟨⟩, rest₁⟩, hname, h⟩ := Option.bind_eq_some_iff.mp h
    simp only [reading_bind, reading_readBytes, Option.bind_some, reading_skip] at h
    refine Found.suffix ?_ (reading_suffix skipName_onlyReads hname)
    split at h
    · rename_i hkind
      split at h
      · cases h
      · rename_i hlength
        cases h
        have htaken := taken_record rest₁ haddress hkind.1 hkind.2 (not_not.mp hlength)
        simp only [List.drop_drop]
        exact ⟨[], rest₁, rfl, htaken, rfl⟩
    · rw [reading_bind, reading_skip, Option.bind_some] at h
      refine (ih h).suffix ?_
      simp only [List.drop_drop]
      exact List.drop_suffix _ _

-- ---------------------------------------------------------------------------
-- The message
-- ---------------------------------------------------------------------------

/-- The header is that of an answer to the request. -/
structure Accepted (d : DNSClient) (message : List Byte) : Prop where
  header : DNS_HEADER_SIZE ≤ message.length
  id : d.iRequestId = ((message.take DNS_HEADER_SIZE).getD 0 0).toNat + 256 * ((message.take DNS_HEADER_SIZE).getD 1 0).toNat
  response : ntohs ((message.take DNS_HEADER_SIZE).drop 2) &&& QUERY_RESPONSE_MASK = RESPONSE_FLAG
  whole : ntohs ((message.take DNS_HEADER_SIZE).drop 2) &&& TRUNCATION_FLAG = 0
  noError : ntohs ((message.take DNS_HEADER_SIZE).drop 2) &&& RESP_MASK = 0
  answered : ntohs ((message.take DNS_HEADER_SIZE).drop 6) ≠ 0

def qdcount (message : List Byte) : Nat := ntohs ((message.take DNS_HEADER_SIZE).drop 4)

/-- The questions and the answers of an accepted message are read, and of no
other. -/
theorem readMessage_cases (d : DNSClient) (junk : Nat → List Byte) (message aAddress : List Byte) :
    (Accepted d message ∧ ∃ n length, ∀ fuel, reading (d.readMessage fuel junk aAddress) message =
        (reading (skipQuestions fuel (fun n => (junk n).getD 5 0) (qdcount message)) (message.drop DNS_HEADER_SIZE)).bind fun x =>
          reading (answers fuel junk n length aAddress) x.2) ∨
      (¬Accepted d message ∧ ∃ code rest, code ≠ SUCCESS ∧
        ∀ fuel, reading (d.readMessage fuel junk aAddress) message = some ((code, aAddress), rest)) := by
  by_cases hsize : message.length < DNS_HEADER_SIZE
  · refine .inr ⟨fun h => absurd hsize (Nat.not_lt_of_le h.header), TRUNCATED, message, by decide, fun fuel => ?_⟩
    rw [readMessage, reading_bind, reading_available, Option.bind_some, if_pos hsize]
    rfl
  · have hread : ∀ fuel, reading (d.readMessage fuel junk aAddress) message =
        reading (readAnswer fuel junk d.iRequestId (message.take DNS_HEADER_SIZE) aAddress) (message.drop DNS_HEADER_SIZE) := fun fuel => by
      rw [readMessage, reading_bind, reading_available, Option.bind_some, if_neg hsize, reading_bind, reading_readBytes, Option.bind_some]
    simp only [hread, readAnswer]
    split
    · rename_i hother
      refine .inr ⟨fun h => ?_, INVALID_RESPONSE, [], by decide, fun fuel => rfl⟩
      rcases hother with hid | hflag
      · exact hid h.id
      · exact hflag h.response
    · rename_i hid
      obtain ⟨hid, hresponse⟩ := not_or.mp hid
      split
      · rename_i herror
        refine .inr ⟨fun h => ?_, -5, [], by decide, fun fuel => rfl⟩
        rcases herror with hcut | hcode
        · exact hcut h.whole
        · exact hcode h.noError
      · rename_i hfine
        obtain ⟨hwhole, hcode⟩ := not_or.mp hfine
        split
        · rename_i hnone
          exact .inr ⟨fun h => h.answered hnone, -6, [], by decide, fun fuel => rfl⟩
        · rename_i hanswered
          exact .inl ⟨⟨Nat.le_of_not_lt hsize, not_not.mp hid, not_not.mp hresponse, not_not.mp hwhole, not_not.mp hcode, hanswered⟩,
            _, _, fun fuel => reading_bind⟩

theorem readMessage_returns : (∃ fuel x, reading (d.readMessage fuel junk aAddress) message = some x) ↔
    (Accepted d message → ∃ rest, QuestionsEnd (fun n => (junk n).getD 5 0) (qdcount message) (message.drop DNS_HEADER_SIZE) rest) := by
  rcases readMessage_cases d junk message aAddress with ⟨haccepted, n, length, hread⟩ | ⟨hrejected, code, rest, -, hread⟩
  · constructor
    · rintro ⟨fuel, x, h⟩ -
      rw [hread] at h
      obtain ⟨⟨⟨⟩, rest⟩, hquestions, -⟩ := Option.bind_eq_some_iff.mp h
      exact ⟨rest, skipQuestions_end hquestions⟩
    · intro h
      obtain ⟨rest, hquestions⟩ := h haccepted
      have hfuel : (message.drop DNS_HEADER_SIZE).length < message.length + 2 := by
        rw [List.length_drop]
        omega
      have hskip := hquestions.reading hfuel
      have hrest := (reading_suffix skipQuestions_onlyReads hskip).length_le
      rw [List.length_drop] at hrest
      have hanswers : ∃ x, reading (answers (message.length + 2) junk n length aAddress) rest = some x := answers_returns (by omega)
      obtain ⟨x, hx⟩ := hanswers
      exact ⟨message.length + 2, x, by rw [hread, hskip, Option.bind_some, hx]⟩
  · exact ⟨fun _ h => absurd h hrejected, fun _ => ⟨0, _, hread 0⟩⟩

theorem readMessage_success (haddress : aAddress.length = 4)
    (h : reading (d.readMessage fuel junk aAddress) message = some ((SUCCESS, address), rest)) :
    Accepted d message ∧ Found message aAddress address rest := by
  rcases readMessage_cases d junk message aAddress with ⟨haccepted, n, length, hread⟩ | ⟨-, code, rest', hcode, hread⟩
  · rw [hread] at h
    obtain ⟨⟨⟨⟩, rest₁⟩, hquestions, h⟩ := Option.bind_eq_some_iff.mp h
    have hsuffix := (reading_suffix skipQuestions_onlyReads hquestions).trans (List.drop_suffix DNS_HEADER_SIZE message)
    exact ⟨haccepted, (answers_found haddress h).suffix hsuffix⟩
  · rw [hread] at h
    cases h
    exact absurd rfl hcode

/-- Without success the address stays. -/
theorem answers_keep {ret : Int} (hret : ret ≠ SUCCESS)
    (h : reading (answers fuel junk n length aAddress) message = some ((ret, address), rest)) : address = aAddress := by
  induction n generalizing message length with
  | zero =>
    cases h
    rfl
  | succ n ih =>
    rw [answers, reading_bind] at h
    obtain ⟨⟨⟨⟩, rest₁⟩, -, h⟩ := Option.bind_eq_some_iff.mp h
    simp only [reading_bind, reading_readBytes, Option.bind_some, reading_skip] at h
    split at h
    · split at h
      · cases h
        rfl
      · cases h
        exact absurd rfl hret
    · rw [reading_bind, reading_skip, Option.bind_some] at h
      exact ih h

theorem readMessage_keeps {ret : Int} (hret : ret ≠ SUCCESS)
    (h : reading (d.readMessage fuel junk aAddress) message = some ((ret, address), rest)) : address = aAddress := by
  rcases readMessage_cases d junk message aAddress with ⟨-, n, length, hread⟩ | ⟨-, code, rest', -, hread⟩
  · rw [hread] at h
    obtain ⟨⟨⟨⟩, rest₁⟩, -, h⟩ := Option.bind_eq_some_iff.mp h
    exact answers_keep hret h
  · rw [hread] at h
    cases h
    rfl

end UIPEthernet.DNSClient
