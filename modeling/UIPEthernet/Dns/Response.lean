import UIPEthernet.Dns
import UIPEthernet.UIPUdp.Reading

/-!
# What ProcessResponse makes of a response

`Response` is a response as the protocol has it, with the names spelled out as
labels and pointers. `ProcessResponse` finds the first address in it.
-/

namespace UIPEthernet.DNSClient

open Lib UdpProg

-- ---------------------------------------------------------------------------
-- Responses
-- ---------------------------------------------------------------------------

structure Label where
  chars : List Byte
  nonempty : chars ≠ []
  short : chars.length < 64

structure Pointer where
  high : Byte
  low : Byte
  compressed : high &&& LABEL_COMPRESSION_MASK ≠ 0#8

structure Question where
  labels : List Label
  qtype : BitVec 16
  qclass : BitVec 16

/-- An answer. The rest of its name may be somewhere else in the message. -/
structure Answer where
  labels : List Label
  pointer : Option Pointer
  type : BitVec 16
  cls : BitVec 16
  ttl : BitVec 32
  rdata : List Byte
  short : rdata.length < 65536

structure Response where
  flags : BitVec 16
  questions : List Question
  answers : List Answer
  nscount : BitVec 16
  arcount : BitVec 16
  /-- The authority and the additional records. -/
  rest : List Byte
  fewQuestions : questions.length < 65536
  fewAnswers : answers.length < 65536

def labelBytes (labels : List Label) : List Byte := labels.flatMap fun label => BitVec.ofNat 8 label.chars.length :: label.chars

def nameEnd : Option Pointer → List Byte
  | none => [0]
  | some pointer => [pointer.high, pointer.low]

namespace Question

def bytes (q : Question) : List Byte := labelBytes q.labels ++ 0 :: (htonsBytes q.qtype.toNat ++ htonsBytes q.qclass.toNat)

end Question

namespace Answer

def bytes (a : Answer) : List Byte :=
  labelBytes a.labels ++ (nameEnd a.pointer ++ (htonsBytes a.type.toNat ++ (htonsBytes a.cls.toNat ++
    ((htonsBytes (a.ttl.toNat / 65536) ++ htonsBytes a.ttl.toNat) ++ (htonsBytes a.rdata.length ++ a.rdata)))))

def isAddress (a : Answer) : Bool := a.type.toNat = TYPE_A ∧ a.cls.toNat = CLASS_IN

end Answer

namespace Response

def header (r : Response) (id : BitVec 16) : List Byte :=
  [id.setWidth 8, (id >>> 8).setWidth 8] ++ htonsBytes r.flags.toNat ++ htonsBytes r.questions.length ++
    htonsBytes r.answers.length ++ htonsBytes r.nscount.toNat ++ htonsBytes r.arcount.toNat

def bytes (r : Response) (id : BitVec 16) : List Byte :=
  r.header id ++ (r.questions.flatMap Question.bytes ++ (r.answers.flatMap Answer.bytes ++ r.rest))

/-- What the client is to find among the answers. -/
def found (answers : List Answer) (aAddress : List Byte) : Int × List Byte :=
  match answers.find? Answer.isAddress with
  | none => (-10, aAddress)
  | some a => if a.rdata.length = 4 then (SUCCESS, a.rdata) else (-9, aAddress)

end Response

-- ---------------------------------------------------------------------------
-- Names
-- ---------------------------------------------------------------------------

variable {fuel n : Nat} {len : Byte} {labels : List Label} {rest message aAddress : List Byte}

@[simp] theorem reading_readLen_cons (b : Byte) : reading (readLen len) (b :: rest) = some (b, rest) := by simp [readLen]

@[simp] theorem reading_readLen_nil : reading (readLen len) [] = some (len, []) := by simp [readLen]

namespace Label

variable (label : Label)

theorem toNat_length : (BitVec.ofNat 8 label.chars.length).toNat = label.chars.length := by
  have hshort := label.short
  simp
  omega

theorem length_ne : BitVec.ofNat 8 label.chars.length ≠ 0#8 := by
  intro h
  have hpos := List.length_pos_iff.mpr label.nonempty
  have hnat := congrArg BitVec.toNat h
  rw [toNat_length] at hnat
  exact absurd hnat (Nat.ne_of_gt hpos)

/-- The length of a label is none of a pointer. -/
theorem length_plain : BitVec.ofNat 8 label.chars.length &&& LABEL_COMPRESSION_MASK = 0#8 := by
  have hall : ∀ n < 64, BitVec.ofNat 8 n &&& LABEL_COMPRESSION_MASK = 0#8 := by decide
  exact hall _ label.short

end Label

theorem labelBytes_cons (label : Label) :
    labelBytes (label :: labels) ++ rest = BitVec.ofNat 8 label.chars.length :: (label.chars ++ (labelBytes labels ++ rest)) := by
  simp [labelBytes]

theorem reading_skipQuestionName (hfuel : labels.length < fuel) :
    reading (skipQuestionName fuel len) (labelBytes labels ++ 0 :: rest) = some ((), rest) := by
  induction labels generalizing fuel len with
  | nil =>
    obtain ⟨fuel, rfl⟩ := Nat.exists_eq_add_one_of_ne_zero (Nat.ne_of_gt hfuel)
    simp [skipQuestionName, labelBytes]
  | cons label labels ih =>
    obtain ⟨fuel, rfl⟩ := Nat.exists_eq_add_one_of_ne_zero (Nat.ne_of_gt (Nat.zero_lt_of_lt hfuel))
    rw [labelBytes_cons]
    simpa [skipQuestionName, label.length_ne, label.toNat_length] using ih (Nat.lt_of_succ_lt_succ hfuel)

theorem reading_skipName {pointer : Option Pointer} (hfuel : labels.length < fuel) :
    reading (skipName fuel len) (labelBytes labels ++ (nameEnd pointer ++ rest)) = some ((), rest) := by
  induction labels generalizing fuel len with
  | nil =>
    obtain ⟨fuel, rfl⟩ := Nat.exists_eq_add_one_of_ne_zero (Nat.ne_of_gt hfuel)
    cases pointer with
    | none => simp [skipName, labelBytes, nameEnd]
    | some pointer => simp [skipName, labelBytes, nameEnd, pointer.compressed]
  | cons label labels ih =>
    obtain ⟨fuel, rfl⟩ := Nat.exists_eq_add_one_of_ne_zero (Nat.ne_of_gt (Nat.zero_lt_of_lt hfuel))
    rw [labelBytes_cons]
    simpa [skipName, label.length_ne, label.length_plain, label.toNat_length] using ih (Nat.lt_of_succ_lt_succ hfuel)

-- ---------------------------------------------------------------------------
-- Questions and answers
-- ---------------------------------------------------------------------------

theorem ntohs_htonsBytes {value : Nat} (h : value < 65536) (tail : List Byte) : ntohs (htonsBytes value ++ tail) = value := by
  simp [ntohs, htonsBytes]
  omega

@[simp] theorem htonsBytes_length (value : Nat) : (htonsBytes value).length = 2 := rfl

@[simp] theorem take_htonsBytes (value : Nat) : (htonsBytes value ++ rest).take 2 = htonsBytes value := rfl

@[simp] theorem drop_htonsBytes (value : Nat) : (htonsBytes value ++ rest).drop 2 = rest := rfl

theorem reading_skipQuestions {junk : Nat → Byte} {questions : List Question} (hfuel : ∀ q ∈ questions, q.labels.length < fuel) :
    reading (skipQuestions fuel junk questions.length) (questions.flatMap Question.bytes ++ rest) = some ((), rest) := by
  induction questions with
  | nil => rfl
  | cons q questions ih =>
    have hname : ∀ {len : Byte} {tail : List Byte}, reading (skipQuestionName fuel len) (labelBytes q.labels ++ 0 :: tail) = some ((), tail) :=
      reading_skipQuestionName (hfuel q List.mem_cons_self)
    have hrest := ih fun q' hq => hfuel q' (List.mem_cons_of_mem q hq)
    have hdrop : ∀ tail : List Byte, (htonsBytes q.qtype.toNat ++ (htonsBytes q.qclass.toNat ++ tail)).drop 4 = tail := fun _ => rfl
    rw [List.flatMap_cons, Question.bytes, List.length_cons, skipQuestions]
    simp only [List.append_assoc, List.cons_append, reading_bind, hname, Option.bind_some, reading_skip, hdrop, hrest]

theorem reading_answers {junk : Nat → List Byte} {as : List Answer} {length : List Byte} (hfuel : ∀ a ∈ as, a.labels.length < fuel)
    (haddress : aAddress.length = 4) :
    ∃ rest', reading (answers fuel junk as.length length aAddress) (as.flatMap Answer.bytes ++ rest) =
      some (Response.found as aAddress, rest') := by
  induction as generalizing length with
  | nil => exact ⟨[], rfl⟩
  | cons a as ih =>
    have hname : ∀ {len : Byte} {tail : List Byte}, reading (skipName fuel len) (labelBytes a.labels ++ (nameEnd a.pointer ++ tail)) = some ((), tail) :=
      reading_skipName (hfuel a List.mem_cons_self)
    have hdrop : ∀ tail : List Byte, (htonsBytes (a.ttl.toNat / 65536) ++ (htonsBytes a.ttl.toNat ++ tail)).drop TTL_SIZE = tail := fun _ => rfl
    have hvalue : ∀ {v : Nat} (buffer : List Byte), v < 65536 → ntohs (into buffer (htonsBytes v)) = v := fun buffer hv => ntohs_htonsBytes hv _
    rw [List.flatMap_cons, Answer.bytes, List.length_cons, answers]
    simp only [List.append_assoc, reading_bind, hname, Option.bind_some, reading_readBytes, reading_skip, hdrop, take_htonsBytes,
      drop_htonsBytes, hvalue _ a.type.isLt, hvalue _ a.cls.isLt, hvalue _ a.short]
    by_cases ha : a.type.toNat = TYPE_A ∧ a.cls.toNat = CLASS_IN
    · have hfind : Response.found (a :: as) aAddress = if a.rdata.length = 4 then (SUCCESS, a.rdata) else (-9, aAddress) := by
        have haddr : a.isAddress = true := decide_eq_true ha
        rw [Response.found, List.find?_cons_of_pos haddr]
      rw [if_pos ha, hfind]
      by_cases hlength : a.rdata.length = 4
      · have htake : ∀ tail : List Byte, (a.rdata ++ tail).take 4 = a.rdata := fun tail => hlength ▸ List.take_left
        have hinto : into aAddress a.rdata = a.rdata := by
          rw [into, hlength, ← haddress, List.drop_length, List.append_nil]
        rw [if_neg (not_not_intro hlength), if_pos hlength]
        exact ⟨_, by rw [reading_bind, reading_readBytes, Option.bind_some, htake, hinto]; rfl⟩
      · exact ⟨[], by rw [if_pos hlength, if_neg hlength]; rfl⟩
    · have hfind : Response.found (a :: as) aAddress = Response.found as aAddress := by
        have haddr : ¬a.isAddress = true := by simpa [Answer.isAddress] using ha
        rw [Response.found, List.find?_cons_of_neg haddr, Response.found]
      obtain ⟨rest', hrest⟩ := @ih (into length (htonsBytes a.rdata.length)) fun a' ha' => hfuel a' (List.mem_cons_of_mem a ha')
      rw [if_neg ha, hfind, reading_bind, reading_skip, Option.bind_some, List.drop_left]
      exact ⟨rest', hrest⟩

-- ---------------------------------------------------------------------------
-- The message
-- ---------------------------------------------------------------------------

namespace Response

variable (r : Response) (id : BitVec 16)

/-- A response without an error, that is not cut and has an answer. -/
structure Fine (r : Response) : Prop where
  response : r.flags.toNat &&& QUERY_RESPONSE_MASK = RESPONSE_FLAG
  whole : r.flags.toNat &&& TRUNCATION_FLAG = 0
  noError : r.flags.toNat &&& RESP_MASK = 0
  answered : r.answers ≠ []

theorem header_length : (r.header id).length = DNS_HEADER_SIZE := rfl

theorem header_id : ((r.header id).getD 0 0).toNat + 256 * ((r.header id).getD 1 0).toNat = id.toNat := by
  have hid := id.isLt
  simp [header, Nat.shiftRight_eq_div_pow]
  omega

theorem header_flags : ntohs ((r.header id).drop 2) = r.flags.toNat := ntohs_htonsBytes r.flags.isLt _

theorem header_qdcount : ntohs ((r.header id).drop 4) = r.questions.length := ntohs_htonsBytes r.fewQuestions _

theorem header_ancount : ntohs ((r.header id).drop 6) = r.answers.length := ntohs_htonsBytes r.fewAnswers _

end Response

theorem reading_readMessage {d : DNSClient} {r : Response} {junk : Nat → List Byte} {id : BitVec 16} (hid : d.iRequestId = id.toNat)
    (hfine : r.Fine) (hquestions : ∀ q ∈ r.questions, q.labels.length < fuel) (hanswers : ∀ a ∈ r.answers, a.labels.length < fuel)
    (haddress : aAddress.length = 4) :
    ∃ rest, reading (d.readMessage fuel junk aAddress) (r.bytes id) = some (Response.found r.answers aAddress, rest) := by
  have hsize : ¬(r.bytes id).length < DNS_HEADER_SIZE := by
    rw [Response.bytes, List.length_append, r.header_length id]
    exact Nat.not_lt_of_le (Nat.le_add_right _ _)
  have htake : (r.bytes id).take DNS_HEADER_SIZE = r.header id := List.take_left' (r.header_length id)
  have hdrop : (r.bytes id).drop DNS_HEADER_SIZE = r.questions.flatMap Question.bytes ++ (r.answers.flatMap Answer.bytes ++ r.rest) :=
    List.drop_left' (r.header_length id)
  have hid' : ¬(d.iRequestId ≠ id.toNat ∨ r.flags.toNat &&& QUERY_RESPONSE_MASK ≠ RESPONSE_FLAG) := by
    simp [hid, hfine.response]
  have herror : ¬(r.flags.toNat &&& TRUNCATION_FLAG ≠ 0 ∨ r.flags.toNat &&& RESP_MASK ≠ 0) := by
    simp [hfine.whole, hfine.noError]
  have hcount : r.answers.length ≠ 0 := fun h => hfine.answered (List.length_eq_zero_iff.mp h)
  rw [readMessage, reading_bind, reading_available, Option.bind_some, if_neg hsize, reading_bind, reading_readBytes, Option.bind_some,
    htake, hdrop, readAnswer]
  simp only [r.header_id, r.header_flags, r.header_ancount, r.header_qdcount, if_neg hid', if_neg herror, if_neg hcount, reading_bind,
    reading_skipQuestions hquestions, Option.bind_some]
  exact reading_answers hanswers haddress

-- ---------------------------------------------------------------------------
-- The socket
-- ---------------------------------------------------------------------------

section
variable {fuel n : Nat} {len : Byte} {junk : Nat → List Byte} {length aAddress header : List Byte}

theorem readLen_onlyReads : OnlyReads (readLen len) := .bind (.ask rfl) fun _ => .done

theorem skipQuestionName_onlyReads : OnlyReads (skipQuestionName fuel len) := by
  induction fuel generalizing len with
  | zero => exact .hang
  | succ fuel ih =>
    refine .bind readLen_onlyReads fun len => ?_
    split
    · exact .done
    · exact .bind (skip_onlyReads _) fun _ => ih

theorem skipQuestions_onlyReads {junk : Nat → Byte} : OnlyReads (skipQuestions fuel junk n) := by
  induction n with
  | zero => exact .done
  | succ n ih => exact .bind skipQuestionName_onlyReads fun _ => .bind (skip_onlyReads 4) fun _ => ih

theorem skipName_onlyReads : OnlyReads (skipName fuel len) := by
  induction fuel generalizing len with
  | zero => exact .hang
  | succ fuel ih =>
    refine .bind readLen_onlyReads fun len => ?_
    split
    · split
      · exact .done
      · exact .bind (skip_onlyReads _) fun _ => ih
    · exact skip_onlyReads 1

theorem answers_onlyReads : OnlyReads (answers fuel junk n length aAddress) := by
  induction n generalizing length with
  | zero => exact .bind (.ask rfl) fun _ => .done
  | succ n ih =>
    refine .bind skipName_onlyReads fun _ => .bind (.ask rfl) fun _ => .bind (.ask rfl) fun _ =>
      .bind (skip_onlyReads _) fun _ => .bind (.ask rfl) fun _ => ?_
    dsimp only
    split
    · split
      · exact .bind (.ask rfl) fun _ => .done
      · exact .bind (.ask rfl) fun _ => .done
    · exact .bind (skip_onlyReads _) fun _ => ih

theorem readMessage_onlyReads (d : DNSClient) : OnlyReads (d.readMessage fuel junk aAddress) := by
  refine .bind (.ask rfl) fun size => ?_
  split
  · exact .done
  · refine .bind (.ask rfl) fun header => ?_
    rw [readAnswer]
    split
    · exact .bind (.ask rfl) fun _ => .done
    · dsimp only
      split
      · exact .bind (.ask rfl) fun _ => .done
      · split
        · exact .bind (.ask rfl) fun _ => .done
        · exact .bind skipQuestions_onlyReads fun _ => answers_onlyReads

end

end UIPEthernet.DNSClient
