import UIPEthernet.UdpCall

/-!
# DNSClient

`Dns.cpp` as it runs on an AVR: an `int` has 16 bits. A C string is the list of
its characters without the zero at the end. What the local variables hold before
they are written is an argument: `junk n` in the round of a loop that has `n`
rounds behind it.
-/

namespace UIPEthernet

open Lib UdpProg

def DNS_HEADER_SIZE : Nat := 12
def TTL_SIZE : Nat := 4
def RESPONSE_FLAG : Nat := 0x8000
def QUERY_RESPONSE_MASK : Nat := 0x8000
def TRUNCATION_FLAG : Nat := 0x0200
def RECURSION_DESIRED_FLAG : Nat := 0x0100
def RESP_MASK : Nat := 15
def TYPE_A : Nat := 1
def CLASS_IN : Nat := 1
def LABEL_COMPRESSION_MASK : Byte := 0xc0
def DNS_PORT : Nat := 53

def SUCCESS : Int := 1
def TIMED_OUT : Int := -1
def INVALID_SERVER : Int := -2
def TRUNCATED : Int := -3
def INVALID_RESPONSE : Int := -4

structure DNSClient where
  iDNSServer : BitVec 32
  iRequestId : Nat
deriving DecidableEq, Repr

namespace DNSClient

/-- The character `'.'`. -/
def dot : Byte := 0x2e

/-- The character `'0'`. -/
def zero : Byte := 0x30

/-- The value of two bytes in network order. -/
def ntohs (bytes : List Byte) : Nat := 256 * (bytes.getD 0 0).toNat + (bytes.getD 1 0).toNat

/-- `value` in network order, as `htons` stores it. -/
def htonsBytes (value : Nat) : List Byte := [BitVec.ofNat 8 (value / 256), BitVec.ofNat 8 value]

-- ---------------------------------------------------------------------------
-- inet_aton
-- ---------------------------------------------------------------------------

def isAddressChar (c : Byte) : Bool := c = dot ∨ (zero ≤ c ∧ c ≤ 0x39)

/-- The second loop, up to `segment`, `segmentValue` and `aResult` behind it; no
segment where a value does not fit into a byte. -/
def segments : List Byte → Nat → BitVec 16 → List Byte → Option (Nat × BitVec 16) × List Byte
  | [], segment, segmentValue, aResult => (some (segment, segmentValue), aResult)
  | c :: p, segment, segmentValue, aResult =>
    if 4 ≤ segment then (some (segment, segmentValue), aResult)
    else if c = dot then
      if (255 : BitVec 16).slt segmentValue then (none, aResult)
      else segments p (segment + 1) 0 (aResult.set segment (segmentValue.setWidth 8))
    else segments p segment (segmentValue * 10 + (c - zero).setWidth 16) aResult

def inetAton (aIPAddrString aResult : List Byte) : Bool × List Byte :=
  if aIPAddrString.all isAddressChar then
    match segments aIPAddrString 0 0 aResult with
    | (none, aResult) => (false, aResult)
    | (some (segment, segmentValue), aResult) =>
      if (255 : BitVec 16).slt segmentValue ∨ 3 < segment then (false, aResult)
      else (true, aResult.set segment (segmentValue.setWidth 8))
  else (false, aResult)

-- ---------------------------------------------------------------------------
-- BuildRequest
-- ---------------------------------------------------------------------------

/-- A section of the name, if it is not empty. -/
def writeLabel (label : List Byte) : UdpProg Unit :=
  if 0 < label.length then do
    let _ ← write [BitVec.ofNat 8 label.length]
    let _ ← write label
  else return ()

/-- The loop over the name; `start` is what is left of it. An empty name has a
round that writes nothing. -/
def writeName : Nat → List Byte → UdpProg Unit
  | 0, _ => .hang
  | fuel + 1, start => do
    let label := start.takeWhile (· ≠ dot)
    writeLabel label
    match start.drop label.length with
    | [] => return ()
    | _ :: rest => writeName fuel rest

/-- `BuildRequest` behind the choice of `iRequestId`. -/
def writeRequest (iRequestId : Nat) (aName : List Byte) : UdpProg Unit := do
  let _ ← write [BitVec.ofNat 8 iRequestId, BitVec.ofNat 8 (iRequestId / 256)]
  let _ ← write (htonsBytes RECURSION_DESIRED_FLAG)
  let _ ← write (htonsBytes 1)
  let _ ← write (htonsBytes 0)
  let _ ← write (htonsBytes 0)
  let _ ← write (htonsBytes 0)
  writeName (aName.length + 1) aName
  let _ ← write [0]
  let _ ← write (htonsBytes TYPE_A)
  let _ ← write (htonsBytes CLASS_IN)
  return ()

/-- `BuildRequest`; the answer is `iRequestId`. -/
def buildRequest (aName : List Byte) : UdpProg Nat := do
  let now ← millis
  let iRequestId := now.toNat % 65536
  writeRequest iRequestId aName
  return iRequestId

-- ---------------------------------------------------------------------------
-- ProcessResponse
-- ---------------------------------------------------------------------------

/-- `read(&len, 1)`. -/
def readLen (len : Byte) : UdpProg Byte := do
  let bytes ← readBytes 1
  return bytes.headD len

/-- The name of a question. `len` is 255 behind `while(len--)`, which is what the
next round finds if nothing is left to read. -/
def skipQuestionName : Nat → Byte → UdpProg Unit
  | 0, _ => .hang
  | fuel + 1, len => do
    let len ← readLen len
    if len = 0 then return ()
    else
      skip len.toNat
      skipQuestionName fuel 255

def skipQuestions (fuel : Nat) (junk : Nat → Byte) : Nat → UdpProg Unit
  | 0 => return ()
  | n + 1 => do
    skipQuestionName fuel (junk n)
    skip 4
    skipQuestions fuel junk n

/-- The name of an answer: labels up to a zero or a pointer. -/
def skipName : Nat → Byte → UdpProg Unit
  | 0, _ => .hang
  | fuel + 1, len => do
    let len ← readLen len
    if len &&& LABEL_COMPRESSION_MASK = 0 then
      if len = 0 then return ()
      else
        skip len.toNat
        skipName fuel 255
    else skip 1

/-- The answers. `header_flags` is reused for the length of an answer; `length`
holds its two bytes. -/
def answers (fuel : Nat) (junk : Nat → List Byte) : Nat → List Byte → List Byte → UdpProg (Int × List Byte)
  | 0, _, aAddress => do
    flush
    return (-10, aAddress)
  | n + 1, length, aAddress => do
    skipName fuel ((junk n).getD 0 0)
    let answerType := into ((junk n).drop 1) (← readBytes 2)
    let answerClass := into ((junk n).drop 3) (← readBytes 2)
    skip TTL_SIZE
    let length := into length (← readBytes 2)
    if ntohs answerType = TYPE_A ∧ ntohs answerClass = CLASS_IN then
      if ntohs length ≠ 4 then
        flush
        return (-9, aAddress)
      else
        let bytes ← readBytes 4
        return (SUCCESS, into aAddress bytes)
    else
      skip (ntohs length)
      answers fuel junk n length aAddress

/-- `ProcessResponse` with the header read. -/
def readAnswer (fuel : Nat) (junk : Nat → List Byte) (iRequestId : Nat) (header aAddress : List Byte) : UdpProg (Int × List Byte) := do
  let headerFlags := ntohs (header.drop 2)
  let id := (header.getD 0 0).toNat + 256 * (header.getD 1 0).toNat
  if iRequestId ≠ id ∨ headerFlags &&& QUERY_RESPONSE_MASK ≠ RESPONSE_FLAG then
    flush
    return (INVALID_RESPONSE, aAddress)
  else if headerFlags &&& TRUNCATION_FLAG ≠ 0 ∨ headerFlags &&& RESP_MASK ≠ 0 then
    flush
    return (-5, aAddress)
  else
    let answerCount := ntohs (header.drop 6)
    if answerCount = 0 then
      flush
      return (-6, aAddress)
    else
      skipQuestions fuel (fun n => (junk n).getD 5 0) (ntohs (header.drop 4))
      answers fuel junk answerCount [header.getD 3 0, header.getD 2 0] aAddress

/-- `ProcessResponse` with a datagram from the server. -/
def readMessage (d : DNSClient) (fuel : Nat) (junk : Nat → List Byte) (aAddress : List Byte) : UdpProg (Int × List Byte) := do
  let size ← available
  if size < DNS_HEADER_SIZE then return (TRUNCATED, aAddress)
  else
    let header ← readBytes DNS_HEADER_SIZE
    readAnswer fuel junk d.iRequestId header aAddress

/-- `ProcessResponse` with a datagram to read. -/
def readResponse (d : DNSClient) (fuel : Nat) (junk : Nat → List Byte) (aAddress : List Byte) : UdpProg (Int × List Byte) := do
  let ip ← remoteIP
  let port ← remotePort
  if d.iDNSServer ≠ ip ∨ port ≠ DNS_PORT then return (INVALID_SERVER, aAddress)
  else readMessage d fuel junk aAddress

/-- The loop over `parsePacket`: whether there was one before `aTimeout`. -/
def await (aTimeout : BitVec 32) (startTime : BitVec 32) : Nat → UdpProg Bool
  | 0 => .hang
  | fuel + 1 => do
    let size ← parsePacket
    if 0 < size then return true
    else
      let now ← millis
      if aTimeout < now - startTime then return false
      else await aTimeout startTime fuel

def processResponse (d : DNSClient) (fuel : Nat) (junk : Nat → List Byte) (aTimeout : BitVec 32) (aAddress : List Byte) :
    UdpProg (Int × List Byte) := do
  let startTime ← millis
  let found ← await aTimeout startTime fuel
  if found then readResponse d fuel junk aAddress else return (TIMED_OUT, aAddress)

-- ---------------------------------------------------------------------------
-- getHostByName
-- ---------------------------------------------------------------------------

/-- The loop over `wait_retries`, as long as the answer is `TIMED_OUT`. -/
def retries (d : DNSClient) (fuel : Nat) (junk : Nat → List Byte) : Nat → List Byte → UdpProg (Int × List Byte)
  | 0, aResult => return (TIMED_OUT, aResult)
  | n + 1, aResult => do
    let (ret, aResult) ← processResponse d fuel junk 5000 aResult
    if ret = TIMED_OUT then retries d fuel junk n aResult else return (ret, aResult)

/-- The request and its answer, with the socket open. -/
def query (d : DNSClient) (fuel : Nat) (junk : Nat → List Byte) (aHostname aResult : List Byte) : UdpProg (Int × DNSClient × List Byte) := do
  if ← beginPacket d.iDNSServer DNS_PORT then
    let iRequestId ← buildRequest aHostname
    let d := { d with iRequestId }
    if ← endPacket then
      let (ret, aResult) ← retries d fuel junk 3 aResult
      return (ret, d, aResult)
    else return (0, d, aResult)
  else return (0, d, aResult)

def getHostByName (d : DNSClient) (fuel : Nat) (junk : Nat → List Byte) (aHostname aResult : List Byte) : UdpProg (Int × DNSClient × List Byte) :=
  match inetAton aHostname aResult with
  | (true, aResult) => return (1, d, aResult)
  | (false, aResult) =>
    if d.iDNSServer = 0 then return (INVALID_SERVER, d, aResult)
    else do
      let now ← millis
      if ← begin (1024 + now.toNat % 16) then
        let r ← query d fuel junk aHostname aResult
        stop
        return r
      else return (0, d, aResult)

end DNSClient

end UIPEthernet
