import UIPEthernet.Mempool
import UIPEthernet.Lib.Slice

/-!
# The controller and its packet memory

`Enc28J60Network`: the packet accessors over the controller's 8-Kbyte memory,
with the part of the ENC28J60 they rely on. The receive buffer
`RXSTART_INIT..RXSTOP_INIT` is a ring for reading, also for the DMA's source;
writing is linear and wraps at the end of the memory. Address registers have
13 bits. A DMA that runs past its end address never ends, `none`.
-/

namespace UIPEthernet

open Lib (load)

/-- How a transmission ends, and the status vector the controller leaves
behind the frame. Transmit error and timeout both count as not `ok`. -/
structure Transmission where
  ok : Bool
  status : List Byte
deriving DecidableEq, Repr

structure Enc28J60Network where
  blocks : Blocks
  ram : Nat → Byte
  receivePkt : Memblock
  nextPacketPtr : Nat
  ERXRDPT : Nat
  EPKTCNT : Nat
  /-- The transmissions to come; behind the last one the controller hangs. -/
  transmissions : List Transmission
  /-- The frames handed to the transmitter, the last one first. -/
  sent : List (List Byte × Bool)

namespace Enc28J60Network

def MEMORY_SIZE : Nat := 8192

/-- The read pointer after a read at `a`. -/
def nextRead (a : Nat) : Nat := if a = RXSTOP_INIT then RXSTART_INIT else (a + 1) % MEMORY_SIZE

def nextWrite (a : Nat) : Nat := (a + 1) % MEMORY_SIZE

def readBuffer (ram : Nat → Byte) : Nat → Nat → List Byte
  | 0, _ => []
  | len + 1, erdpt => ram erdpt :: readBuffer ram len (nextRead erdpt)

def writeBuffer : List Byte → Nat → (Nat → Byte) → Nat → Byte
  | [], _, ram => ram
  | x :: data, ewrpt, ram => writeBuffer data (nextWrite ewrpt) (Function.update ram ewrpt x)

/-- The DMA copy: `edmast` is moved up to `edmand`, both included. -/
def dma (edmand : Nat) : Nat → Nat → Nat → (Nat → Byte) → Option (Nat → Byte)
  | 0, _, _, _ => none
  | fuel + 1, edmast, edmadst, ram =>
    let ram := Function.update ram edmadst (ram edmast)
    if edmast = edmand then some ram else dma edmand fuel (nextRead edmast) (nextWrite edmadst) ram

/-- `enc28J60_mempool_block_move_callback`. -/
def mempoolBlockMoveCallback (dest src len : Nat) (ram : Nat → Byte) : Option (Nat → Byte) :=
  if len = 1 then
    some (Function.update ram (dest % MEMORY_SIZE) (ram (src % MEMORY_SIZE)))
  else
    -- the address of the last byte
    let len := add16 len (sub16 src 1)
    let len := if src ≤ RXSTOP_INIT ∧ len > RXSTOP_INIT then sub16 len (RXSTOP_INIT - RXSTART_INIT)
      else len
    -- the source pointer has met every address after `MEMORY_SIZE` cycles
    dma (len % MEMORY_SIZE) MEMORY_SIZE (src % MEMORY_SIZE) (dest % MEMORY_SIZE) ram

section
variable (e : Enc28J60Network)

def setERXRDPT : Enc28J60Network :=
  { e with ERXRDPT := if e.nextPacketPtr = RXSTART_INIT then RXSTOP_INIT else e.nextPacketPtr - 1 }

def freePacket : Enc28J60Network := e.setERXRDPT

def receivePacket : Enc28J60Network × Handle :=
  if e.EPKTCNT ≠ 0 then
    let readPtr := if add16 e.nextPacketPtr 6 > RXSTOP_INIT
      then add16 (sub16 (add16 e.nextPacketPtr 6) RXSTOP_INIT) RXSTART_INIT
      else add16 e.nextPacketPtr 6
    let header := readBuffer e.ram 5 (e.nextPacketPtr % MEMORY_SIZE)
    let byte i := (header.getD i 0).toNat
    let len := sub16 (byte 2 + 256 * byte 3) 4
    let e := { e with nextPacketPtr := byte 0 + 256 * byte 1, EPKTCNT := e.EPKTCNT - 1 }
    if has (header.getD 4 0) 0x80 then
      ({ e with receivePkt := { e.receivePkt with begin := readPtr, size := len } },
        UIP_RECEIVEBUFFERHANDLE)
    else (e.setERXRDPT, NOBLOCK)
  else (e, NOBLOCK)

def blockSize (handle : Handle) : Nat :=
  if handle = NOBLOCK then 0
  else if handle = UIP_RECEIVEBUFFERHANDLE then e.receivePkt.size
  else (e.blocks handle).size

def packet (handle : Handle) : Memblock :=
  if handle = UIP_RECEIVEBUFFERHANDLE then e.receivePkt else e.blocks handle

/-- Where `position` of a packet is read from. -/
def readStart (handle : Handle) (position : Nat) : Nat :=
  let begin := add16 (e.packet handle).begin position
  if handle = UIP_RECEIVEBUFFERHANDLE ∧ begin > RXSTOP_INIT
  then add16 (sub16 begin RXSTOP_INIT) RXSTART_INIT
  else begin

/-- `len` cut to what the packet holds behind `position`. -/
def clip (packet : Memblock) (position len : Nat) : Nat :=
  if len > sub16 packet.size position then sub16 packet.size position else len

/-- `setReadPtr`: the address for ERDPT and the length to read. -/
def setReadPtr (handle : Handle) (position len : Nat) : Nat × Nat :=
  (e.readStart handle position % MEMORY_SIZE, clip (e.packet handle) position len)

def readPacket (handle : Handle) (position len : Nat) : List Byte :=
  let (erdpt, len) := e.setReadPtr handle position len
  readBuffer e.ram len erdpt

/-- `writePacket`; the second result is the number of bytes written. -/
def writePacket (handle : Handle) (position : Nat) (buffer : List Byte) : Enc28J60Network × Nat :=
  let packet := e.blocks handle
  let start := add16 packet.begin position
  let len := clip packet position buffer.length
  ({ e with ram := writeBuffer (buffer.take len) (start % MEMORY_SIZE) e.ram }, len)

def copyPacket (destPkt : Handle) (destPos : Nat) (srcPkt : Handle) (srcPos len : Nat) :
    Option Enc28J60Network := do
  let dest := e.blocks destPkt
  let start := e.readStart srcPkt srcPos
  let ram ← mempoolBlockMoveCallback (add16 dest.begin destPos) start len e.ram
  return { e with ram := ram }.setERXRDPT

/-- `sendPacket`: the control byte is written, the frame behind it goes out,
and the controller appends its status vector. A controller that hangs is given
up on after a second. -/
def sendPacket (handle : Handle) : Enc28J60Network × Bool :=
  let packet := e.blocks handle
  let start := packet.begin
  let stop := sub16 (add16 start packet.size) (UIP_SENDBUFFER_OFFSET + UIP_SENDBUFFER_PADDING)
  let ram := Function.update e.ram (start % MEMORY_SIZE) 0
  let frame := (List.range (sub16 stop start)).map fun i => ram ((start + 1 + i) % MEMORY_SIZE)
  match e.transmissions with
  | [] => ({ e with ram := ram, sent := (frame, false) :: e.sent }, false)
  | t :: rest =>
    ({ e with
        ram := writeBuffer (t.status.take UIP_SENDBUFFER_PADDING) ((stop + 1) % MEMORY_SIZE) ram
        transmissions := rest
        sent := (frame, t.ok) :: e.sent },
      t.ok)

/-- The loop of `chksum` over the pairs at `i`; `len` is the index of the last
byte. A length that the 16-bit `i` steps over is never reached. -/
def chksumLoop (ram : Nat → Byte) (len : Nat) : Nat → Nat → Nat → Nat → Option Nat
  | 0, _, _, _ => none
  | fuel + 1, i, erdpt, sum =>
    if i < len then
      let t := (ram erdpt).toNat * 256 + (ram (nextRead erdpt)).toNat
      let sum := add16 sum t
      let sum := if sum < t then add16 sum 1 else sum
      chksumLoop ram len fuel (add16 i 2) (nextRead (nextRead erdpt)) sum
    else if i = len then
      let t := (ram erdpt).toNat * 256
      let sum := add16 sum t
      some (if sum < t then add16 sum 1 else sum)
    else some sum

def chksum (sum : Nat) (handle : Handle) (pos len : Nat) : Option Nat :=
  let (erdpt, len) := e.setReadPtr handle pos len
  chksumLoop e.ram (sub16 len 1) 65536 0 erdpt sum

-- The pool, with the controller's memory behind it.

def allocBlock (size : Nat) : Option (Enc28J60Network × Handle) := do
  let (blocks, ram, h) ← MemoryPool.allocBlock mempoolBlockMoveCallback e.blocks e.ram size
  return ({ e with blocks := blocks, ram := ram }, h)

def freeBlock (handle : Handle) : Option Enc28J60Network := do
  let blocks ← MemoryPool.freeBlock e.blocks handle
  return { e with blocks := blocks }

def resizeBlock (handle : Handle) (position : Nat) : Enc28J60Network :=
  { e with blocks := MemoryPool.resizeBlock e.blocks handle position }

def resizeBlockTo (handle : Handle) (position size : Nat) : Enc28J60Network :=
  { e with blocks := MemoryPool.resizeBlockTo e.blocks handle position size }

end

/-- `init` on a controller with the given memory. -/
def init (ram : Nat → Byte) (transmissions : List Transmission) : Enc28J60Network :=
  setERXRDPT
    { blocks := MemoryPool.init, ram, receivePkt := ⟨0, 0, NOBLOCK⟩, nextPacketPtr := RXSTART_INIT,
      ERXRDPT := 0, EPKTCNT := 0, transmissions, sent := [] }

end Enc28J60Network

end UIPEthernet
