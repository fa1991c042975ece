import UIPEthernet.Lib.Prog
import UIPEthernet.Word

/-!
# Programs over a UIPUDP object

`Dns.cpp` and `Dhcp.cpp` know the stack through a `UIPUDP` object and the
functions of the Arduino core only. They are programs that make these calls.
-/

namespace UIPEthernet

inductive UdpCall
  | begin (port : Nat)
  | stop
  | beginPacket (ip : BitVec 32) (port : Nat)
  | write (buffer : List Byte)
  | endPacket
  | parsePacket
  | available
  | read (len : Nat)
  | flush
  | remoteIP
  | remotePort
  -- the Arduino core
  | millis
  | random (howsmall howbig : Nat)
deriving DecidableEq, Repr

namespace UdpCall

abbrev Answer : UdpCall → Type
  | begin _ | beginPacket _ _ | endPacket => Bool
  | stop | flush => Unit
  | write _ | parsePacket | available | remotePort | random _ _ => Nat
  | read _ => List Byte
  | remoteIP | millis => BitVec 32

end UdpCall

abbrev UdpProg := Lib.Prog UdpCall UdpCall.Answer

namespace UdpProg

open Lib

def begin (port : Nat) : UdpProg Bool := .ask (UdpCall.begin port)

def stop : UdpProg Unit := .ask UdpCall.stop

def beginPacket (ip : BitVec 32) (port : Nat) : UdpProg Bool := .ask (UdpCall.beginPacket ip port)

def write (buffer : List Byte) : UdpProg Nat := .ask (UdpCall.write buffer)

def endPacket : UdpProg Bool := .ask UdpCall.endPacket

def parsePacket : UdpProg Nat := .ask UdpCall.parsePacket

def available : UdpProg Nat := .ask UdpCall.available

/-- `read(buffer, len)`: the bytes read. -/
def readBytes (len : Nat) : UdpProg (List Byte) := .ask (UdpCall.read len)

/-- `read()`, `none` for -1. -/
def readByte : UdpProg (Option Byte) := do
  let bytes ← readBytes 1
  return bytes.head?

def flush : UdpProg Unit := .ask UdpCall.flush

def remoteIP : UdpProg (BitVec 32) := .ask UdpCall.remoteIP

def remotePort : UdpProg Nat := .ask UdpCall.remotePort

def millis : UdpProg (BitVec 32) := .ask UdpCall.millis

def random (howsmall howbig : Nat) : UdpProg Nat := .ask (UdpCall.random howsmall howbig)

/-- `read()` in a loop, with the answers thrown away. -/
def skip : Nat → UdpProg Unit
  | 0 => return ()
  | n + 1 => do
    let _ ← readByte
    skip n

/-- What `read(buffer, len)` leaves in `buffer`, where `bytes` were read. -/
def into (buffer bytes : List Byte) : List Byte := bytes ++ buffer.drop bytes.length

end UdpProg

end UIPEthernet
