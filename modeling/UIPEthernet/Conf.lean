import UIPEthernet.Word

/-!
# Configuration

The constants of `uipethernet-conf.h`, `uip-conf.h`, `uipopt.h`, `uip.h` and
`enc28j60.h` as the library is shipped.
-/

namespace UIPEthernet

abbrev UIP_SOCKET_NUMPACKETS : Nat := 5
abbrev UIP_CONNS : Nat := 4
abbrev UIP_UDP_CONNS : Nat := 4
abbrev UIP_LISTENPORTS : Nat := 4
abbrev UIP_ARPTAB_SIZE : Nat := 8

instance : NeZero UIP_SOCKET_NUMPACKETS := ⟨by decide⟩
instance : NeZero UIP_CONNS := ⟨by decide⟩
instance : NeZero UIP_UDP_CONNS := ⟨by decide⟩
instance : NeZero UIP_ARPTAB_SIZE := ⟨by decide⟩

def UIP_PERIODIC_TIMER : BitVec 32 := 250
def UIP_CLIENT_TIMER : BitVec 32 := 10

-- enc28j60.h
def RXSTART_INIT : Nat := 0x0
def RXSTOP_INIT : Nat := 0x1FFF - 0x1800
def TXSTART_INIT : Nat := RXSTOP_INIT + 1
def TXSTOP_INIT : Nat := 0x1FFF

-- mempool_conf.h
def MEMPOOL_NUM_MEMBLOCKS : Nat := UIP_SOCKET_NUMPACKETS * 2 * UIP_CONNS + 3 * UIP_UDP_CONNS
def MEMPOOL_STARTADDRESS : Nat := TXSTART_INIT + 1
def MEMPOOL_SIZE : Nat := TXSTOP_INIT - TXSTART_INIT

-- Enc28J60Network.h
def UIP_RECEIVEBUFFERHANDLE : Nat := 0xff
def UIP_SENDBUFFER_PADDING : Nat := 7
def UIP_SENDBUFFER_OFFSET : Nat := 1

-- uipopt.h, uip.h, uip_arp.h
def UIP_BUFSIZE : Nat := 98
def UIP_TCP_MSS : Nat := 512
def UIP_RECEIVE_WINDOW : Nat := 512
def UIP_LLH_LEN : Nat := 14
def UIP_IPH_LEN : Nat := 20
def UIP_UDPH_LEN : Nat := 8
def UIP_TCPH_LEN : Nat := 20
def UIP_IPUDPH_LEN : Nat := UIP_UDPH_LEN + UIP_IPH_LEN
def UIP_IPTCPH_LEN : Nat := UIP_TCPH_LEN + UIP_IPH_LEN
def UIP_TCPIP_HLEN : Nat := UIP_IPTCPH_LEN
def UIP_TTL : Byte := 64
def UIP_RTO : BitVec 8 := 3
def UIP_MAXRTX : BitVec 8 := 8
def UIP_MAXSYNRTX : BitVec 8 := 5
def UIP_TIME_WAIT_TIMEOUT : BitVec 8 := 120
def UIP_PROTO_ICMP : Byte := 1
def UIP_PROTO_TCP : Byte := 6
def UIP_PROTO_UDP : Byte := 17
def UIP_ETHTYPE_ARP : Nat := 0x0806
def UIP_ETHTYPE_IP : Nat := 0x0800


-- UIPClient.h, UIPUdp.h
def UIP_SOCKET_DATALEN : Nat := UIP_TCP_MSS
def UIP_UDP_MAXDATALEN : Nat := 1500
def UIP_UDP_PHYH_LEN : Nat := UIP_LLH_LEN + UIP_IPUDPH_LEN
def UIP_UDP_MAXPACKETSIZE : Nat := UIP_UDP_MAXDATALEN + UIP_UDP_PHYH_LEN
def UIP_ARPHDRSIZE : Nat := 42

end UIPEthernet
