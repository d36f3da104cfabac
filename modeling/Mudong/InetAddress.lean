import Mudong.Buffer.Typed
import Mudong.Lib.Decimal

namespace mudong.ev

def AF_INET : Nat := 2
def INADDR_ANY : Nat := 0x00000000
def INADDR_LOOPBACK : Nat := 0x7f000001
def INET_ADDRSTRLEN : Nat := 16

def htons (host : Endian.Order) (x : UInt16) : UInt16 := UInt16.ofNat (htobe host 2 x.toNat)
def ntohs (host : Endian.Order) (x : UInt16) : UInt16 := UInt16.ofNat (betoh host 2 x.toNat)
def htonl (host : Endian.Order) (x : Nat) : UInt32 := UInt32.ofNat (htobe host 4 x)

/-- `sockaddr_in` without its padding, the integers as this machine reads them from memory. -/
structure SockaddrIn where
  sin_family : Nat
  sin_port : UInt16
  s_addr : UInt32
  deriving DecidableEq, Repr

/-- Four numbers with dots between them. -/
def dotted (octets : List UInt8) : List Char :=
  List.intercalate ['.'] (octets.map fun octet => Nat.toDigits 10 octet.toNat)

/-- `inet_ntop` for `AF_INET`: the text in a buffer of that size, if it fits there with its terminating zero. -/
def inet_ntop (octets : List UInt8) (size : Nat) : Option (List Char) :=
  if size < (dotted octets).length + 1 then none else some (dotted octets)

/-- The locals of `inet_pton` for `AF_INET`: the numbers before the current one, the current one, how many of them have
begun, and whether the current one has. -/
structure Pton where
  before : List UInt8
  current : Nat
  octets : Nat
  sawDigit : Bool
  deriving DecidableEq, Repr

/-- One character. A number has no leading zero and is at most 255. -/
def Pton.step (s : Pton) (ch : Char) : Option Pton :=
  if ch.isDigit then
    let new := s.current * 10 + Decimal.value ch
    if s.sawDigit ∧ s.current = 0 then none
    else if 255 < new then none
    else if s.sawDigit then some { s with current := new }
    else if 4 < s.octets + 1 then none
    else some { s with current := new, octets := s.octets + 1, sawDigit := true }
  else if ch = '.' ∧ s.sawDigit then
    if s.octets = 4 then none
    else some { s with before := s.before ++ [UInt8.ofNat s.current], current := 0, sawDigit := false }
  else none

def Pton.init : Pton := { before := [], current := 0, octets := 0, sawDigit := false }

/-- The four bytes written to memory. -/
def inet_pton (src : List Char) : Option (List UInt8) := do
  let s ← src.foldlM Pton.step Pton.init
  if s.octets < 4 then none else some (s.before ++ [UInt8.ofNat s.current])

/-- `std::string::c_str()` as its reader takes it: up to the first zero. -/
def c_str (s : List Char) : List Char := s.takeWhile fun c => c.toNat ≠ 0

structure InetAddress where
  addr_ : SockaddrIn
  deriving DecidableEq, Repr

namespace InetAddress

/-- `InetAddress(uint16_t, bool)`. -/
def ofPort (host : Endian.Order) (port : UInt16) (loopback : Bool) : InetAddress :=
  { addr_ :=
    { sin_family := AF_INET
      sin_port := htons host port
      s_addr := htonl host (if loopback then INADDR_LOOPBACK else INADDR_ANY) } }

/-- `InetAddress(const std::string&, uint16_t)`, which aborts on a text that is not an address. -/
def ofIp (host : Endian.Order) (ip : List Char) (port : UInt16) : Option InetAddress :=
  (inet_pton (c_str ip)).map fun octets =>
    { addr_ :=
      { sin_family := AF_INET
        sin_port := htons host port
        s_addr := UInt32.ofNat (host.value octets) } }

def setAddress (_ : InetAddress) (addr : SockaddrIn) : InetAddress := { addr_ := addr }

def toIp (host : Endian.Order) (a : InetAddress) : List Char :=
  match inet_ntop (host.bytes 4 a.addr_.s_addr.toNat) INET_ADDRSTRLEN with
  | some buf => buf
  | none => []

def toPort (host : Endian.Order) (a : InetAddress) : UInt16 := ntohs host a.addr_.sin_port

def toIpPort (host : Endian.Order) (a : InetAddress) : List Char :=
  a.toIp host ++ [':'] ++ Nat.toDigits 10 (a.toPort host).toNat

end InetAddress

/-- `TcpConnection::name`. -/
def TcpConnection.name (host : Endian.Order) (peer_ local_ : InetAddress) : List Char :=
  peer_.toIpPort host ++ " -> ".toList ++ local_.toIpPort host

end mudong.ev
