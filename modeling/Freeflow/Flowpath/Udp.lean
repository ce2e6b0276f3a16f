import Freeflow.Flowpath.Hash
import Freeflow.Lib.Fields

/-!
# `Flowpath.Udp` — opening a UDP device by its name

`parse_udp_name`, `parse_ipv4_addr`, `set_ipv4_addr`, `fp_udp_open` and `fp_udp_open_sockaddr` of `port_udp.c`. A string is
the list of its characters without the terminator; a buffer on the stack is as long as it is declared, with whatever was
there before. What `inet_pton` recognizes is a parameter: it returns 1 and the address, or 0.

The parameter `addr` of `parse_udp_name` has the type `char**`: it is the address of one pointer, the variable `addr` of
`fp_udp_open`, which points at `addr_buf` or is null.

## Contents
- `strncpy`, `atoi`, `htons`.
- `Locals`, `parseUdpName`.
- `SockaddrIn`, `parseIpv4Addr`, `setIpv4Addr`, `udpOpenSockaddr`, `udpOpen`.
-/

namespace Freeflow
namespace Flowpath
namespace Udp

/-- `ADDR_STR_LEN`. -/
def addrStrLen : Nat := 256

/-- `PORT_STR_LEN`. -/
def portStrLen : Nat := 16

/-- `EINVAL`. -/
def einval : Int := 22

/-- `fp_system_error`. -/
def systemError (e : Int) : Int := -e

/-- The character `:`. -/
def colon : UInt8 := 58

/-! ## The C library -/

/-- The conversion of an `int` to a `size_t`. -/
def toSize (n : Int) : Nat := (n % 18446744073709551616).toNat

/-- `strncpy`: exactly `n` cells are written, those behind the end of the string with terminators. -/
def strncpy (dst src : List UInt8) (n : Nat) : Checked (List UInt8) :=
  copyTo dst 0 (src.take n ++ List.replicate (n - src.length) 0)

/-- `isspace`. -/
def isspace (c : UInt8) : Bool := c = 32 || (9 ≤ c && c ≤ 13)

/-- `isdigit`. -/
def isdigit (c : UInt8) : Bool := 48 ≤ c && c ≤ 57

/-- The value of some digits. -/
def decimal (ds : List UInt8) : Int := ds.foldl (fun n c => 10 * n + (c.toNat - 48 : Int)) 0

/-- `atoi` of the string in a buffer. It reads one character behind the number, which has to be in the buffer. -/
def atoi (buf : List UInt8) : Checked Int :=
  let s := buf.dropWhile isspace
  let (negative, s) := match s with
    | 45 :: s => (true, s)
    | 43 :: s => (false, s)
    | s => (false, s)
  if (s.dropWhile isdigit).isEmpty then .error .outOfBounds
  else
    let n := decimal (s.takeWhile isdigit)
    checkInt (if negative then -n else n)

/-- `htons`, of an `int` that is passed for a `uint16_t`. -/
def htons (n : Int) : UInt16 :=
  let x := UInt16.ofNat (n % 65536).toNat
  (x <<< 8) ||| (x >>> 8)

/-! ## Names -/

/-- The variables of `fp_udp_open` that `parse_udp_name` writes to. `addr` points at `addr_buf` or is null; `portno` points
    at `port_buf`. -/
structure Locals where
  addrBuf : List UInt8
  portBuf : List UInt8
  hasAddr : Bool
deriving DecidableEq, Repr

/-- The last part of `parse_udp_name`: the rest of the string goes to the port. -/
def copyPort (str : List UInt8) (len : Int) (s : Locals) (err : Int) : Checked (Int × Locals × Int) :=
  if (portStrLen : Int) < len then return (-1, s, systemError einval)
  else do
    let portBuf ← strncpy s.portBuf str (toSize len)
    return (0, { s with portBuf }, err)

/-- `parse_udp_name`: its result, the variables it writes to, and `*err`. -/
def parseUdpName (str : List UInt8) (s : Locals) (err : Int) : Checked (Int × Locals × Int) :=
  let len := toInt str.length
  if colon ∈ str then
    let off := toInt (str.idxOf colon)
    if (addrStrLen : Int) < off then return (-1, s, systemError einval)
    else do
      let addrBuf ← strncpy s.addrBuf str (toSize off)
      -- `addr[off] = 0` writes a null pointer, and there is one pointer at `addr`
      let hasAddr ← if off = 0 then .ok false else .error .outOfBounds
      let next ← checkInt (off + 1)
      let len ← checkInt (len - off)
      copyPort (str.drop next.toNat) len { s with addrBuf, hasAddr } err
  else
    -- `addr = NULL` sets the parameter only
    copyPort str len s err

/-! ## Addresses -/

/-- `AF_INET`. -/
def afInet : UInt16 := 2

/-- `INADDR_ANY`. -/
def inaddrAny : UInt32 := 0

/-- `struct sockaddr_in`. -/
structure SockaddrIn where
  family : UInt16
  port : UInt16
  addr : UInt32
deriving DecidableEq, Repr

/-- `set_ipv4_addr`. -/
def setIpv4Addr (sa : SockaddrIn) (ip : UInt32) : SockaddrIn := { sa with family := afInet, addr := ip }

section Open

variable (inetPton : List UInt8 → Option UInt32)

/-- `parse_ipv4_addr`: the result, and the address. `inet_pton` is given the whole structure, and writes to its first four
    bytes. -/
def parseIpv4Addr (str : List UInt8) (sa : SockaddrIn) : Int × SockaddrIn :=
  match inetPton str with
  | some ip =>
      let sa := { sa with family := (ip % 65536).toUInt16, port := (ip / 65536).toUInt16 }
      if (1 : Int) < 0 then (-1, sa) else (0, sa)
  | none => if (0 : Int) < 0 then (-1, sa) else (0, sa)

/-- What the system answers: the results of `socket` and `bind`, and `errno`. -/
structure Sys where
  socket : Int
  bind : Int
  errno : Int

/-- `struct fp_udp_device`. -/
structure UdpDevice where
  addr : SockaddrIn
  fd : Int
deriving DecidableEq, Repr

/-- What opening a device comes to: the device or null, the addresses that `bind` is called with, and `*err`. -/
structure Opened where
  device : Option UdpDevice
  binds : List SockaddrIn
  err : Int
deriving DecidableEq, Repr

/-- `fp_udp_open_sockaddr`. -/
def udpOpenSockaddr (sys : Sys) (sa : SockaddrIn) (err : Int) : Opened :=
  if sys.socket < 0 then ⟨none, [], systemError sys.errno⟩
  else if sys.bind < 0 then ⟨none, [sa], systemError sys.errno⟩
  else ⟨some ⟨sa, sys.socket⟩, [sa], err⟩

/-- What the stack of a call of `fp_udp_open` holds before anything is written to it. -/
structure Stack where
  addrBuf : List UInt8
  portBuf : List UInt8
  sa : SockaddrIn
  addrBuf_len : addrBuf.length = addrStrLen
  portBuf_len : portBuf.length = portStrLen

/-- The variables that `fp_udp_open` passes on. -/
def Stack.locals (st : Stack) : Locals := ⟨st.addrBuf, st.portBuf, true⟩

/-- `if (addr && (parse_ipv4_addr(addr, &sa, err) < 0)) return NULL; else set_ipv4_addr(&sa, INADDR_ANY);`, with no address
    for the return. -/
def getAddr (s : Locals) (sa : SockaddrIn) : Checked (Option SockaddrIn) :=
  if s.hasAddr then do
    let text ← cstring 0 s.addrBuf 0
    let (r, sa) := parseIpv4Addr inetPton text sa
    if r < 0 then return none else return some (setIpv4Addr sa inaddrAny)
  else return some (setIpv4Addr sa inaddrAny)

/-- `fp_udp_open`. -/
def udpOpen (sys : Sys) (st : Stack) (address : List UInt8) (err : Int) : Checked Opened := do
  let (r, s, err) ← parseUdpName address st.locals err
  if r < 0 then return ⟨none, [], systemError sys.errno⟩
  else do
    let sa ← getAddr inetPton s st.sa
    match sa with
    | none => return ⟨none, [], systemError sys.errno⟩
    | some sa => do
        let port ← atoi s.portBuf
        return udpOpenSockaddr sys { sa with port := htons port } err

end Open

end Udp
end Flowpath
end Freeflow
