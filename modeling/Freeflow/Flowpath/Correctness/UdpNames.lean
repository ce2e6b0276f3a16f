import Freeflow.Flowpath.Udp
import Freeflow.Flowpath.Correctness.HashMap

/-!
# `Flowpath.Correctness.UdpNames` — which names of UDP devices are split as documented

The comment of `fp_udp_open` gives two forms of a name, `<address>:<port>` and `<port>`, and the constants of the file the
sizes of the two buffers. `ParsesAsDocumented` says what `parse_udp_name` has to deliver for a name of either form, and
`OpensAsDocumented` what `fp_udp_open` has to bind to. The function gets only those names right that it refuses for their
length (`documented_iff`):

- the terminator of an address is written through the address of the pointer, so an address ends in a write outside it;
- without an address the null pointer stays inside `parse_udp_name`;
- and whatever was parsed, the socket is bound to `INADDR_ANY` (`udpOpen_binds_any`).
-/

namespace Freeflow
namespace Flowpath
namespace Udp

variable {str : List UInt8} {s s' : Locals} {len err e r : Int}

/-! ## What is documented -/

/-- The text before the first `:`, if there is one. -/
def addressPart (str : List UInt8) : Option (List UInt8) :=
  if colon ∈ str then some (str.take (str.idxOf colon)) else none

/-- The text behind the first `:`, or all of it. -/
def portPart (str : List UInt8) : List UInt8 :=
  if colon ∈ str then str.drop (str.idxOf colon + 1) else str

/-- Both parts fit into their buffers, with a terminator. -/
def withinLimits (str : List UInt8) : Bool :=
  (addressPart str).all (fun a => decide (a.length < addrStrLen)) && decide ((portPart str).length < portStrLen)

/-- `parse_udp_name` delivers the two parts of a name within the limits, as strings, and refuses any other name; nothing is
    written outside the buffers on the way. -/
def ParsesAsDocumented (st : Stack) (str : List UInt8) (err : Int) : Prop :=
  ∃ r s e, parseUdpName str st.locals err = .ok (r, s, e) ∧
    if withinLimits str = true then
      r = 0 ∧ s.hasAddr = (addressPart str).isSome ∧ (∀ a ∈ addressPart str, cstring 0 s.addrBuf 0 = .ok a)
        ∧ cstring 0 s.portBuf 0 = .ok (portPart str)
    else r = -1 ∧ e ≠ 0

/-- The address to bind to: the given one if it is valid, `INADDR_ANY` if none is given. -/
def bindAddress (inetPton : List UInt8 → Option UInt32) (str : List UInt8) : Option UInt32 :=
  if withinLimits str = true then
    match addressPart str with
    | some a => inetPton a
    | none => some inaddrAny
  else none

/-- `fp_udp_open` binds the socket to that address, and refuses a name without one. -/
def OpensAsDocumented (inetPton : List UInt8 → Option UInt32) (sys : Sys) (st : Stack) (str : List UInt8) (err : Int) :
    Prop :=
  ∃ o, udpOpen inetPton sys st str err = .ok o ∧
    match bindAddress inetPton str with
    | some ip => o.binds.map SockaddrIn.addr = if sys.socket < 0 then [] else [ip]
    | none => o.device = none ∧ o.binds = []

/-! ## The cases of a name -/

/-- The text that goes to the port buffer is too long for it. -/
theorem copyPort_long (hlen : (portStrLen : Int) < len) : copyPort str len s err = .ok (-1, s, systemError einval) :=
  if_pos hlen

/-- Text that is not too long is accepted, and the pointer to the address stays. -/
theorem copyPort_short (hlen : ¬ (portStrLen : Int) < len) (h : copyPort str len s err = .ok (r, s', e)) :
    r = 0 ∧ s'.hasAddr = s.hasAddr := by
  rw [copyPort, if_neg hlen] at h
  obtain ⟨portBuf, -, h⟩ := bind_eq_ok h
  cases h
  exact ⟨rfl, rfl⟩

theorem parseUdpName_plain (hcolon : colon ∉ str) (s : Locals) (err : Int) :
    parseUdpName str s err = copyPort str (toInt str.length) s err :=
  if_neg hcolon

theorem parseUdpName_far (hcolon : colon ∈ str) (hoff : (addrStrLen : Int) < toInt (str.idxOf colon)) (s : Locals)
    (err : Int) : parseUdpName str s err = .ok (-1, s, systemError einval) := by
  rw [parseUdpName]
  dsimp only
  rw [if_pos hcolon, if_pos hoff]
  rfl

/-- The length of a string is an `int` however long it is. -/
theorem checkInt_toInt (n : Nat) : checkInt (toInt n) = .ok (toInt n) := by
  have hlo : -(((4294967296 : Nat) : Int) / 2) ≤ toInt n := Int.le_bmod (by decide)
  have hhi : toInt n < (((4294967296 : Nat) : Int) + 1) / 2 := Int.bmod_lt (by decide)
  exact checkInt_of_bounds (by omega) (by omega)

/-- With the `:` in front the pointer to the address becomes null, and the port is the rest. -/
theorem parseUdpName_front (hcolon : colon ∈ str) (hoff : toInt (str.idxOf colon) = 0) (s : Locals) (err : Int) :
    parseUdpName str s err = copyPort (str.drop 1) (toInt str.length) { s with hasAddr := false } err := by
  have hnext : checkInt ((0 : Int) + 1) = .ok 1 := by decide
  have hcopy : strncpy s.addrBuf str (toSize 0) = .ok s.addrBuf := by
    rw [show toSize 0 = 0 from rfl, strncpy, copyTo]
    simp
  rw [parseUdpName]
  dsimp only
  rw [if_pos hcolon, hoff, if_neg (by decide), hcopy, ok_bind, if_pos rfl, ok_bind, hnext, ok_bind, Int.sub_zero,
    checkInt_toInt, ok_bind]
  rfl

/-- With an address in front of the `:`, the terminator is written outside the pointer. -/
theorem parseUdpName_address (hcolon : colon ∈ str) (hfar : ¬ (addrStrLen : Int) < toInt (str.idxOf colon))
    (hoff : toInt (str.idxOf colon) ≠ 0) (s : Locals) (err : Int) :
    parseUdpName str s err = .error .outOfBounds := by
  rw [parseUdpName]
  dsimp only
  rw [if_pos hcolon, if_neg hfar, strncpy, copyTo]
  by_cases hfits : 0 + (str.take (toSize (toInt (str.idxOf colon))) ++
      List.replicate (toSize (toInt (str.idxOf colon)) - str.length) 0).length ≤ s.addrBuf.length
  · rw [if_pos hfits, ok_bind, if_neg hoff]
    rfl
  · rw [if_neg hfits]
    rfl

/-! ## Refused names -/

/-- The names that `parse_udp_name` refuses: the part before the `:` is too long, or it is empty and the rest is too long, or
    there is no `:` and the name is too long. -/
def Refused (str : List UInt8) : Prop :=
  if colon ∈ str then
    (addrStrLen : Int) < toInt (str.idxOf colon)
      ∨ toInt (str.idxOf colon) = 0 ∧ (portStrLen : Int) < toInt str.length
  else (portStrLen : Int) < toInt str.length

instance (str : List UInt8) : Decidable (Refused str) :=
  inferInstanceAs (Decidable (if colon ∈ str then
    (addrStrLen : Int) < toInt (str.idxOf colon)
      ∨ toInt (str.idxOf colon) = 0 ∧ (portStrLen : Int) < toInt str.length
  else (portStrLen : Int) < toInt str.length))

theorem Refused.parse (h : Refused str) (s : Locals) (err : Int) :
    ∃ s', parseUdpName str s err = .ok (-1, s', systemError einval) := by
  unfold Refused at h
  by_cases hcolon : colon ∈ str
  · rw [if_pos hcolon] at h
    rcases h with hfar | ⟨hoff, hlen⟩
    · exact ⟨s, parseUdpName_far hcolon hfar s err⟩
    · exact ⟨_, (parseUdpName_front hcolon hoff s err).trans (copyPort_long hlen)⟩
  · rw [if_neg hcolon] at h
    exact ⟨s, (parseUdpName_plain hcolon s err).trans (copyPort_long h)⟩

/-- A refused name is beyond the limits. -/
theorem Refused.not_within (h : Refused str) : withinLimits str = false := by
  have hlen := toInt_toNat_le str.length
  have hoff := toInt_toNat_le (str.idxOf colon)
  have hwrap : toInt (str.idxOf colon) % (4294967296 : Nat) = (str.idxOf colon : Int) % (4294967296 : Nat) := Int.bmod_emod
  unfold Refused at h
  rw [withinLimits, Bool.and_eq_false_iff]
  by_cases hcolon : colon ∈ str
  · have hidx : str.idxOf colon < str.length := List.idxOf_lt_length_iff.mpr hcolon
    have haddr : (str.take (str.idxOf colon)).length = str.idxOf colon := List.length_take_of_le hidx.le
    have hport : (str.drop (str.idxOf colon + 1)).length = str.length - (str.idxOf colon + 1) := List.length_drop
    rw [if_pos hcolon] at h
    rw [addressPart, portPart, if_pos hcolon, if_pos hcolon, Option.all_some, haddr, hport, decide_eq_false_iff_not,
      decide_eq_false_iff_not]
    unfold addrStrLen portStrLen at *
    rcases h with hfar | ⟨hzero, hlong⟩
    · left
      omega
    · -- an offset that is 0 as an `int` is 0, or from 2^32 on
      rw [hzero] at hwrap
      omega
  · rw [if_neg hcolon] at h
    rw [portPart, if_neg hcolon]
    unfold portStrLen at *
    right
    rw [decide_eq_false_iff_not]
    omega

/-- A name that is not refused is split wrongly: its address is not there, or there is one that was not given, or the
    function does not come to its end. -/
theorem not_parsesAsDocumented (h : ¬ Refused str) (st : Stack) (err : Int) : ¬ ParsesAsDocumented st str err := by
  rintro ⟨r, s, e, hparse, hdoc⟩
  unfold Refused at h
  by_cases hcolon : colon ∈ str
  · rw [if_pos hcolon, not_or, not_and] at h
    by_cases hoff : toInt (str.idxOf colon) = 0
    · rw [parseUdpName_front hcolon hoff] at hparse
      obtain ⟨hr, haddr⟩ := copyPort_short (h.2 hoff) hparse
      split at hdoc
      · have hsome := hdoc.2.1
        rw [haddr, addressPart, if_pos hcolon] at hsome
        cases hsome
      · omega
    · rw [parseUdpName_address hcolon h.1 hoff] at hparse
      cases hparse
  · rw [if_neg hcolon] at h
    rw [parseUdpName_plain hcolon] at hparse
    obtain ⟨hr, haddr⟩ := copyPort_short h hparse
    split at hdoc
    · have hnone := hdoc.2.1
      rw [haddr, addressPart, if_neg hcolon] at hnone
      cases hnone
    · omega

/-- A name that `parse_udp_name` refuses is not opened. -/
theorem udpOpen_refused (inetPton : List UInt8 → Option UInt32) (sys : Sys) (st : Stack)
    (h : parseUdpName str st.locals err = .ok (r, s, e)) (hr : r < 0) :
    udpOpen inetPton sys st str err = .ok ⟨none, [], systemError sys.errno⟩ := by
  rw [udpOpen, h, ok_bind]
  exact if_pos hr

/-- **Names as documented.** `parse_udp_name` splits a name as documented, and `fp_udp_open` binds as documented, exactly for
    the names that are refused for their length. -/
theorem documented_iff (inetPton : List UInt8 → Option UInt32) (sys : Sys) (st : Stack) (str : List UInt8) (err : Int) :
    ParsesAsDocumented st str err ∧ OpensAsDocumented inetPton sys st str err ↔ Refused str := by
  constructor
  · intro ⟨hparse, _⟩
    by_contra h
    exact not_parsesAsDocumented h st err hparse
  · intro h
    have hlimits : ¬ withinLimits str = true := by rw [h.not_within]; decide
    obtain ⟨s, hparse⟩ := h.parse st.locals err
    refine ⟨⟨-1, s, _, hparse, ?_⟩, ⟨_, udpOpen_refused inetPton sys st hparse (by decide), ?_⟩⟩
    · rw [if_neg hlimits]
      exact ⟨rfl, by decide⟩
    · rw [bindAddress, if_neg hlimits]
      exact ⟨rfl, rfl⟩

/-- A stack of zeros. -/
def zeroStack : Stack :=
  ⟨List.replicate addrStrLen 0, List.replicate portStrLen 0, ⟨0, 0, 0⟩, List.length_replicate, List.length_replicate⟩

/-- `127.0.0.1:80`. -/
def loopbackName : List UInt8 := [49, 50, 55, 46, 48, 46, 48, 46, 49, 58, 56, 48]

/-- `9000`. -/
def portName : List UInt8 := [57, 48, 48, 48]

/-- Both names are within the limits. The terminator of the first one's address is written outside the pointer; the second
    one has no address, and the pointer is not null. -/
theorem loopback_not_split :
    withinLimits loopbackName = true ∧ parseUdpName loopbackName zeroStack.locals 0 = .error .outOfBounds
      ∧ ¬ ParsesAsDocumented zeroStack loopbackName 0
      ∧ withinLimits portName = true ∧ ¬ ParsesAsDocumented zeroStack portName 0 :=
  ⟨by decide, parseUdpName_address (by decide) (by decide) (by decide) _ _, not_parsesAsDocumented (by decide) zeroStack 0,
    by decide, not_parsesAsDocumented (by decide) zeroStack 0⟩

/-! ## The address of the socket -/

/-- The address that was parsed is overwritten. -/
theorem getAddr_any {inetPton : List UInt8 → Option UInt32} {sa sa' : SockaddrIn}
    (h : getAddr inetPton s sa = .ok (some sa')) : sa'.addr = inaddrAny := by
  unfold getAddr at h
  split at h
  · obtain ⟨text, -, h⟩ := bind_eq_ok h
    generalize parseIpv4Addr inetPton text sa = parsed at h
    obtain ⟨r, sa⟩ := parsed
    dsimp only at h
    by_cases hr : r < 0
    · rw [if_pos hr] at h
      cases h
    · rw [if_neg hr] at h
      cases h
      rfl
  · cases h
    rfl

/-- **No socket is bound to an address that was given.** -/
theorem udpOpen_binds_any {inetPton : List UInt8 → Option UInt32} {sys : Sys} {st : Stack} {o : Opened}
    (h : udpOpen inetPton sys st str err = .ok o) : ∀ sa ∈ o.binds, sa.addr = inaddrAny := by
  unfold udpOpen at h
  obtain ⟨⟨r, s, e⟩, -, h⟩ := bind_eq_ok h
  dsimp only at h
  split at h
  · cases h
    exact fun sa hsa => by cases hsa
  · obtain ⟨sa, hsa, h⟩ := bind_eq_ok h
    cases sa with
    | none =>
        cases h
        exact fun sa hsa => by cases hsa
    | some sa =>
        obtain ⟨port, -, h⟩ := bind_eq_ok h
        have hany := getAddr_any hsa
        cases h
        intro sa' hsa'
        unfold udpOpenSockaddr at hsa'
        split at hsa'
        · cases hsa'
        · split at hsa' <;> rw [List.mem_singleton.mp hsa'] <;> exact hany

end Udp
end Flowpath
end Freeflow
