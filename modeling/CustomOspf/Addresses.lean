import Mathlib.Data.BitVec
import Mathlib.Data.Fintype.Basic

/-!
IPv4 addresses as the standard library prints and parses them, and networks in
CIDR notation as the `ipnetwork` crate offers them to the protocol.
-/

namespace CustomOspf

structure Ipv4Addr where
  bits : BitVec 32
deriving DecidableEq

def decimal (n : ℕ) : List Char := Nat.toDigits 10 n

theorem decimal_injective : Function.Injective decimal := by
  intro n m h
  have hvalue (k : ℕ) : Nat.ofDigitChars 10 (decimal k) 0 = k := by simp [decimal]
  rw [← hvalue n, h, hvalue]

-- for the literals of octets and of prefix lengths
instance neZeroOctet : NeZero 256 := ⟨by decide⟩

instance neZeroPrefixLen : NeZero 33 := ⟨by decide⟩

namespace Ipv4Addr

def new (a b c d : Fin 256) : Ipv4Addr :=
  ⟨BitVec.ofNat 32 (((a.val * 256 + b.val) * 256 + c.val) * 256 + d.val)⟩

def octet (ip : Ipv4Addr) (i : ℕ) : Fin 256 := Fin.ofNat 256 (ip.bits.toNat / 256 ^ (3 - i))

def unspecified : Ipv4Addr := new 0 0 0 0

def isUnspecified (ip : Ipv4Addr) : Bool := ip.bits = 0

def isLoopback (ip : Ipv4Addr) : Bool := ip.octet 0 = 127

def display (ip : Ipv4Addr) : List Char :=
  decimal (ip.octet 0) ++ '.' :: (decimal (ip.octet 1) ++ '.' ::
    (decimal (ip.octet 2) ++ '.' :: decimal (ip.octet 3)))

def toString (ip : Ipv4Addr) : String := String.ofList ip.display

def readOctet (cs : List Char) : Option (Fin 256 × List Char) :=
  let digits := cs.takeWhile Char.isDigit
  let value := Nat.ofDigitChars 10 digits 0
  if digits = [] ∨ 3 < digits.length ∨ (digits.head? = some '0' ∧ 1 < digits.length) then none
  else if h : value < 256 then some (⟨value, h⟩, cs.dropWhile Char.isDigit)
  else none

def readDot : List Char → Option (List Char)
  | '.' :: cs => some cs
  | _ => none

def readAddr (cs : List Char) : Option (Ipv4Addr × List Char) := do
  let (a, cs) ← readOctet cs
  let cs ← readDot cs
  let (b, cs) ← readOctet cs
  let cs ← readDot cs
  let (c, cs) ← readOctet cs
  let cs ← readDot cs
  let (d, cs) ← readOctet cs
  some (new a b c d, cs)

def parse (s : String) : Option Ipv4Addr :=
  match readAddr s.toList with
  | some (ip, []) => some ip
  | _ => none

theorem new_octets (ip : Ipv4Addr) : new (ip.octet 0) (ip.octet 1) (ip.octet 2) (ip.octet 3) = ip := by
  have hlt : ip.bits.toNat < 2 ^ 32 := ip.bits.isLt
  have he : ((ip.bits.toNat / 256 ^ 3 % 256 * 256 + ip.bits.toNat / 256 ^ 2 % 256) * 256 +
      ip.bits.toNat / 256 ^ 1 % 256) * 256 + ip.bits.toNat / 256 ^ 0 % 256 = ip.bits.toNat := by
    simp only [Nat.reducePow]
    omega
  cases ip with
  | mk bits =>
    simp only [new, octet, Fin.ofNat, Ipv4Addr.mk.injEq] at he ⊢
    rw [he, BitVec.ofNat_toNat, BitVec.setWidth_eq]

theorem isUnspecified_iff (ip : Ipv4Addr) : ip.isUnspecified = true ↔ ip = unspecified := by
  cases ip
  simp [isUnspecified, unspecified, new]

theorem decimal_digits (n : ℕ) : ∀ c ∈ decimal n, c.isDigit = true :=
  fun _ hc => Nat.isDigit_of_mem_toDigits (by omega) (by omega) hc

theorem readOctet_decimal (o : Fin 256) {rest : List Char} (h : ∀ c ∈ rest.head?, c.isDigit = false) :
    readOctet (decimal o ++ rest) = some (o, rest) := by
  have htake : rest.takeWhile Char.isDigit = [] := by
    cases rest with
    | nil => rfl
    | cons c cs => simp [h c rfl]
  have hdrop : rest.dropWhile Char.isDigit = rest := by
    cases rest with
    | nil => rfl
    | cons c cs => simp [h c rfl]
  have hshape : ∀ o : Fin 256, ¬ (decimal o = [] ∨ 3 < (decimal o).length ∨
      ((decimal o).head? = some '0' ∧ 1 < (decimal o).length)) := by decide +kernel
  have hvalue : Nat.ofDigitChars 10 (decimal o) 0 = o := by simp [decimal]
  unfold readOctet
  rw [List.takeWhile_append_of_pos (decimal_digits o), List.dropWhile_append_of_pos (decimal_digits o),
    htake, hdrop, List.append_nil]
  simp only [hshape o, if_false, hvalue, o.isLt, dite_true]

theorem readAddr_display (ip : Ipv4Addr) {rest : List Char} (h : ∀ c ∈ rest.head?, c.isDigit = false) :
    readAddr (ip.display ++ rest) = some (ip, rest) := by
  have hdot (cs : List Char) : ∀ c ∈ ('.' :: cs).head?, c.isDigit = false := by simp
  simp only [readAddr, display, List.append_assoc, List.cons_append, readOctet_decimal _ (hdot _),
    readOctet_decimal _ h, readDot, Option.bind_eq_bind, Option.bind_some, new_octets]

@[simp] theorem parse_toString (ip : Ipv4Addr) : parse ip.toString = some ip := by
  have hread : readAddr (ip.display ++ []) = some (ip, []) := readAddr_display ip (by simp)
  rw [List.append_nil] at hread
  simp only [parse, toString, String.toList_ofList, hread]

end Ipv4Addr

inductive IpAddr where
  | v4 (ip : Ipv4Addr)
  | v6 (bits : BitVec 128)
deriving DecidableEq

namespace IpAddr

def segments (bits : BitVec 128) : List ℕ := (List.range 8).map (fun i => bits.toNat / 65536 ^ (7 - i) % 65536)

def joinHex (segments : List ℕ) : List Char := List.intercalate [':'] (segments.map (Nat.toDigits 16))

/-- Start and length of the first longest run of zero segments. -/
def longestRun (segments : List ℕ) : ℕ × ℕ :=
  (segments.zipIdx.foldl (fun (runs : (ℕ × ℕ) × (ℕ × ℕ)) e =>
    if e.1 = 0 then
      let current := (if runs.2.2 = 0 then e.2 else runs.2.1, runs.2.2 + 1)
      (if runs.1.2 < current.2 then current else runs.1, current)
    else (runs.1, (0, 0))) ((0, 0), (0, 0))).1

def displayV6 (bits : BitVec 128) : List Char :=
  let segments := segments bits
  let run := longestRun segments
  -- an IPv4-mapped address ends in dotted decimals
  if bits.toNat / 2 ^ 32 = 0xffff then "::ffff:".toList ++ (Ipv4Addr.mk (bits.setWidth 32)).display
  else if 1 < run.2 then joinHex (segments.take run.1) ++ "::".toList ++ joinHex (segments.drop (run.1 + run.2))
  else joinHex segments

def toString : IpAddr → String
  | .v4 ip => ip.toString
  | .v6 bits => String.ofList (displayV6 bits)

end IpAddr

structure SocketAddr where
  ip : IpAddr
  port : UInt16
deriving DecidableEq

structure Ipv4Network where
  addr : Ipv4Addr
  prefixLen : Fin 33
deriving DecidableEq

def cidr (addr : Ipv4Addr) (prefixLen : Fin 33) : String :=
  addr.toString ++ "/" ++ Nat.repr prefixLen

/-- The functions of the `ipnetwork` crate the protocol calls, with what its documentation says of them. -/
class IpNetwork where
  network : Ipv4Network → Ipv4Addr
  contains : Ipv4Network → Ipv4Addr → Bool
  display : Ipv4Network → String
  fromStr : String → Option Ipv4Network
  network_idem (n : Ipv4Network) : network ⟨network n, n.prefixLen⟩ = network n
  contains_iff (n : Ipv4Network) (ip : Ipv4Addr) :
    contains n ip = true ↔ network ⟨ip, n.prefixLen⟩ = network n
  display_eq (n : Ipv4Network) : display n = cidr n.addr n.prefixLen
  fromStr_cidr (addr : Ipv4Addr) (prefixLen : Fin 33) : fromStr (cidr addr prefixLen) = some ⟨addr, prefixLen⟩

namespace Ipv4Network

variable [IpNetwork]

def network (n : Ipv4Network) : Ipv4Addr := IpNetwork.network n

def contains (n : Ipv4Network) (ip : Ipv4Addr) : Bool := IpNetwork.contains n ip

def toString (n : Ipv4Network) : String := IpNetwork.display n

def parse (s : String) : Option Ipv4Network := IpNetwork.fromStr s

def subnet (n : Ipv4Network) : Ipv4Network := ⟨n.network, n.prefixLen⟩

@[simp] theorem subnet_prefixLen (n : Ipv4Network) : n.subnet.prefixLen = n.prefixLen := rfl

@[simp] theorem subnet_network (n : Ipv4Network) : n.subnet.network = n.network := IpNetwork.network_idem n

@[simp] theorem subnet_subnet (n : Ipv4Network) : n.subnet.subnet = n.subnet := by
  rw [subnet, subnet_network]
  rfl

theorem subnet_eq_iff (m n : Ipv4Network) :
    m.subnet = n.subnet ↔ m.network = n.network ∧ m.prefixLen = n.prefixLen := by
  simp [subnet]

theorem contains_addr (n : Ipv4Network) : n.contains n.addr = true := (IpNetwork.contains_iff n n.addr).mpr rfl

theorem contains_of_subnet_eq {m n : Ipv4Network} (h : m.subnet = n.subnet) (ip : Ipv4Addr) :
    m.contains ip = n.contains ip := by
  obtain ⟨hnet, hlen⟩ := (subnet_eq_iff m n).mp h
  have hiff : m.contains ip = true ↔ n.contains ip = true := by
    unfold contains network at *
    rw [IpNetwork.contains_iff, IpNetwork.contains_iff, hnet, hlen]
  exact Bool.eq_iff_iff.mpr hiff

@[simp] theorem parse_cidr (addr : Ipv4Addr) (prefixLen : Fin 33) :
    parse (cidr addr prefixLen) = some ⟨addr, prefixLen⟩ := IpNetwork.fromStr_cidr addr prefixLen

@[simp] theorem parse_toString (n : Ipv4Network) : parse n.toString = some n := by
  rw [toString, IpNetwork.display_eq, parse_cidr]

end Ipv4Network

namespace Crate

/-! The crate's functions on the CIDR notation, for runs on concrete addresses. -/

def mask (prefixLen : Fin 33) : BitVec 32 := ~~~ (BitVec.allOnes 32 >>> prefixLen.val)

def readPrefixLen (cs : List Char) : Option (Fin 33) :=
  let digits := if cs.head? = some '+' then cs.tail else cs
  let value := Nat.ofDigitChars 10 digits 0
  if digits = [] ∨ digits.all Char.isDigit = false then none
  else if h : value < 33 then some ⟨value, h⟩
  else none

/-- After the slash stands a prefix length or a netmask; without a slash the prefix length is 32. -/
def readNetwork (cs : List Char) : Option Ipv4Network :=
  match Ipv4Addr.readAddr cs with
  | some (ip, []) => some ⟨ip, 32⟩
  | some (ip, '/' :: cs) =>
    match Ipv4Addr.readAddr cs with
    | some (netmask, []) =>
      ((List.finRange 33).find? (fun p => mask p = netmask.bits)).map (fun p => ⟨ip, p⟩)
    | _ => (readPrefixLen cs).map (fun p => ⟨ip, p⟩)
  | _ => none

theorem readNetwork_cidr (addr : Ipv4Addr) (prefixLen : Fin 33) :
    readNetwork (addr.display ++ '/' :: decimal prefixLen) = some ⟨addr, prefixLen⟩ := by
  have hmask : ∀ p : Fin 33, Ipv4Addr.readAddr (decimal p) = none := by decide +kernel
  have hlen : ∀ p : Fin 33, readPrefixLen (decimal p) = some p := by decide +kernel
  have haddr : Ipv4Addr.readAddr (addr.display ++ '/' :: decimal prefixLen) =
      some (addr, '/' :: decimal prefixLen) := Ipv4Addr.readAddr_display addr (by simp)
  simp only [readNetwork, haddr, hmask, hlen, Option.map_some]

instance ipNetwork : IpNetwork where
  network n := ⟨n.addr.bits &&& mask n.prefixLen⟩
  contains n ip := ip.bits &&& mask n.prefixLen = n.addr.bits &&& mask n.prefixLen
  display n := cidr n.addr n.prefixLen
  fromStr s := readNetwork s.toList
  network_idem n := by simp [BitVec.and_assoc]
  contains_iff n ip := by simp
  display_eq n := rfl
  fromStr_cidr addr prefixLen := by
    have hchars : (cidr addr prefixLen).toList = addr.display ++ '/' :: decimal prefixLen := by
      simp [cidr, Ipv4Addr.toString, decimal]
    rw [hchars, readNetwork_cidr]

theorem octet_of_contains {n : Ipv4Network} {ip : Ipv4Addr} (hn : 8 ≤ n.prefixLen.val)
    (h : n.contains ip = true) : ip.octet 0 = n.addr.octet 0 := by
  have hmask : ∀ p : Fin 33, 8 ≤ p.val → mask p >>> 24 = 255#32 := by decide +kernel
  have hbits : ip.bits &&& mask n.prefixLen = n.addr.bits &&& mask n.prefixLen := of_decide_eq_true h
  have htop (b : BitVec 32) : (b &&& mask n.prefixLen) >>> 24 = b >>> 24 := by
    rw [BitVec.ushiftRight_and_distrib, hmask n.prefixLen hn]
    apply BitVec.eq_of_toNat_eq
    have hlt : b.toNat >>> 24 < 2 ^ 8 := by
      rw [Nat.shiftRight_eq_div_pow]
      omega
    rw [BitVec.toNat_and, BitVec.toNat_ushiftRight, BitVec.toNat_ofNat]
    exact (Nat.and_two_pow_sub_one_eq_mod _ 8).trans (Nat.mod_eq_of_lt hlt)
  have heq : ip.bits.toNat >>> 24 = n.addr.bits.toNat >>> 24 := by
    rw [← BitVec.toNat_ushiftRight, ← BitVec.toNat_ushiftRight, ← htop ip.bits, hbits, htop]
  simp only [Nat.shiftRight_eq_div_pow] at heq
  simp only [Ipv4Addr.octet, Nat.sub_zero, Nat.reducePow] at heq ⊢
  rw [heq]

end Crate

end CustomOspf
