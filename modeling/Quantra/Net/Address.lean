import Mathlib.Data.Nat.Notation

/-! Network addresses as `std::net` has them. -/
namespace Quantra.Net

structure Ipv4Addr where
  a : UInt8
  b : UInt8
  c : UInt8
  d : UInt8
  deriving DecidableEq, Repr

def Ipv4Addr.octets (ip : Ipv4Addr) : List UInt8 := [ip.a, ip.b, ip.c, ip.d]

@[simp]
theorem Ipv4Addr.length_octets (ip : Ipv4Addr) : ip.octets.length = 4 := rfl

def Ipv4Addr.unspecified : Ipv4Addr := ⟨0, 0, 0, 0⟩

structure Ipv6Addr where
  octets : Vector UInt8 16
  deriving DecidableEq, Repr

inductive IpAddr
  | v4 (ip : Ipv4Addr)
  | v6 (ip : Ipv6Addr)
  deriving DecidableEq, Repr

/-- A hardware address, `[u8; 6]`. -/
structure Mac where
  m0 : UInt8
  m1 : UInt8
  m2 : UInt8
  m3 : UInt8
  m4 : UInt8
  m5 : UInt8
  deriving DecidableEq, Repr

def Mac.octets (mac : Mac) : List UInt8 := [mac.m0, mac.m1, mac.m2, mac.m3, mac.m4, mac.m5]

@[simp]
theorem Mac.length_octets (mac : Mac) : mac.octets.length = 6 := rfl

end Quantra.Net
