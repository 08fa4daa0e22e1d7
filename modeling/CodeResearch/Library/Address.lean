import Mathlib

/-!
# Internet addresses

Addresses of both families as numbers, and the classes `ipaddress` of Python 3.11 sorts them
into by the networks they are in.
-/
namespace CodeResearch

/-- The addresses that agree with `base` in the first `length` bits. -/
structure Network where
  base : ℕ
  length : ℕ
deriving DecidableEq

namespace Network

/-- Is an address of `width` bits in the network? -/
def contains (width : ℕ) (n : Network) (ip : ℕ) : Bool :=
  decide (ip / 2 ^ (width - n.length) = n.base / 2 ^ (width - n.length))

/-- `a.b.c.d/length`. -/
def v4 (a b c d length : ℕ) : Network := ⟨((a * 256 + b) * 256 + c) * 256 + d, length⟩

def v6 (a b c d length : ℕ) : Network :=
  ⟨(((a * 65536 + b) * 65536 + c) * 65536 + d) * 2 ^ 64, length⟩

end Network

inductive Address where
  | v4 (ip : Fin (2 ^ 32))
  | v6 (ip : Fin (2 ^ 128))
deriving DecidableEq

namespace Address

def privateNetworks4 : List Network :=
  [.v4 0 0 0 0 8, .v4 10 0 0 0 8, .v4 127 0 0 0 8, .v4 169 254 0 0 16, .v4 172 16 0 0 12,
    .v4 192 0 0 0 24, .v4 192 0 0 170 31, .v4 192 0 2 0 24, .v4 192 168 0 0 16,
    .v4 198 18 0 0 15, .v4 198 51 100 0 24, .v4 203 0 113 0 24, .v4 240 0 0 0 4,
    .v4 255 255 255 255 32]

def privateExceptions4 : List Network := [.v4 192 0 0 9 32, .v4 192 0 0 10 32]

def isPrivate4 (ip : ℕ) : Bool :=
  privateNetworks4.any (·.contains 32 ip) && privateExceptions4.all fun n => !n.contains 32 ip

def privateNetworks6 : List Network :=
  [⟨1, 128⟩, ⟨0, 128⟩, ⟨0xffff * 2 ^ 32, 96⟩, .v6 0x64 0xff9b 1 0 48, .v6 0x100 0 0 0 64,
    .v6 0x2001 0 0 0 23, .v6 0x2001 0xdb8 0 0 32, .v6 0x2002 0 0 0 16, .v6 0xfc00 0 0 0 7,
    .v6 0xfe80 0 0 0 10]

def privateExceptions6 : List Network :=
  [⟨0x20010001 * 2 ^ 96 + 1, 128⟩, ⟨0x20010001 * 2 ^ 96 + 2, 128⟩, .v6 0x2001 3 0 0 32,
    .v6 0x2001 4 0x112 0 48, .v6 0x2001 0x20 0 0 28, .v6 0x2001 0x30 0 0 28]

def reservedNetworks6 : List Network :=
  [.v6 0 0 0 0 8, .v6 0x100 0 0 0 8, .v6 0x200 0 0 0 7, .v6 0x400 0 0 0 6, .v6 0x800 0 0 0 5,
    .v6 0x1000 0 0 0 4, .v6 0x4000 0 0 0 3, .v6 0x6000 0 0 0 3, .v6 0x8000 0 0 0 3,
    .v6 0xa000 0 0 0 3, .v6 0xc000 0 0 0 3, .v6 0xe000 0 0 0 4, .v6 0xf000 0 0 0 5,
    .v6 0xf800 0 0 0 6, .v6 0xfe00 0 0 0 9]

/-- `ipv4_mapped`. -/
def mapped4 (ip : ℕ) : Option ℕ := if ip / 2 ^ 32 = 0xffff then some (ip % 2 ^ 32) else none

def isPrivate : Address → Bool
  | v4 ip => isPrivate4 ip
  | v6 ip =>
    match mapped4 ip with
    | some ip => isPrivate4 ip
    | none =>
      privateNetworks6.any (·.contains 128 ip) &&
        privateExceptions6.all fun n => !n.contains 128 ip

def isLoopback : Address → Bool
  | v4 ip => (Network.v4 127 0 0 0 8).contains 32 ip
  | v6 ip => decide (ip.val = 1)

def isLinkLocal : Address → Bool
  | v4 ip => (Network.v4 169 254 0 0 16).contains 32 ip
  | v6 ip => (Network.v6 0xfe80 0 0 0 10).contains 128 ip

def isMulticast : Address → Bool
  | v4 ip => (Network.v4 224 0 0 0 4).contains 32 ip
  | v6 ip => (Network.v6 0xff00 0 0 0 8).contains 128 ip

def isReserved : Address → Bool
  | v4 ip => (Network.v4 240 0 0 0 4).contains 32 ip
  | v6 ip => reservedNetworks6.any (·.contains 128 ip)

def isUnspecified : Address → Bool
  | v4 ip => decide (ip.val = 0)
  | v6 ip => decide (ip.val = 0)

end Address

namespace Network

variable {ip width : ℕ} {n : Network} {ms : List Network}

theorem contains_congr {m : Network} (h : n.contains width ip)
    (hle : m.length ≤ n.length) : m.contains width ip = m.contains width n.base := by
  have hn : ip / 2 ^ (width - n.length) = n.base / 2 ^ (width - n.length) := of_decide_eq_true h
  have hpow : 2 ^ (width - m.length) =
      2 ^ (width - n.length) * 2 ^ (width - m.length - (width - n.length)) := by
    rw [← Nat.pow_add]
    congr 1
    omega
  unfold contains
  rw [hpow, ← Nat.div_div_eq_div_mul, ← Nat.div_div_eq_div_mul, ← Nat.div_div_eq_div_mul, hn]

def apart (width : ℕ) (n : Network) (ms : List Network) : Bool :=
  ms.all fun m =>
    if m.length ≤ n.length then !m.contains width n.base else !n.contains width m.base

theorem any_contains_of_apart (hapart : apart width n ms) (h : n.contains width ip) :
    ms.any (·.contains width ip) = false := by
  rw [List.any_eq_false]
  intro m hm hin
  have hm := List.all_eq_true.mp hapart m hm
  split_ifs at hm with hle
  · rw [← contains_congr h hle, hin] at hm
    exact absurd hm (by decide)
  · rw [← contains_congr hin (by omega), h] at hm
    exact absurd hm (by decide)

theorem all_not_contains_of_apart (hapart : apart width n ms) (h : n.contains width ip) :
    (ms.all fun m => !m.contains width ip) = true := by
  have hnone := any_contains_of_apart hapart h
  rw [List.any_eq_false] at hnone
  rw [List.all_eq_true]
  intro m hm
  simpa using hnone m hm

end Network

namespace Address

/-- The addresses `mapped4` reads an address of the first family from. -/
def mappedNetwork : Network := ⟨0xffff * 2 ^ 32, 96⟩

variable {n : Network}

theorem mapped4_eq_none {ip : ℕ} (hapart : Network.apart 128 n [mappedNetwork])
    (h : n.contains 128 ip) : mapped4 ip = none := by
  have hnone := Network.any_contains_of_apart hapart h
  rw [List.any_cons, List.any_nil, Bool.or_false, Network.contains, decide_eq_false_iff_not] at hnone
  rw [mapped4, if_neg]
  simpa [mappedNetwork] using hnone

theorem isPrivate4_of_contains {ip : ℕ} (hn : n ∈ privateNetworks4)
    (hapart : Network.apart 32 n privateExceptions4) (h : n.contains 32 ip) : isPrivate4 ip := by
  rw [isPrivate4, Bool.and_eq_true]
  exact ⟨List.any_eq_true.mpr ⟨n, hn, h⟩, Network.all_not_contains_of_apart hapart h⟩

theorem not_isPrivate4_of_contains {ip : ℕ}
    (hapart : Network.apart 32 n privateNetworks4) (h : n.contains 32 ip) :
    isPrivate4 ip = false := by
  rw [isPrivate4, Network.any_contains_of_apart hapart h, Bool.false_and]

theorem isPrivate_v6_of_contains {ip : Fin (2 ^ 128)} (hn : n ∈ privateNetworks6)
    (hapart : Network.apart 128 n (mappedNetwork :: privateExceptions6))
    (h : n.contains 128 ip) : isPrivate (v6 ip) := by
  rw [Network.apart, List.all_cons, Bool.and_eq_true] at hapart
  have hmapped : Network.apart 128 n [mappedNetwork] := by
    rw [Network.apart, List.all_cons, List.all_nil, Bool.and_true]
    exact hapart.1
  rw [isPrivate, mapped4_eq_none hmapped h, Bool.and_eq_true]
  exact ⟨List.any_eq_true.mpr ⟨n, hn, h⟩, Network.all_not_contains_of_apart hapart.2 h⟩

theorem not_isPrivate_v6_of_contains {ip : Fin (2 ^ 128)}
    (hapart : Network.apart 128 n privateNetworks6) (h : n.contains 128 ip)
    (hmapped : Network.apart 128 n [mappedNetwork]) : isPrivate (v6 ip) = false := by
  rw [isPrivate, mapped4_eq_none hmapped h, Network.any_contains_of_apart hapart h,
    Bool.false_and]

end Address
end CodeResearch
