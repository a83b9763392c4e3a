/-
# Internet addresses and their blocks

An address is its octets, and a block is the set of addresses that share its first bits.
The blocks that are set aside for a special purpose are listed as the registries list
them, and an address is public if it lies in none of them.
-/

import Mathlib.Algebra.Group.Nat.Defs
import Mathlib.Tactic.Common

namespace Useful.Math

structure Ipv4Addr where
  (a b c d : UInt8)
  deriving DecidableEq, Repr

structure Ipv6Addr where
  (o0 o1 o2 o3 o4 o5 o6 o7 o8 o9 o10 o11 o12 o13 o14 o15 : UInt8)
  deriving DecidableEq, Repr

inductive IpAddr
  | v4 (ip : Ipv4Addr)
  | v6 (ip : Ipv6Addr)
  deriving DecidableEq, Repr

/-- The number that octets write, the first one leading. -/
def octetsValue (octets : List UInt8) : Nat :=
  octets.foldl (fun value o => value * 256 + o.toNat) 0

/-- Two numbers of `width` bits agree on their first `length` bits. -/
def SameBlock (width length value base : Nat) : Prop :=
  value / 2 ^ (width - length) = base / 2 ^ (width - length)

instance (width length value base : Nat) : Decidable (SameBlock width length value base) :=
  inferInstanceAs (Decidable (_ = _))

namespace Ipv4Addr

def octets (ip : Ipv4Addr) : List UInt8 := [ip.a, ip.b, ip.c, ip.d]

def value (ip : Ipv4Addr) : Nat := octetsValue ip.octets

/-- The blocks that are not public, with the lengths of their prefixes. -/
def specialBlocks : List (Ipv4Addr × Nat) :=
  [(⟨0, 0, 0, 0⟩, 8), (⟨10, 0, 0, 0⟩, 8), (⟨100, 64, 0, 0⟩, 10), (⟨127, 0, 0, 0⟩, 8),
    (⟨169, 254, 0, 0⟩, 16), (⟨172, 16, 0, 0⟩, 12), (⟨192, 0, 0, 0⟩, 24), (⟨192, 0, 2, 0⟩, 24),
    (⟨192, 88, 99, 0⟩, 24), (⟨192, 168, 0, 0⟩, 16), (⟨198, 18, 0, 0⟩, 15),
    (⟨198, 51, 100, 0⟩, 24), (⟨203, 0, 113, 0⟩, 24), (⟨224, 0, 0, 0⟩, 4), (⟨240, 0, 0, 0⟩, 4)]

def IsPublic (ip : Ipv4Addr) : Prop :=
  ∀ block ∈ specialBlocks, ¬ SameBlock 32 block.2 ip.value block.1.value

/-- `Ipv4Addr::is_loopback`. -/
def isLoopback (ip : Ipv4Addr) : Bool := ip.a == 127

theorem value_eq (ip : Ipv4Addr) :
    ip.value = ((ip.a.toNat * 256 + ip.b.toNat) * 256 + ip.c.toNat) * 256 + ip.d.toNat := by
  simp [value, octetsValue, octets]

/-- The octets that a prefix of whole octets fixes. -/
theorem sameBlock_octets (ip block : Ipv4Addr) :
    (SameBlock 32 8 ip.value block.value → ip.a = block.a) ∧
    (SameBlock 32 16 ip.value block.value → ip.a = block.a ∧ ip.b = block.b) ∧
    (SameBlock 32 24 ip.value block.value → ip.a = block.a ∧ ip.b = block.b ∧ ip.c = block.c) := by
  have hb := ip.b.toNat_lt
  have hc := ip.c.toNat_lt
  have hd := ip.d.toNat_lt
  have hb' := block.b.toNat_lt
  have hc' := block.c.toNat_lt
  have hd' := block.d.toNat_lt
  unfold SameBlock
  simp only [value_eq, ← UInt8.toNat_inj]
  omega

/-- The bits that the other prefixes of the list fix. -/
theorem sameBlock_bits (ip block : Ipv4Addr) :
    (SameBlock 32 4 ip.value block.value → ip.a.toNat / 16 = block.a.toNat / 16) ∧
    (SameBlock 32 10 ip.value block.value →
      ip.a = block.a ∧ ip.b.toNat / 64 = block.b.toNat / 64) ∧
    (SameBlock 32 12 ip.value block.value →
      ip.a = block.a ∧ ip.b.toNat / 16 = block.b.toNat / 16) ∧
    (SameBlock 32 15 ip.value block.value →
      ip.a = block.a ∧ ip.b.toNat / 2 = block.b.toNat / 2) := by
  have hb := ip.b.toNat_lt
  have hc := ip.c.toNat_lt
  have hd := ip.d.toNat_lt
  have hb' := block.b.toNat_lt
  have hc' := block.c.toNat_lt
  have hd' := block.d.toNat_lt
  unfold SameBlock
  simp only [value_eq, ← UInt8.toNat_inj]
  omega

/-- A loopback address is not public. -/
theorem not_isPublic_of_isLoopback {ip : Ipv4Addr} (h : ip.isLoopback) : ¬ ip.IsPublic := by
  intro hpublic
  apply hpublic (⟨127, 0, 0, 0⟩, 8) (by simp [specialBlocks])
  have ha : ip.a.toNat = 127 := by simpa [isLoopback] using congrArg UInt8.toNat (beq_iff_eq.mp h)
  have hb := ip.b.toNat_lt
  have hc := ip.c.toNat_lt
  have hd := ip.d.toNat_lt
  have hbase : value ⟨127, 0, 0, 0⟩ = 2130706432 := rfl
  show ip.value / 2 ^ 24 = value ⟨127, 0, 0, 0⟩ / 2 ^ 24
  rw [hbase, value_eq]
  omega

end Ipv4Addr

namespace Ipv6Addr

def octets (ip : Ipv6Addr) : List UInt8 :=
  [ip.o0, ip.o1, ip.o2, ip.o3, ip.o4, ip.o5, ip.o6, ip.o7, ip.o8, ip.o9, ip.o10, ip.o11, ip.o12,
    ip.o13, ip.o14, ip.o15]

def value (ip : Ipv6Addr) : Nat := octetsValue ip.octets

theorem value_eq (ip : Ipv6Addr) : ∃ rest < 2 ^ 96, ip.value =
    (((ip.o0.toNat * 256 + ip.o1.toNat) * 256 + ip.o2.toNat) * 256 + ip.o3.toNat) * 2 ^ 96 +
      rest := by
  obtain ⟨o0, o1, o2, o3, o4, o5, o6, o7, o8, o9, o10, o11, o12, o13, o14, o15⟩ := ip
  have h4 := o4.toNat_lt
  have h5 := o5.toNat_lt
  have h6 := o6.toNat_lt
  have h7 := o7.toNat_lt
  have h8 := o8.toNat_lt
  have h9 := o9.toNat_lt
  have h10 := o10.toNat_lt
  have h11 := o11.toNat_lt
  have h12 := o12.toNat_lt
  have h13 := o13.toNat_lt
  have h14 := o14.toNat_lt
  have h15 := o15.toNat_lt
  refine ⟨octetsValue [o4, o5, o6, o7, o8, o9, o10, o11, o12, o13, o14, o15], ?_, ?_⟩
  · simp only [octetsValue, List.foldl_cons, List.foldl_nil]
    omega
  · simp only [value, octets, octetsValue, List.foldl_cons, List.foldl_nil]
    omega

/-- The octets that the prefixes of the list fix. -/
theorem sameBlock_octets (ip block : Ipv6Addr) :
    (SameBlock 128 16 ip.value block.value → ip.o0 = block.o0 ∧ ip.o1 = block.o1) ∧
    (SameBlock 128 20 ip.value block.value → ip.o0 = block.o0 ∧ ip.o1 = block.o1 ∧
      ip.o2.toNat / 16 = block.o2.toNat / 16) ∧
    (SameBlock 128 23 ip.value block.value → ip.o0 = block.o0 ∧ ip.o1 = block.o1 ∧
      ip.o2.toNat / 2 = block.o2.toNat / 2) ∧
    (SameBlock 128 32 ip.value block.value → ip.o0 = block.o0 ∧ ip.o1 = block.o1 ∧
      ip.o2 = block.o2 ∧ ip.o3 = block.o3) ∧
    (SameBlock 128 3 ip.value (2 ^ 125) ↔ ip.o0.toNat / 32 = 1) := by
  have h1 := ip.o1.toNat_lt
  have h2 := ip.o2.toNat_lt
  have h3 := ip.o3.toNat_lt
  have h1' := block.o1.toNat_lt
  have h2' := block.o2.toNat_lt
  have h3' := block.o3.toNat_lt
  obtain ⟨rest, hrest, hvalue⟩ := value_eq ip
  obtain ⟨rest', hrest', hvalue'⟩ := value_eq block
  unfold SameBlock
  rw [hvalue, hvalue']
  simp only [← UInt8.toNat_inj]
  omega

/-- What shorter prefixes fix of the first two octets. -/
theorem sameBlock_front (ip block : Ipv6Addr) :
    (SameBlock 128 7 ip.value block.value → ip.o0.toNat / 2 = block.o0.toNat / 2) ∧
    (SameBlock 128 8 ip.value block.value → ip.o0 = block.o0) ∧
    (SameBlock 128 10 ip.value block.value →
      ip.o0 = block.o0 ∧ ip.o1.toNat / 64 = block.o1.toNat / 64) := by
  have h1 := ip.o1.toNat_lt
  have h2 := ip.o2.toNat_lt
  have h3 := ip.o3.toNat_lt
  have h1' := block.o1.toNat_lt
  have h2' := block.o2.toNat_lt
  have h3' := block.o3.toNat_lt
  obtain ⟨rest, hrest, hvalue⟩ := value_eq ip
  obtain ⟨rest', hrest', hvalue'⟩ := value_eq block
  unfold SameBlock
  rw [hvalue, hvalue']
  simp only [← UInt8.toNat_inj]
  omega

/-- An address of one octet has zeros in front of it. -/
theorem octets_of_value_lt {ip : Ipv6Addr} (h : ip.value < 256) :
    ip.octets.map UInt8.toNat = List.replicate 15 0 ++ [ip.value] := by
  obtain ⟨o0, o1, o2, o3, o4, o5, o6, o7, o8, o9, o10, o11, o12, o13, o14, o15⟩ := ip
  simp only [value, octets, octetsValue, List.foldl_cons, List.foldl_nil] at h
  simp only [octets, value, octetsValue, List.map_cons, List.map_nil, List.replicate_succ,
    List.replicate_zero, List.cons_append, List.nil_append, List.cons.injEq, List.foldl_cons,
    List.foldl_nil, and_true]
  omega

/-- The blocks of global unicast that are not public, with the lengths of their prefixes. -/
def specialBlocks : List (Ipv6Addr × Nat) :=
  [(⟨0x20, 0x01, 0, 0, 0, 0, 0, 0, 0, 0, 0, 0, 0, 0, 0, 0⟩, 23),
    (⟨0x20, 0x01, 0x0d, 0xb8, 0, 0, 0, 0, 0, 0, 0, 0, 0, 0, 0, 0⟩, 32),
    (⟨0x20, 0x02, 0, 0, 0, 0, 0, 0, 0, 0, 0, 0, 0, 0, 0, 0⟩, 16),
    (⟨0x3f, 0xff, 0, 0, 0, 0, 0, 0, 0, 0, 0, 0, 0, 0, 0, 0⟩, 20)]

/-- Global unicast is `2000::/3`. -/
def IsPublic (ip : Ipv6Addr) : Prop :=
  SameBlock 128 3 ip.value (2 ^ 125) ∧
    ∀ block ∈ specialBlocks, ¬ SameBlock 128 block.2 ip.value block.1.value

/-- `Ipv6Addr::is_loopback`. -/
def isLoopback (ip : Ipv6Addr) : Bool :=
  ip == ⟨0, 0, 0, 0, 0, 0, 0, 0, 0, 0, 0, 0, 0, 0, 0, 1⟩

/-- A loopback address is not public. -/
theorem not_isPublic_of_isLoopback {ip : Ipv6Addr} (h : ip.isLoopback) : ¬ ip.IsPublic := by
  rw [beq_iff_eq.mp h]
  intro hpublic
  exact absurd hpublic.1 (by decide)

end Ipv6Addr

namespace IpAddr

def IsPublic : IpAddr → Prop
  | v4 ip => ip.IsPublic
  | v6 ip => ip.IsPublic

/-- `IpAddr::is_loopback`. -/
def isLoopback : IpAddr → Bool
  | v4 ip => ip.isLoopback
  | v6 ip => ip.isLoopback

theorem not_isPublic_of_isLoopback {ip : IpAddr} (h : ip.isLoopback) : ¬ ip.IsPublic := by
  cases ip with
  | v4 ip => exact Ipv4Addr.not_isPublic_of_isLoopback h
  | v6 ip => exact Ipv6Addr.not_isPublic_of_isLoopback h

end IpAddr

end Useful.Math
