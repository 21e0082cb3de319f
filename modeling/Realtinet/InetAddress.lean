import Mathlib.Data.List.Lex
import Mathlib.Tactic.DeriveFintype
import Realtinet.EitherOrder

/-! `InetAddress` and the order `operator<` that keys `UdpAcceptor::peerAddrToUdpConnectors_`. The
class is a union of `sockaddr_in` and `sockaddr_in6`: both views put the family and the port first,
and the IPv4 address lies over the IPv6 flow information. Multi-byte fields hold what the host reads
from the bytes in network order; `operator<` compares exactly these readings. -/

namespace Realtinet

open EitherOrder

def AF_INET : UInt16 := 2

def AF_INET6 : UInt16 := 10

/-- The union, under the field names of `sockaddr_in6`. -/
structure InetAddress where
  sin6_family : UInt16
  sin6_port : UInt16
  sin6_flowinfo : UInt32
  sin6_addr : Vector UInt8 16
  sin6_scope_id : UInt32
  deriving DecidableEq

/-- `memcmp` over two memory areas of one size: the sign of the first difference of unsigned bytes. -/
def memcmp : List UInt8 → List UInt8 → Int
  | a :: as, b :: bs => if a = b then memcmp as bs else if a < b then -1 else 1
  | _, _ => 0

theorem memcmp_neg_iff {as bs : List UInt8} (hlen : as.length = bs.length) :
    memcmp as bs < 0 ↔ as.map UInt8.toNat < bs.map UInt8.toNat := by
  induction as generalizing bs with
  | nil =>
      rw [List.length_nil] at hlen
      rw [List.eq_nil_of_length_eq_zero hlen.symm]
      simp [memcmp]
  | cons a as ih =>
      cases bs with
      | nil => simp at hlen
      | cons b bs =>
          rw [List.length_cons, List.length_cons, Nat.add_right_cancel_iff] at hlen
          rw [memcmp, List.map_cons, List.map_cons, List.cons_lt_cons_iff]
          by_cases hab : a = b
          · subst hab
            simpa using ih hlen
          · have hne : a.toNat ≠ b.toNat := fun h => hab (UInt8.toNat_inj.mp h)
            rw [if_neg hab]
            by_cases hlt : a < b
            · simp [hlt, UInt8.lt_iff_toNat_lt.mp hlt]
            · have hnot : ¬a.toNat < b.toNat := fun h => hlt (UInt8.lt_iff_toNat_lt.mpr h)
              simp [hlt, hnot, hne]

namespace InetAddress

/-- `sockaddr_in::sin_addr.s_addr`, at the offset of `sin6_flowinfo`. -/
def s_addr (a : InetAddress) : UInt32 := a.sin6_flowinfo

/-- `sockaddr_in::sin_port`, at the offset of `sin6_port`. -/
def sin_port (a : InetAddress) : UInt16 := a.sin6_port

/-- `InetAddress::operator<`. The second operand is read in the family of the first. -/
def operatorLt (self other : InetAddress) : Bool :=
  if self.sin6_family = AF_INET then
    if self.s_addr < other.s_addr then true
    else if self.sin_port < other.sin_port then true
    else false
  else if self.sin6_family = AF_INET6 then
    if memcmp self.sin6_addr.toList other.sin6_addr.toList < 0 then true
    else if self.sin6_port < other.sin6_port then true
    else false
  else false

/-- The address part of one family: the four bytes of `sin_addr` as one number, or the sixteen bytes
of `sin6_addr` in order. -/
def ip (a : InetAddress) : List Nat :=
  if a.sin6_family = AF_INET then [a.s_addr.toNat] else a.sin6_addr.toList.map UInt8.toNat

def port (a : InetAddress) : Nat := a.sin6_port.toNat

/-- The peer an address names: its ip and its port. -/
def key (a : InetAddress) : List Nat × Nat := (a.ip, a.port)

/-- The comparison of the first branch, on addresses of one family. -/
def ipBelow (a b : InetAddress) : Prop := a.ip < b.ip

theorem operatorLt_eq_true_iff {a b : InetAddress} (hfam : a.sin6_family = b.sin6_family)
    (ha : a.sin6_family = AF_INET ∨ a.sin6_family = AF_INET6) :
    a.operatorLt b = true ↔ EitherLt a.key b.key := by
  have hport : a.sin6_port < b.sin6_port ↔ a.port < b.port := UInt16.lt_iff_toNat_lt
  rw [EitherLt]
  rcases ha with ha | ha
  · have hb : b.sin6_family = AF_INET := hfam ▸ ha
    have hip : a.s_addr < b.s_addr ↔ a.ip < b.ip := by
      rw [ip, ip, if_pos ha, if_pos hb, List.cons_lt_cons_iff]
      simp [UInt32.lt_iff_toNat_lt]
    simp only [operatorLt, if_pos ha, sin_port, key, ← hip, ← hport]
    by_cases h1 : a.s_addr < b.s_addr <;> by_cases h2 : a.sin6_port < b.sin6_port <;> simp [h1, h2]
  · have hne : AF_INET6 ≠ AF_INET := by decide
    have hnot : a.sin6_family ≠ AF_INET := ha ▸ hne
    have hnot' : b.sin6_family ≠ AF_INET := hfam ▸ hnot
    have hip : memcmp a.sin6_addr.toList b.sin6_addr.toList < 0 ↔ a.ip < b.ip := by
      rw [ip, ip, if_neg hnot, if_neg hnot', memcmp_neg_iff (by simp)]
    simp only [operatorLt, if_neg hnot, if_pos ha, key, ← hip, ← hport]
    by_cases h1 : memcmp a.sin6_addr.toList b.sin6_addr.toList < 0 <;>
      by_cases h2 : a.sin6_port < b.sin6_port <;> simp [h1, h2]

/-- The comparison `operator<` as the ordering of a container that holds the keys in `S`. -/
def OrdersPeers (S : Set InetAddress) : Prop :=
  StrictWeakOrderOn (fun a b => a.operatorLt b = true) (fun a b => a.ip = b.ip ∧ a.port = b.port) S

/-- On addresses of one family `operator<` compares the keys coordinate by coordinate. -/
theorem ordersPeers_iff_eitherLt {family : UInt16} (hfamily : family = AF_INET ∨ family = AF_INET6)
    {S : Set InetAddress} (hS : ∀ a ∈ S, a.sin6_family = family) :
    OrdersPeers S ↔ StrictWeakOrderOn (fun a b => EitherLt a.key b.key) (fun a b => a.key = b.key) S := by
  have hlt : ∀ a ∈ S, ∀ b ∈ S, (a.operatorLt b = true ↔ EitherLt a.key b.key) := by
    intro a ha b hb
    exact operatorLt_eq_true_iff ((hS a ha).trans (hS b hb).symm) ((hS a ha).symm ▸ hfamily)
  have hsame : ∀ a ∈ S, ∀ b ∈ S, ((a.ip = b.ip ∧ a.port = b.port) ↔ a.key = b.key) := by
    intro a _ b _
    rw [key, key, Prod.mk.injEq]
  constructor
  · intro h
    exact h.congr (fun a ha b hb => (hlt a ha b hb).symm) fun a ha b hb => (hsame a ha b hb).symm
  · intro h
    exact h.congr hlt hsame

/-- **When `operator<` orders the peers.** On addresses of one family it is a strict weak order that
identifies exactly equal (ip, port) pairs if and only if no two of them have the smaller ip with the
larger port. -/
theorem ordersPeers_iff (family : UInt16) (hfamily : family = AF_INET ∨ family = AF_INET6)
    (S : Set InetAddress) (hS : ∀ a ∈ S, a.sin6_family = family) :
    OrdersPeers S ↔ ∀ a ∈ S, ∀ b ∈ S, ¬(a.ipBelow b ∧ b.port < a.port) :=
  (ordersPeers_iff_eitherLt hfamily hS).trans (strictWeakOrderOn_iff key S)

/-- 10.0.0.1:1000 and 10.0.0.2:2000, as a little-endian host reads them: the second address is the
larger one and its port the smaller one. -/
def firstPeer : InetAddress := ⟨AF_INET, 0xE803, 0x0100000A, Vector.replicate 16 0, 0⟩

def secondPeer : InetAddress := ⟨AF_INET, 0xD007, 0x0200000A, Vector.replicate 16 0, 0⟩

/-- Each of the two peers is below the other. -/
theorem not_ordersPeers_inet : ¬OrdersPeers {a | a.sin6_family = AF_INET} := by
  intro h
  have hfirst : firstPeer.operatorLt secondPeer = true := by decide
  have hsecond : secondPeer.operatorLt firstPeer = true := by decide
  exact h.asymm firstPeer rfl secondPeer rfl hfirst hsecond

/-- Two clients behind one ip are ordered by their ports. -/
theorem ordersPeers_one_ip :
    OrdersPeers {a | a = firstPeer ∨ a = { firstPeer with sin6_port := 0xD007 }} := by
  rw [ordersPeers_iff AF_INET (Or.inl rfl) _ (by rintro a (rfl | rfl) <;> rfl)]
  rintro a (rfl | rfl) b (rfl | rfl) <;> simp only [ipBelow] <;> decide

end InetAddress
end Realtinet
