import Realtinet.BoundedPrint
import Realtinet.InetAddress

/-! `InetAddress::toIpPort`, the text that names a connection. The host is little-endian. `inet_ntop` of an IPv6 address
is a parameter; POSIX gives its texts `INET6_ADDRSTRLEN` characters with the null. -/

namespace Realtinet

open BoundedPrint

/-- `sockets::networkToHost16`. -/
def networkToHost16 (net16 : UInt16) : UInt16 := net16 <<< 8 ||| net16 >>> 8

/-- `inet_ntop(AF_INET, ...)`: the four bytes of the address in their order in memory. -/
def inetNtop4 (s_addr : UInt32) : List Char :=
  decimal (s_addr.toNat % 256) ++ '.' :: decimal (s_addr.toNat / 256 % 256) ++
    '.' :: decimal (s_addr.toNat / 65536 % 256) ++ '.' :: decimal (s_addr.toNat / 16777216 % 256)

theorem length_inetNtop4_le (s_addr : UInt32) : (inetNtop4 s_addr).length ≤ 15 := by
  have hbyte : ∀ n : Nat, (decimal (n % 256)).length ≤ 3 := by
    intro n
    exact length_decimal_le (by decide) (by omega)
  have h0 := hbyte s_addr.toNat
  have h1 := hbyte (s_addr.toNat / 256)
  have h2 := hbyte (s_addr.toNat / 65536)
  have h3 := hbyte (s_addr.toNat / 16777216)
  simp only [inetNtop4, List.length_append, List.length_cons]
  omega

/-- Two bytes of an IPv6 address in hexadecimal. -/
def hexGroup (addr : Vector UInt8 16) (i : Nat) : List Char :=
  Nat.toDigits 16 (256 * (addr.toList.getD (2 * i) 0).toNat + (addr.toList.getD (2 * i + 1) 0).toNat)

/-- What `inet_ntop(AF_INET6, ...)` writes if no two neighbouring groups are zero. -/
def hexGroups (addr : Vector UInt8 16) : List Char :=
  hexGroup addr 0 ++ ':' :: hexGroup addr 1 ++ ':' :: hexGroup addr 2 ++ ':' :: hexGroup addr 3 ++
    ':' :: hexGroup addr 4 ++ ':' :: hexGroup addr 5 ++ ':' :: hexGroup addr 6 ++ ':' :: hexGroup addr 7

theorem length_hexGroups_le (addr : Vector UInt8 16) : (hexGroups addr).length ≤ 39 := by
  have hgroup : ∀ i, (hexGroup addr i).length ≤ 4 := by
    intro i
    have hhigh := UInt8.toNat_lt (addr.toList.getD (2 * i) 0)
    have hlow := UInt8.toNat_lt (addr.toList.getD (2 * i + 1) 0)
    exact (Nat.length_toDigits_le_iff (by decide) (by decide)).mpr (by omega)
  have h0 := hgroup 0
  have h1 := hgroup 1
  have h2 := hgroup 2
  have h3 := hgroup 3
  have h4 := hgroup 4
  have h5 := hgroup 5
  have h6 := hgroup 6
  have h7 := hgroup 7
  simp only [hexGroups, List.length_append, List.length_cons]
  omega

namespace InetAddress

variable (inetNtop6 : Vector UInt8 16 → List Char) (a : InetAddress)

/-- `sockets::toIp`, into a buffer that is empty before. -/
def toIp : List Char :=
  if a.sin6_family = AF_INET then inetNtop4 a.s_addr
  else if a.sin6_family = AF_INET6 then inetNtop6 a.sin6_addr
  else []

/-- `sockets::toIpPort`, into the 64 characters of `InetAddress::toIpPort`. -/
def toIpPort : List Char :=
  let ip := a.toIp inetNtop6
  ip ++ snprintf (64 - ip.length) (':' :: decimal (networkToHost16 a.sin_port).toNat)

/-- An address of at most 45 characters, a colon, and a port of at most five digits. -/
theorem length_toIpPort_le (hinetNtop6 : ∀ addr, (inetNtop6 addr).length ≤ 45) : (a.toIpPort inetNtop6).length ≤ 51 := by
  have hip : (a.toIp inetNtop6).length ≤ 45 := by
    rw [toIp]
    split_ifs
    · exact Nat.le_trans (length_inetNtop4_le _) (by decide)
    · exact hinetNtop6 _
    · exact Nat.zero_le _
  have hport : (decimal (networkToHost16 a.sin_port).toNat).length ≤ 5 := by
    have hlt := UInt16.toNat_lt (networkToHost16 a.sin_port)
    exact length_decimal_le (by decide) (by omega)
  have htext := length_snprintf_le (64 - (a.toIp inetNtop6).length) (':' :: decimal (networkToHost16 a.sin_port).toNat)
  rw [List.length_cons] at htext
  rw [toIpPort, List.length_append]
  omega

end InetAddress
end Realtinet
